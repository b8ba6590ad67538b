import LogConsumer.Cluster
import LogConsumer.Options

/-! The next offset to be read of each partition that a consumer has a position in. -/
namespace LogConsumer

abbrev Positions := OffsetMap

namespace Positions

/-- Moves to an offset, which must lie between 0 and the length of the log. -/
def seek (positions : Positions) (p : Partition) (offset logLength : Int) :
    Except Failure Positions :=
  if offset < 0 ∨ logLength < offset then .error (.invalidOffset p offset logLength)
  else .ok (positions.insert p offset)

def advance (positions : Positions) (p : Partition) : Positions :=
  match positions.get? p with
  | some offset => positions.insert p (offset + 1)
  | none => positions

/-- Where a partition without a position starts: at the group's committed offset, else where the
reset policy tells. -/
def startingOffset (cluster : Cluster) (options : Options) (p : Partition) : Except Failure Int :=
  match cluster.committedOffset? options.group p with
  | some offset => .ok offset
  | none =>
    match options.offsetReset with
    | .ok .earliest => .ok 0
    | .ok .latest => .ok (cluster.logLength p)
    | .error e => .error e

/-- Gives each of the partitions that has no position its starting offset. A failure ends this at
the partition that caused it, and those before keep theirs. -/
def fillGaps (cluster : Cluster) (options : Options) :
    List Partition → Positions → Positions × Except Failure Unit
  | [], positions => (positions, .ok ())
  | p :: rest, positions =>
    if positions.contains p then fillGaps cluster options rest positions
    else
      match startingOffset cluster options p with
      | .ok offset => fillGaps cluster options rest (positions.insert p offset)
      | .error e => (positions, .error e)

def snapshot (positions : Positions) (ps : List Partition) : OffsetMap :=
  .ofList (ps.filterMap fun p => (positions.get? p).map (p, ·))

theorem seek_eq_ok_iff {positions positions' : Positions} {p : Partition} {offset logLength : Int} :
    positions.seek p offset logLength = .ok positions' ↔
      (0 ≤ offset ∧ offset ≤ logLength) ∧ positions' = positions.insert p offset := by
  unfold seek
  split
  next h => simp; omega
  next h =>
    have hin : 0 ≤ offset ∧ offset ≤ logLength := by omega
    simp [hin, eq_comm]

theorem seek_eq_error_iff {positions : Positions} {p : Partition} {offset logLength : Int}
    {e : Failure} :
    positions.seek p offset logLength = .error e ↔
      (offset < 0 ∨ logLength < offset) ∧ e = .invalidOffset p offset logLength := by
  unfold seek
  split
  next h => simp [h, eq_comm]
  next h => simp [h]

theorem get?_advance (positions : Positions) (p p' : Partition) :
    (advance positions p).get? p' =
      if p' = p then (positions.get? p).map (· + 1) else positions.get? p' := by
  unfold advance
  by_cases hp : p' = p
  · subst hp
    cases h : positions.get? p' <;> simp [h]
  · cases h : positions.get? p <;> simp [hp, SortedMap.get?_insert_of_ne]

theorem get?_fillGaps_of_some {cluster : Cluster} {options : Options} {ps : List Partition}
    {positions : Positions} {p : Partition} {offset : Int} (h : positions.get? p = some offset) :
    (fillGaps cluster options ps positions).1.get? p = some offset := by
  induction ps generalizing positions with
  | nil => exact h
  | cons q ps ih =>
    simp only [fillGaps]
    split
    · exact ih h
    next hq =>
      have hne : p ≠ q := by
        rintro rfl
        exact hq (SortedMap.contains_iff.2 ⟨offset, h⟩)
      split
      · exact ih ((SortedMap.get?_insert_of_ne positions hne _).trans h)
      · exact h

theorem startingOffset_of_fillGaps {cluster : Cluster} {options : Options} {ps : List Partition}
    {positions : Positions} {p : Partition} {offset : Int}
    (h : (fillGaps cluster options ps positions).1.get? p = some offset) :
    positions.get? p = some offset ∨
      (p ∈ ps ∧ startingOffset cluster options p = .ok offset) := by
  induction ps generalizing positions with
  | nil => exact .inl h
  | cons q ps ih =>
    have hrest {m : Positions} (h : (fillGaps cluster options ps m).1.get? p = some offset) :
        m.get? p = some offset ∨ (p ∈ q :: ps ∧ startingOffset cluster options p = .ok offset) :=
      (ih h).imp_right fun ⟨hmem, hstart⟩ => ⟨List.mem_cons_of_mem q hmem, hstart⟩
    simp only [fillGaps] at h
    split at h
    · exact hrest h
    · split at h
      next offset' hstart =>
        rcases hrest h with hsame | hnew
        · by_cases hpq : p = q
          · subst hpq
            cases (SortedMap.get?_insert_self ..).symm.trans hsame
            exact .inr ⟨List.mem_cons_self .., hstart⟩
          · exact .inl ((SortedMap.get?_insert_of_ne _ hpq _).symm.trans hsame)
        · exact .inr hnew
      · exact .inl h

theorem get?_fillGaps (cluster : Cluster) (options : Options) (ps : List Partition)
    (positions : Positions) (p : Partition) :
    (fillGaps cluster options ps positions).1.get? p = positions.get? p ∨
      (positions.get? p = none ∧ (fillGaps cluster options ps positions).1.contains p ∧ p ∈ ps) := by
  cases hp : positions.get? p with
  | some offset => exact .inl (get?_fillGaps_of_some hp)
  | none =>
    cases hp' : (fillGaps cluster options ps positions).1.get? p with
    | none => exact .inl rfl
    | some offset =>
      rcases startingOffset_of_fillGaps hp' with hsame | ⟨hmem, -⟩
      · cases hp.symm.trans hsame
      · exact .inr ⟨rfl, SortedMap.contains_iff.2 ⟨offset, hp'⟩, hmem⟩

theorem contains_fillGaps_of_ok {cluster : Cluster} {options : Options} {ps : List Partition}
    {positions : Positions} (h : (fillGaps cluster options ps positions).2 = .ok ())
    {p : Partition} (hp : p ∈ ps) : (fillGaps cluster options ps positions).1.contains p := by
  have hkeep {m : Positions} {q : Partition} (hq : m.contains q) (qs : List Partition) :
      (fillGaps cluster options qs m).1.contains q := by
    obtain ⟨offset, hoffset⟩ := SortedMap.contains_iff.1 hq
    exact SortedMap.contains_iff.2 ⟨offset, get?_fillGaps_of_some hoffset⟩
  induction ps generalizing positions with
  | nil => cases hp
  | cons q ps ih =>
    simp only [fillGaps] at h ⊢
    split at h
    next hq =>
      rw [if_pos hq]
      rcases List.mem_cons.1 hp with rfl | hp
      · exact hkeep hq ps
      · exact ih h hp
    next hq =>
      rw [if_neg hq]
      split at h
      · rcases List.mem_cons.1 hp with rfl | hp
        · exact hkeep ((SortedMap.contains_insert ..).2 (.inl rfl)) ps
        · exact ih h hp
      · cases h

/-- A failure is that of the reset policy, at the first partition that has neither a position nor a
committed offset. Those before it have what the group has committed, if they had no position. -/
theorem fillGaps_eq_error {cluster : Cluster} {options : Options} {ps : List Partition}
    {positions positions' : Positions} {e : Failure}
    (h : fillGaps cluster options ps positions = (positions', .error e)) :
    options.offsetReset = .error e ∧ ∃ before p after, ps = before ++ p :: after ∧
      positions.contains p = false ∧ cluster.committedOffset? options.group p = none ∧
      (∀ q ∈ before, positions.contains q = false →
        (cluster.committedOffset? options.group q).isSome = true) ∧
      ∀ q, positions'.get? q = (positions.get? q).or
        (if q ∈ before then cluster.committedOffset? options.group q else none) := by
  induction ps generalizing positions with
  | nil => cases h
  | cons p ps ih =>
    simp only [fillGaps] at h
    split at h
    next htracked =>
      obtain ⟨he, before, p', after, rfl, hp', hnone, hbefore, hget⟩ := ih h
      refine ⟨he, p :: before, p', after, rfl, hp', hnone, ?_, fun q => ?_⟩
      · intro q hq hq'
        rcases List.mem_cons.1 hq with rfl | hq
        · cases htracked.symm.trans hq'
        · exact hbefore q hq hq'
      · rw [hget]
        by_cases hqp : q = p
        · subst hqp
          obtain ⟨offset, hoffset⟩ := SortedMap.contains_iff.1 htracked
          simp [hoffset]
        · simp [hqp]
    next huntracked =>
      have huntracked : positions.contains p = false := Bool.eq_false_iff.2 huntracked
      cases hcommitted : cluster.committedOffset? options.group p with
      | none =>
        cases hreset : options.offsetReset with
        | error e' =>
          simp only [startingOffset, hcommitted, hreset] at h
          cases h
          exact ⟨rfl, [], p, ps, rfl, huntracked, hcommitted, by simp, by simp⟩
        | ok policy =>
          -- A policy that is known fails nowhere.
          have hstart : ∃ offset, startingOffset cluster options p = .ok offset := by
            cases policy <;> simp [startingOffset, hcommitted, hreset]
          obtain ⟨offset, hstart⟩ := hstart
          rw [hstart] at h
          cases (ih h).1.symm.trans hreset
      | some offset =>
        simp only [startingOffset, hcommitted] at h
        obtain ⟨he, before, p', after, rfl, hp', hnone, hbefore, hget⟩ := ih h
        refine ⟨he, p :: before, p', after, rfl, ?_, hnone, ?_, fun q => ?_⟩
        · refine Bool.eq_false_iff.2 fun hcontains => ?_
          have hcontains' := (SortedMap.contains_insert positions p p' offset).2 (.inr hcontains)
          cases hcontains'.symm.trans hp'
        · intro q hq hq'
          rcases List.mem_cons.1 hq with rfl | hq
          · rw [hcommitted, Option.isSome_some]
          · by_cases hqp : q = p
            · rw [hqp, hcommitted, Option.isSome_some]
            · refine hbefore q hq ?_
              simpa [SortedMap.contains, SortedMap.get?_insert_of_ne positions hqp] using hq'
        · rw [hget]
          by_cases hqp : q = p
          · subst hqp
            have hnew : positions.get? q = none := by simpa [SortedMap.contains] using huntracked
            simp [hnew, hcommitted]
          · simp [hqp, SortedMap.get?_insert_of_ne positions hqp]

theorem fillGaps_of_offsetReset {cluster : Cluster} {options : Options} {policy : ResetPolicy}
    (h : options.offsetReset = .ok policy) (ps : List Partition) (positions : Positions) :
    (fillGaps cluster options ps positions).2 = .ok () := by
  cases hfill : fillGaps cluster options ps positions with
  | mk positions' result =>
    cases result with
    | ok => rfl
    | error e =>
      obtain ⟨hreset, -⟩ := fillGaps_eq_error hfill
      cases h.symm.trans hreset

/-- Positions are found for all the partitions if the reset policy is known, or if it is not asked for:
each partition that has no position has a committed offset. -/
theorem fillGaps_eq_ok_iff {cluster : Cluster} {options : Options} {ps : List Partition}
    {positions : Positions} :
    (fillGaps cluster options ps positions).2 = .ok () ↔
      (∃ policy, options.offsetReset = .ok policy) ∨ ∀ p ∈ ps, positions.contains p = false →
        (cluster.committedOffset? options.group p).isSome = true := by
  constructor
  · intro hok
    cases hreset : options.offsetReset with
    | ok policy => exact .inl ⟨policy, rfl⟩
    | error e =>
      refine .inr fun p hp huntracked => ?_
      obtain ⟨offset, hoffset⟩ := SortedMap.contains_iff.1 (contains_fillGaps_of_ok hok hp)
      rcases startingOffset_of_fillGaps hoffset with hsame | ⟨-, hstart⟩
      · cases huntracked.symm.trans (SortedMap.contains_iff.2 ⟨offset, hsame⟩)
      · cases hcommitted : cluster.committedOffset? options.group p with
        | some offset' => rfl
        | none =>
          simp only [startingOffset, hcommitted, hreset] at hstart
          cases hstart
  · rintro (⟨policy, hpolicy⟩ | hcommitted)
    · exact fillGaps_of_offsetReset hpolicy ps positions
    · cases hfill : fillGaps cluster options ps positions with
      | mk positions' result =>
        cases result with
        | ok => rfl
        | error e =>
          obtain ⟨-, before, p, after, rfl, huntracked, hnone, -⟩ := fillGaps_eq_error hfill
          have hsome := hcommitted p (by simp) huntracked
          rw [hnone] at hsome
          cases hsome

theorem get?_snapshot (positions : Positions) (ps : List Partition) (p : Partition) :
    (positions.snapshot ps).get? p = if p ∈ ps then positions.get? p else none :=
  SortedMap.get?_ofList_filterMap positions.get? ps p

end Positions

end LogConsumer
