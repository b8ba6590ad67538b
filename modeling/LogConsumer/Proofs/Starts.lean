import LogConsumer.Proofs.ByteOrder
import LogConsumer.Proofs.Topology

/-! Where the reading of assigned partitions starts that have no position yet. Main statement:
`fillGaps_starts`. -/
namespace LogConsumer
namespace Positions

variable {cluster : Cluster} {options : Options} {positions : Positions} {p : Partition}

/-- A partition starts at the offset that the group has committed, and without one where the reset
policy tells. -/
def StartsAt (cluster : Cluster) (options : Options) (p : Partition) (offset : Int) : Prop :=
  cluster.committedOffset? options.group p = some offset ∨
    cluster.committedOffset? options.group p = none ∧
      (options.offsetReset = .ok .earliest ∧ offset = 0 ∨
        options.offsetReset = .ok .latest ∧ offset = (cluster.records p).length)

theorem startsAt_of_startingOffset {offset : Int}
    (h : startingOffset cluster options p = .ok offset) : StartsAt cluster options p offset := by
  unfold startingOffset at h
  cases hcommitted : cluster.committedOffset? options.group p with
  | some committed =>
    rw [hcommitted] at h
    cases h
    exact .inl hcommitted
  | none =>
    rw [hcommitted] at h
    refine .inr ⟨hcommitted, ?_⟩
    cases hreset : options.offsetReset with
    | error e =>
      rw [hreset] at h
      cases h
    | ok policy =>
      rw [hreset] at h
      cases policy with
      | earliest =>
        cases h
        exact .inl ⟨rfl, rfl⟩
      | latest =>
        cases h
        refine .inr ⟨rfl, ?_⟩
        rw [Cluster.length_records]

theorem StartsAt.eq_zero {offset : Int} (h : StartsAt cluster options p offset)
    (hp : ¬ cluster.Has p) (hnone : cluster.committedOffset? options.group p = none) :
    offset = 0 := by
  have hlog : cluster.log? p = none := by
    rw [Cluster.has_iff, Option.not_isSome_iff_eq_none] at hp
    exact hp
  rcases h with hcommitted | ⟨-, ⟨-, rfl⟩ | ⟨-, rfl⟩⟩
  · cases hnone.symm.trans hcommitted
  · rfl
  · rw [Cluster.records, hlog]
    rfl

theorem fillGaps_of_contains {ps : List Partition} (h : ∀ p ∈ ps, positions.contains p = true) :
    fillGaps cluster options ps positions = (positions, .ok ()) := by
  induction ps with
  | nil => rfl
  | cons p ps ih =>
    have ⟨hp, hps⟩ := List.forall_mem_cons.1 h
    rw [fillGaps, if_pos hp, ih hps]

theorem fillGaps_of_ok {assignment : SortedSet Partition}
    (h : (fillGaps cluster options assignment.keys positions).2 = .ok ()) :
    (∀ p, assignment.contains p = true → positions.get? p = none →
      ∃ offset, (fillGaps cluster options assignment.keys positions).1.get? p = some offset ∧
        StartsAt cluster options p offset ∧
        (¬ cluster.Has p → cluster.committedOffset? options.group p = none → offset = 0)) ∧
      fillGaps cluster options assignment.keys
          (fillGaps cluster options assignment.keys positions).1 =
        ((fillGaps cluster options assignment.keys positions).1, .ok ()) := by
  refine ⟨fun p hassigned hnone => ?_, fillGaps_of_contains fun p => contains_fillGaps_of_ok h⟩
  have hfilled := contains_fillGaps_of_ok h (SortedMap.mem_keys_iff.2 hassigned)
  obtain ⟨offset, hoffset⟩ := SortedMap.contains_iff.1 hfilled
  rcases startingOffset_of_fillGaps hoffset with hsame | ⟨-, hstart⟩
  · cases hnone.symm.trans hsame
  · have hstarts := startsAt_of_startingOffset hstart
    exact ⟨offset, hoffset, hstarts, hstarts.eq_zero⟩

theorem fillGaps_of_error {assignment : SortedSet Partition} {e : Failure}
    (h : (fillGaps cluster options assignment.keys positions).2 = .error e) :
    ∃ p, assignment.contains p = true ∧ positions.get? p = none ∧
      cluster.committedOffset? options.group p = none ∧
      (∀ q, assignment.contains q = true → q.Before p → positions.get? q = none →
        (cluster.committedOffset? options.group q).isSome = true ∧
          (fillGaps cluster options assignment.keys positions).1.get? q =
            cluster.committedOffset? options.group q) ∧
      ∀ q, ¬ q.Before p →
        (fillGaps cluster options assignment.keys positions).1.get? q = positions.get? q := by
  obtain ⟨-, before, p, after, hkeys, hp, hnone, hbefore, hget⟩ :=
    fillGaps_eq_error (Prod.ext rfl h)
  have huntracked {q : Partition} : positions.contains q = false ↔ positions.get? q = none := by
    simp [SortedMap.contains]
  have hassigned : assignment.contains p = true := by
    rw [← SortedMap.mem_keys_iff, hkeys]
    exact List.mem_append_right before (List.mem_cons_self ..)
  refine ⟨p, hassigned, huntracked.1 hp, hnone, fun q hq hlt hnew => ?_, fun q hlt => ?_⟩
  · have hmem := (Partition.mem_iff_before hkeys).2 ⟨hq, hlt⟩
    refine ⟨hbefore q hmem (huntracked.2 hnew), ?_⟩
    rw [hget, hnew, Option.none_or, if_pos hmem]
  · have hnot : q ∉ before := fun hmem => hlt ((Partition.mem_iff_before hkeys).1 hmem).2
    rw [hget, if_neg hnot, Option.or_none]

/-- Each gap is filled with the offset where its partition starts, and nothing else changes. Where a
reset policy is needed that is not known, this ends at the first gap without a committed offset. -/
theorem fillGaps_starts (cluster : Cluster) (options : Options) (assignment : SortedSet Partition)
    (positions : Positions) :
    let filled := (fillGaps cluster options assignment.keys positions).1
    let result := (fillGaps cluster options assignment.keys positions).2
    (result = .ok () ↔ (∃ policy, options.offsetReset = .ok policy) ∨
        ∀ p, assignment.contains p = true → positions.get? p = none →
          (cluster.committedOffset? options.group p).isSome = true) ∧
      (∀ p offset, positions.get? p = some offset → filled.get? p = some offset) ∧
      (∀ earlier p offset, Positions.seek earlier p offset (cluster.logLength p) = .ok positions →
        filled.get? p = some offset) ∧
      (∀ p, assignment.contains p = false → filled.get? p = positions.get? p) ∧
      (result = .ok () →
        (∀ p, assignment.contains p = true → positions.get? p = none →
          ∃ offset, filled.get? p = some offset ∧ StartsAt cluster options p offset ∧
            (¬ cluster.Has p → cluster.committedOffset? options.group p = none → offset = 0)) ∧
        fillGaps cluster options assignment.keys filled = (filled, .ok ())) ∧
      ∀ e, result = .error e →
        (∃ s, options.properties.get? ResetPolicy.setting = some s ∧ ResetPolicy.ofText? s = none ∧
          e = .configuration ResetPolicy.setting
            ("offset not available (unsupported policy '" ++ s ++ "')")) ∧
        ∃ p, assignment.contains p = true ∧ positions.get? p = none ∧
          cluster.committedOffset? options.group p = none ∧
          (∀ q, assignment.contains q = true → q.Before p → positions.get? q = none →
            (cluster.committedOffset? options.group q).isSome = true ∧
              filled.get? q = cluster.committedOffset? options.group q) ∧
          ∀ q, ¬ q.Before p → filled.get? q = positions.get? q := by
  intro filled result
  refine ⟨?_, fun p offset => get?_fillGaps_of_some, ?_, ?_, fillGaps_of_ok,
    fun e he => ⟨?_, fillGaps_of_error he⟩⟩
  · rw [fillGaps_eq_ok_iff]
    simp only [SortedMap.mem_keys_iff, SortedMap.contains, Option.isSome_eq_false_iff,
      Option.isNone_iff_eq_none]
  · intro earlier p offset hseek
    obtain ⟨-, rfl⟩ := seek_eq_ok_iff.1 hseek
    exact get?_fillGaps_of_some (SortedMap.get?_insert_self ..)
  · intro p hp
    rcases get?_fillGaps cluster options assignment.keys positions p with hsame | ⟨-, -, hmem⟩
    · exact hsame
    · cases hp.symm.trans (SortedMap.mem_keys_iff.1 hmem)
  · exact Options.offsetReset_eq_error (fillGaps_eq_error (Prod.ext rfl he)).1

end Positions

end LogConsumer
