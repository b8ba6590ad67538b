import LogConsumer.Positions

/-! A batch of records: what one poll reads, at most one record of each assigned partition. -/
namespace LogConsumer

/-- The records by partition; a partition may be in a batch without any. -/
abbrev Batch := SortedMap Partition (List Record)

namespace Batch

def records (b : Batch) : List Record := b.values.flatten

def count (b : Batch) : Nat := b.records.length

def recordsOf (b : Batch) (p : Partition) : List Record := (b.get? p).getD []

/-- The record to be read next of a partition, if it has a position that a record is at. -/
def next? (cluster : Cluster) (positions : Positions) (p : Partition) : Option Record :=
  (positions.get? p).bind (cluster.read? p)

/-- Reads the next records of the partitions in turn, and advances those it has read. It stops
after the record for which none of the `cap` is left, so that `cap + 1` may be read. -/
def collectFrom (cluster : Cluster) : Nat → List Partition → Batch → Positions → Batch × Positions
  | _, [], batch, positions => (batch, positions)
  | cap, p :: rest, batch, positions =>
    match next? cluster positions p with
    | none => collectFrom cluster cap rest batch positions
    | some r =>
      let batch := batch.insert p [r]
      let positions := positions.advance p
      match cap with
      | 0 => (batch, positions)
      | cap + 1 => collectFrom cluster cap rest batch positions

def collect (cluster : Cluster) (cap : Nat) (assignment : SortedSet Partition)
    (positions : Positions) : Batch × Positions :=
  collectFrom cluster cap assignment.keys (assignment.mapValues fun _ _ => []) positions

def isReady (cluster : Cluster) (positions : Positions) (p : Partition) : Bool :=
  (positions.get? p).any fun offset : Int => decide (0 ≤ offset ∧ offset < cluster.logLength p)

/-- The assigned partitions that have a record to be read, in their order. -/
def ready (cluster : Cluster) (assignment : SortedSet Partition) (positions : Positions) :
    List Partition := assignment.keys.filter (isReady cluster positions)

theorem isReady_eq (cluster : Cluster) (positions : Positions) (p : Partition) :
    isReady cluster positions p = (next? cluster positions p).isSome := by
  unfold isReady next?
  cases positions.get? p with
  | none => rfl
  | some offset =>
    rw [Option.any_some, Option.bind_some, Bool.eq_iff_iff, Cluster.read?_isSome_iff,
      decide_eq_true_eq]

theorem next?_advance_of_ne {cluster : Cluster} {positions : Positions} {p q : Partition}
    (h : p ≠ q) :
    next? cluster (positions.advance q) p = next? cluster positions p := by
  rw [next?, Positions.get?_advance, if_neg h, next?]

/-- The partitions in turn that are read from: the first that are ready, one more than the cap at
most. Each is read once and advanced. -/
theorem get?_collectFrom (cluster : Cluster) {ps : List Partition} (hps : ps.Nodup) (cap : Nat)
    (batch : Batch) (positions : Positions) (p : Partition) :
    (collectFrom cluster cap ps batch positions).1.get? p =
        (if p ∈ (ps.filter (isReady cluster positions)).take (cap + 1)
          then (next? cluster positions p).map ([·]) else batch.get? p) ∧
      (collectFrom cluster cap ps batch positions).2.get? p =
        if p ∈ (ps.filter (isReady cluster positions)).take (cap + 1)
          then (positions.get? p).map (· + 1) else positions.get? p := by
  induction ps generalizing cap batch positions with
  | nil => exact ⟨rfl, rfl⟩
  | cons q ps ih =>
    have ⟨hq, hps⟩ := List.nodup_cons.1 hps
    have hready := isReady_eq cluster positions q
    cases hnext : next? cluster positions q with
    | none =>
      rw [hnext] at hready
      rw [List.filter_cons_of_neg (by simp [hready])]
      simpa only [collectFrom, hnext] using ih hps cap batch positions
    | some r =>
      rw [hnext] at hready
      rw [List.filter_cons_of_pos hready, List.take_succ_cons]
      -- What is read of `q` changes nothing for those that follow.
      have hrest : ps.filter (isReady cluster (positions.advance q)) =
          ps.filter (isReady cluster positions) := by
        refine List.filter_congr fun p hp => ?_
        have hne : p ≠ q := fun e => hq (e ▸ hp)
        rw [isReady_eq, isReady_eq, next?_advance_of_ne hne]
      have hbatch (p : Partition) : (batch.insert q [r]).get? p =
          if p = q then (next? cluster positions p).map ([·]) else batch.get? p := by
        by_cases hp : p = q
        · rw [if_pos hp, hp, SortedMap.get?_insert_self, hnext, Option.map_some]
        · rw [if_neg hp, SortedMap.get?_insert_of_ne batch hp]
      have hpositions (p : Partition) : (positions.advance q).get? p =
          if p = q then (positions.get? p).map (· + 1) else positions.get? p := by
        rw [Positions.get?_advance]
        split
        next hp => rw [hp]
        next => rfl
      cases cap with
      | zero =>
        simp only [collectFrom, hnext, List.take_zero, List.mem_singleton]
        exact ⟨hbatch p, hpositions p⟩
      | succ cap =>
        have ⟨hbatch', hpositions'⟩ := ih hps cap (batch.insert q [r]) (positions.advance q)
        rw [hrest] at hbatch' hpositions'
        simp only [collectFrom, hnext, List.mem_cons]
        by_cases hp : p = q
        · have hnot : p ∉ (ps.filter (isReady cluster positions)).take (cap + 1) := fun hmem =>
            hq (hp ▸ (List.mem_filter.1 (List.mem_of_mem_take hmem)).1)
          rw [hbatch', hpositions', if_neg hnot, if_neg hnot, hbatch, hpositions]
          simp only [hp, true_or, if_true, and_self]
        · rw [hbatch', hpositions', next?_advance_of_ne hp, hbatch, hpositions]
          simp only [hp, false_or, if_false, and_self]

theorem get?_collect (cluster : Cluster) (cap : Nat) (assignment : SortedSet Partition)
    (positions : Positions) (p : Partition) :
    (collect cluster cap assignment positions).1.get? p =
        (if p ∈ (ready cluster assignment positions).take (cap + 1)
          then (next? cluster positions p).map ([·]) else (assignment.get? p).map fun _ => []) ∧
      (collect cluster cap assignment positions).2.get? p =
        if p ∈ (ready cluster assignment positions).take (cap + 1)
          then (positions.get? p).map (· + 1) else positions.get? p := by
  have hcollect := get?_collectFrom cluster assignment.nodup_keys cap
    (assignment.mapValues fun _ _ => []) positions p
  rwa [SortedMap.get?_mapValues] at hcollect

/-- One poll reads nothing of a partition, or, if it is assigned, the record at its position. -/
theorem collect_cases (cluster : Cluster) (cap : Nat) (assignment : SortedSet Partition)
    (positions : Positions) (p : Partition) :
    ((collect cluster cap assignment positions).1.recordsOf p = [] ∧
        (collect cluster cap assignment positions).2.get? p = positions.get? p) ∨
      ∃ offset r, assignment.contains p ∧ positions.get? p = some offset ∧
        cluster.read? p offset = some r ∧
        (collect cluster cap assignment positions).1.recordsOf p = [r] ∧
        (collect cluster cap assignment positions).2.get? p = some (offset + 1) := by
  have ⟨hbatch, hpositions⟩ := get?_collect cluster cap assignment positions p
  by_cases hdue : p ∈ (ready cluster assignment positions).take (cap + 1)
  · right
    rw [if_pos hdue] at hbatch hpositions
    obtain ⟨hassigned, hready⟩ := List.mem_filter.1 (List.mem_of_mem_take hdue)
    obtain ⟨r, hnext⟩ := Option.isSome_iff_exists.1 (isReady_eq cluster positions p ▸ hready)
    obtain ⟨offset, hoffset, hr⟩ := Option.bind_eq_some_iff.1 hnext
    refine ⟨offset, r, SortedMap.mem_keys_iff.1 hassigned, hoffset, hr, ?_, ?_⟩
    · rw [recordsOf, hbatch, hnext, Option.map_some, Option.getD_some]
    · rw [hpositions, hoffset, Option.map_some]
  · left
    rw [if_neg hdue] at hbatch hpositions
    refine ⟨?_, hpositions⟩
    rw [recordsOf, hbatch]
    cases assignment.get? p <;> rfl

theorem count_eq_zero_iff {b : Batch} : b.count = 0 ↔ ∀ p, b.recordsOf p = [] := by
  simp only [count, records, List.length_eq_zero_iff, List.flatten_eq_nil_iff]
  constructor
  · intro h p
    cases hp : b.get? p with
    | none => rw [recordsOf, hp, Option.getD_none]
    | some l =>
      have hmem : l ∈ b.values := List.mem_map.2 ⟨_, SortedMap.get?_eq_some_iff.1 hp, rfl⟩
      rw [recordsOf, hp, Option.getD_some, h l hmem]
  · intro h l hl
    obtain ⟨⟨p, l⟩, hmem, rfl⟩ := List.mem_map.1 hl
    have hp := h p
    rwa [recordsOf, SortedMap.get?_eq_some_iff.2 hmem, Option.getD_some] at hp

theorem next?_eq_none_of_collect {cluster : Cluster} {cap : Nat} {assignment : SortedSet Partition}
    {positions : Positions} (h : (collect cluster cap assignment positions).1.count = 0)
    {p : Partition} (hp : assignment.contains p = true) : next? cluster positions p = none := by
  cases hready : ready cluster assignment positions with
  | nil =>
    have hnot := List.filter_eq_nil_iff.1 hready p (SortedMap.mem_keys_iff.2 hp)
    rwa [isReady_eq, Option.not_isSome_iff_eq_none] at hnot
  | cons q rest =>
    -- The first that is ready has been read.
    have hbatch := (get?_collect cluster cap assignment positions q).1
    rw [hready, List.take_succ_cons, if_pos (List.mem_cons_self ..)] at hbatch
    have hmem : q ∈ ready cluster assignment positions := hready ▸ List.mem_cons_self ..
    have hq := (List.mem_filter.1 hmem).2
    obtain ⟨r, hnext⟩ := Option.isSome_iff_exists.1 (isReady_eq cluster positions q ▸ hq)
    have hempty := count_eq_zero_iff.1 h q
    rw [recordsOf, hbatch, hnext] at hempty
    cases hempty

theorem next?_congr {cluster cluster' : Cluster} (h : cluster'.topics = cluster.topics)
    (positions : Positions) (p : Partition) :
    next? cluster' positions p = next? cluster positions p := by
  simp only [next?, Cluster.read?_congr h]

theorem collectFrom_congr {cluster cluster' : Cluster} (h : cluster'.topics = cluster.topics)
    (cap : Nat) (ps : List Partition) (batch : Batch) (positions : Positions) :
    collectFrom cluster' cap ps batch positions = collectFrom cluster cap ps batch positions := by
  induction ps generalizing cap batch positions with
  | nil => rfl
  | cons p ps ih =>
    simp only [collectFrom, next?_congr h]
    cases next? cluster positions p with
    | none => exact ih ..
    | some r =>
      cases cap with
      | zero => rfl
      | succ cap => exact ih ..

theorem collect_congr {cluster cluster' : Cluster} (h : cluster'.topics = cluster.topics) (cap : Nat)
    (assignment : SortedSet Partition) (positions : Positions) :
    collect cluster' cap assignment positions = collect cluster cap assignment positions :=
  collectFrom_congr h ..

end Batch

end LogConsumer
