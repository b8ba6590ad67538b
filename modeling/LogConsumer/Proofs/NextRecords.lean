import LogConsumer.Proofs.ByteOrder
import LogConsumer.Proofs.Topology

/-! Which records a poll reads: those at the positions of the first assigned partitions that have
one there, in the order of partitions, and one more of them than the cap at most. Main statement:
`collect_reads_first`. -/
namespace LogConsumer

namespace Batch

variable {cluster : Cluster} {positions : Positions} {p : Partition}

theorem next?_of_isReady (h : isReady cluster positions p = true) :
    ∃ (offset : Nat) (r : Record), positions.get? p = some (offset : Int) ∧
      (cluster.records p)[offset]? = some r ∧ next? cluster positions p = some r := by
  rw [isReady_eq, Option.isSome_iff_exists] at h
  obtain ⟨r, hr⟩ := h
  obtain ⟨offset, hoffset, hread⟩ := Option.bind_eq_some_iff.1 hr
  obtain ⟨hnonneg, hrecord⟩ := Cluster.read?_eq_some_iff.1 hread
  exact ⟨offset.toNat, r, by rw [hoffset, Int.toNat_of_nonneg hnonneg], hrecord, hr⟩

theorem mem_ready_iff {assignment : SortedSet Partition} :
    p ∈ ready cluster assignment positions ↔ assignment.contains p = true ∧
      ∃ offset, positions.get? p = some offset ∧ 0 ≤ offset ∧ offset < cluster.logLength p := by
  rw [ready, List.mem_filter, SortedMap.mem_keys_iff, isReady, Option.any_eq_true]
  simp only [decide_eq_true_eq]

theorem pairwise_ready (cluster : Cluster) (assignment : SortedSet Partition)
    (positions : Positions) :
    (ready cluster assignment positions).Pairwise Partition.Before :=
  (Partition.pairwise_keys assignment).filter _

theorem keys_collect (cluster : Cluster) (cap : Nat) (assignment : SortedSet Partition)
    (positions : Positions) :
    (collect cluster cap assignment positions).1.keys = assignment.keys := by
  refine SortedMap.keys_eq_of_contains fun p => ?_
  rw [SortedMap.contains, (get?_collect ..).1]
  split
  next hdue =>
    have hready := List.mem_of_mem_take hdue
    obtain ⟨_, r, -, -, hnext⟩ := next?_of_isReady (List.mem_filter.1 hready).2
    simp [hnext, (mem_ready_iff.1 hready).1]
  next => simp [SortedMap.contains]

/-- A batch has all assigned partitions, and the next record of each of the first that are ready,
one more of them than the cap at most. -/
theorem collect_reads_first (cluster : Cluster) (cap : Nat) (assignment : SortedSet Partition)
    (positions : Positions) :
    let found := ready cluster assignment positions
    let due := found.take (cap + 1)
    let batch := (collect cluster cap assignment positions).1
    let advanced := (collect cluster cap assignment positions).2
    (∀ p, p ∈ found ↔ assignment.contains p = true ∧
        ∃ offset, positions.get? p = some offset ∧ 0 ≤ offset ∧ offset < cluster.logLength p) ∧
      found.Pairwise Partition.Before ∧
      due.length = min (cap + 1) found.length ∧
      batch.keys = assignment.keys ∧
      (∀ p ∈ due, ∃ (offset : Nat) (r : Record), positions.get? p = some (offset : Int) ∧
        (cluster.records p)[offset]? = some r ∧ batch.recordsOf p = [r] ∧
        advanced.get? p = some (offset + 1 : Int)) ∧
      ∀ p, p ∉ due → batch.recordsOf p = [] ∧ advanced.get? p = positions.get? p := by
  intro found due batch advanced
  refine ⟨fun p => mem_ready_iff, pairwise_ready .., List.length_take, keys_collect .., ?_, ?_⟩
  · intro p hdue
    have hready := (List.mem_filter.1 (List.mem_of_mem_take hdue)).2
    obtain ⟨offset, r, hoffset, hrecord, hnext⟩ := next?_of_isReady hready
    have ⟨hbatch, hadvanced⟩ := get?_collect cluster cap assignment positions p
    rw [if_pos hdue] at hbatch hadvanced
    refine ⟨offset, r, hoffset, hrecord, ?_, ?_⟩
    · rw [recordsOf, hbatch, hnext, Option.map_some, Option.getD_some]
    · rw [hadvanced, hoffset, Option.map_some]
  · intro p hdue
    have ⟨hbatch, hadvanced⟩ := get?_collect cluster cap assignment positions p
    rw [if_neg hdue] at hbatch hadvanced
    refine ⟨?_, hadvanced⟩
    rw [recordsOf, hbatch]
    cases assignment.get? p <;> rfl

end Batch

end LogConsumer
