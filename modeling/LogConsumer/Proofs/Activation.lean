import LogConsumer.Proofs.Delivery
import LogConsumer.Proofs.Rebalance

/-! Activations that fail for want of a reset policy. What they have done by then stays: later
options do not change where such a partition starts. Main statement:
`starts_kept_by_failed_activation`. -/
namespace LogConsumer

variable {ℓ κ : Type}

namespace Consumer

variable {cluster : Cluster} {now : Time} {c : Consumer ℓ κ} {a : Act ℓ κ}

/-- The assigned partitions that have no position, in the order in which an activation gives them
one. -/
def gaps (c : Consumer ℓ κ) : List Partition :=
  c.subscription.assignment.keys.filter fun p => !c.positions.contains p

theorem get?_of_mem_gaps {p : Partition} (h : p ∈ c.gaps) : c.positions.get? p = none := by
  have hp := (List.mem_filter.1 h).2
  simpa [SortedMap.contains] using hp

/-- An activation fails at the first gap without a committed offset, and has filled those before. -/
theorem act_of_failed_activation {e : Failure} (hq : c.part? cluster now a = some .activate)
    (hfail : c.outcome cluster now a = .progress (.answered (.error e))) :
    c.options.offsetReset = .error e ∧ ∃ before p after positions,
      c.gaps = before ++ p :: after ∧
      (∀ q ∈ before, ∃ offset, cluster.committedOffset? c.options.group q = some offset ∧
        positions.get? q = some offset) ∧
      cluster.committedOffset? c.options.group p = none ∧
      (∀ q, q ∉ before → positions.get? q = c.positions.get? q) ∧
      c.perform cluster now .activate =
        ⟨{ c with guard := .free, positions }, .answered (.error e), []⟩ := by
  rw [outcome_of_part? hq] at hfail
  obtain ⟨positions, result, hfill, ⟨-, heq⟩ | ⟨e', rfl, heq⟩⟩ :=
    perform_activate_cases cluster now c
  · rw [heq] at hfail
    cases hfail
  · rw [heq] at hfail
    cases hfail
    obtain ⟨he, before, p, after, hkeys, hp, hnone, hbefore, hget⟩ := Positions.fillGaps_eq_error hfill
    have hgap {q : Partition} : q ∈ before.filter (fun q => !c.positions.contains q) ↔
        q ∈ before ∧ c.positions.contains q = false := by simp
    refine ⟨he, before.filter fun q => !c.positions.contains q, p,
      after.filter fun q => !c.positions.contains q, positions, ?_, ?_, hnone, ?_, heq⟩
    · rw [gaps, hkeys, List.filter_append, List.filter_cons_of_pos (by simp [hp])]
    · intro q hq
      obtain ⟨hmem, hnew⟩ := hgap.1 hq
      obtain ⟨offset, hoffset⟩ := Option.isSome_iff_exists.1 (hbefore q hmem hnew)
      have hnone' : c.positions.get? q = none := by simpa [SortedMap.contains] using hnew
      exact ⟨offset, hoffset, by rw [hget, hnone', if_pos hmem, Option.none_or, hoffset]⟩
    · intro q hq
      rw [hget]
      cases hq' : c.positions.get? q with
      | some offset => rfl
      | none =>
        have hmem : q ∉ before := fun hmem => hq (hgap.2 ⟨hmem, by simp [SortedMap.contains, hq']⟩)
        rw [if_neg hmem, Option.none_or]

end Consumer

namespace World

variable {w : World ℓ κ} {id : ConsumerId} {m : Move ℓ κ}

/-- An activation fails at the first gap without a committed offset. The gaps before it are filled
then, and stay so while the assignment lasts. -/
theorem starts_kept_by_failed_activation {e : Failure} (hm : w.part? id m = some .activate)
    (hfail : w.outcome m = .progress (.answered (.error e))) :
    ∃ c, w.consumer? id = some c ∧
      (∃ s, c.options.properties.get? ResetPolicy.setting = some s ∧ ResetPolicy.ofText? s = none ∧
        e = .configuration ResetPolicy.setting
          ("offset not available (unsupported policy '" ++ s ++ "')")) ∧
      ∃ before p after, c.gaps = before ++ p :: after ∧
        w.cluster.committedOffset? c.options.group p = none ∧
        (∀ q, q ∉ before → (w.after m).position? id q = w.position? id q) ∧
        (w.after m = w.abandon id ↔ before = []) ∧
        ∀ q ∈ before, w.position? id q = none ∧
          ∃ offset, w.cluster.committedOffset? c.options.group q = some offset ∧
            ∀ ms, (w.after m).Throughout (Undisturbed id q) ms →
              ((w.after m).run ms).position? id q =
                some (offset + ((w.after m).delivered id q ms).length) := by
  obtain ⟨⟨c, a⟩, hacted, hq⟩ := Option.bind_eq_some_iff.1 hm
  obtain ⟨hc, rfl⟩ := acted?_eq_some_iff.1 hacted
  rw [outcome_act hc] at hfail
  obtain ⟨he, before, p, after, positions, hgaps, hbefore, hnone, hother, heq⟩ :=
    Consumer.act_of_failed_activation hq hfail
  have hworld : w.after (.act id a) = w.setConsumer id { c with guard := .free, positions } := by
    rw [after_of_part? hc hq, heq]
    rfl
  have habandon : w.abandon id = w.setConsumer id { c with guard := .free } :=
    modifyConsumer_eq hc _
  have hposition (q : Partition) : (w.after (.act id a)).position? id q = positions.get? q := by
    rw [hworld, position?, consumer?_setConsumer_self hc]
    rfl
  have hposition₀ (q : Partition) : w.position? id q = c.positions.get? q := by
    rw [position?, hc]
    rfl
  have hgap {q : Partition} (hmem : q ∈ before) : c.positions.get? q = none :=
    Consumer.get?_of_mem_gaps (hgaps ▸ List.mem_append_left _ hmem)
  refine ⟨c, hc, Options.offsetReset_eq_error he, before, p, after, hgaps, hnone, ?_, ⟨?_, ?_⟩, ?_⟩
  · intro q hmem
    rw [hposition, hposition₀, hother q hmem]
  · -- A partition before would have a position in one world and none in the other.
    intro hsame
    refine List.eq_nil_iff_forall_not_mem.2 fun q hmem => ?_
    obtain ⟨offset, -, hoffset⟩ := hbefore q hmem
    have hkept : (w.abandon id).position? id q = none := by
      rw [habandon, position?, consumer?_setConsumer_self hc]
      exact hgap hmem
    rw [← hsame, hposition, hoffset] at hkept
    cases hkept
  · rintro rfl
    have hpositions : positions = c.positions :=
      SortedMap.ext_get? fun q => hother q List.not_mem_nil
    rw [hworld, habandon, hpositions]
  · intro q hmem
    obtain ⟨offset, hcommitted, hoffset⟩ := hbefore q hmem
    refine ⟨(hposition₀ q).trans (hgap hmem), offset, hcommitted, fun ms hms => ?_⟩
    exact (delivered_run ((hposition q).trans hoffset) hms).2

/-- A consumer without a reset policy that is known has been assigned two partitions; the group
has committed an offset of the first. -/
def sampleGap : World Unit Unit :=
  initial.run
    [.cluster (.createTopic "t" 2), .cluster (.appendMany ⟨"t", 0⟩ 3),
      .cluster (.commit "g" ⟨"t", 0⟩ 2), .create .standard,
      .act 0 (.request (.configure ((Options.ofGroup "g").withOffsetReset "none"))),
      .act 0 (.request (.assign (.setOf [⟨"t", 0⟩, ⟨"t", 1⟩])))]

/-- Another group, whose reset policy is known, and the poll that completes the assignment. -/
def sampleRetry : List (Move Unit Unit) :=
  [.act 0 (.request (.configure ((Options.ofGroup "h").withOffsetReset "earliest"))),
    .act 0 (.request .poll)]

theorem starts_kept_sample :
    sampleGap.part? 0 (.act 0 (.request .poll)) = some .activate ∧
      (∃ e, e.kind = "Configuration" ∧
        sampleGap.outcome (.act 0 (.request .poll)) = .progress (.answered (.error e))) ∧
      ((sampleGap.after (.act 0 (.request .poll))).run sampleRetry).position? 0 ⟨"t", 0⟩ =
        some 2 := by
  have hm : sampleGap.part? 0 (.act 0 (.request .poll)) = some .activate := rfl
  have hfail : sampleGap.outcome (.act 0 (.request .poll)) = .progress (.answered (.error _)) := rfl
  refine ⟨hm, ⟨_, rfl, hfail⟩, ?_⟩
  obtain ⟨c, hc, -, before, p, after, -, -, hother, -, hkept⟩ :=
    starts_kept_by_failed_activation hm hfail
  have hmem : ⟨"t", 0⟩ ∈ before := by
    refine Decidable.byContradiction fun hmem => ?_
    have hsame := hother ⟨"t", 0⟩ hmem
    revert hsame
    decide
  obtain ⟨-, offset, hoffset, hstart⟩ := hkept _ hmem
  have hms : (sampleGap.after (.act 0 (.request .poll))).Throughout (Undisturbed 0 ⟨"t", 0⟩)
      sampleRetry := by decide
  have hnone : ((sampleGap.after (.act 0 (.request .poll))).delivered 0 ⟨"t", 0⟩
      sampleRetry).length = 0 := by decide
  cases hc
  cases hoffset
  have hposition := hstart sampleRetry hms
  rw [hnone] at hposition
  exact hposition

/-- Where the first partition starts in the end depends on whether the poll that fails is made. -/
theorem failed_activation_leaves_trace :
    (sampleGap.after (.act 0 (.request .poll))).position? 0 ⟨"t", 0⟩ = some 2 ∧
      sampleGap.position? 0 ⟨"t", 0⟩ = none ∧
      ((sampleGap.after (.act 0 (.request .poll))).run sampleRetry).position? 0 ⟨"t", 0⟩ = some 2 ∧
      (sampleGap.run sampleRetry).position? 0 ⟨"t", 0⟩ = some 0 := by
  decide

end World

end LogConsumer
