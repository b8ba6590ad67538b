import LogConsumer.Proofs.Counting

/-! Rebalances by reason. A counter stands for one way in which assignments are taken away, but for
the one of "assign", which stands for completed assignments too. Main statement:
`rebalances_counted`. -/
namespace LogConsumer

variable {ℓ κ : Type}

theorem Revocation.reason_injective : Function.Injective Revocation.reason := by
  intro r r' h
  cases r <;> cases r' <;> first | rfl | exact absurd h (by decide)

def Counters.OthersComeTo (c : Counters) (group : String) (n : Nat) : Prop :=
  ∃ reasons : Finset String, "assign" ∉ reasons ∧
    (∀ reason ∉ reasons, reason ≠ "assign" → c.total (.rebalances group reason) = 0) ∧
    ∑ reason ∈ reasons, c.total (.rebalances group reason) = n

namespace World

variable {w : World ℓ κ} {ms : List (Move ℓ κ)}

/-- The counter of "assign" stands for completed assignments alone, and all assignments that are
taken away are counted under other reasons. -/
def CountsApart (w : World ℓ κ) (ms : List (Move ℓ κ)) : Prop :=
  ∀ group,
    (w.run ms).counters.total (.rebalances group "assign") = (collect activated w ms).count group ∧
      (w.run ms).counters.OthersComeTo group ((collect revoked w ms).countP (·.1 = group))

theorem due_rebalances (w : World ℓ κ) (ms : List (Move ℓ κ)) (group : String) (r : Revocation) :
    w.due ms (.rebalances group r.reason) =
      (if r = .assign then (collect activated w ms).count group else 0) +
        (collect revoked w ms).count (group, r) := by
  have hassign : r.reason = "assign" ↔ r = .assign :=
    Revocation.reason_injective.eq_iff (b := .assign)
  have hcount : ((collect revoked w ms).countP fun e => e.1 = group && e.2.reason = r.reason) =
      (collect revoked w ms).count (group, r) := by
    refine List.countP_congr fun e _ => ?_
    simp [Prod.ext_iff, Revocation.reason_injective.eq_iff]
  simp only [due, hassign, hcount]

theorem due_rebalances_of_ne {reason : String} (h : ∀ r : Revocation, r.reason ≠ reason)
    (w : World ℓ κ) (ms : List (Move ℓ κ)) (group : String) :
    w.due ms (.rebalances group reason) = 0 := by
  have hassign : reason ≠ "assign" := (h .assign).symm
  simp [due, h, hassign]

theorem countP_revoked_of_ne (es : List (String × Revocation)) (group : String) :
    (es.countP fun e => e.1 = group && e.2 != .assign) =
      es.count (group, .subscribe) + es.count (group, .unsubscribe) + es.count (group, .expiry) := by
  induction es with
  | nil => rfl
  | cons e es ih =>
    obtain ⟨group', r⟩ := e
    by_cases h : group' = group
    · subst h
      cases r <;> simp [ih] <;> omega
    · simp [h, ih]

section Totals

variable (hzero : w.counters = .zero) (h : ∀ m ∈ ms, m.resets = false)
include hzero h

theorem total_assign (group : String) :
    (w.run ms).counters.total (.rebalances group "assign") =
      (collect activated w ms).count group + (collect revoked w ms).count (group, .assign) :=
  (total_run_of_zero hzero h _).trans (due_rebalances w ms group .assign)

theorem total_of_ne_assign (group : String) {r : Revocation} (hr : r ≠ .assign) :
    (w.run ms).counters.total (.rebalances group r.reason) =
      (collect revoked w ms).count (group, r) := by
  rw [total_run_of_zero hzero h, due_rebalances, if_neg hr, Nat.zero_add]

theorem othersComeTo_run (group : String) :
    (w.run ms).counters.OthersComeTo group
      ((collect revoked w ms).countP fun e => e.1 = group && e.2 != .assign) := by
  refine ⟨{"subscribe", "unsubscribe", "session_expired"}, by decide, fun reason hnot hne => ?_, ?_⟩
  · rw [total_run_of_zero hzero h]
    refine due_rebalances_of_ne ?_ w ms group
    rintro r rfl
    cases r with
    | assign => exact hne rfl
    | _ => exact hnot (by decide)
  · have hsubscribe := total_of_ne_assign hzero h group (r := .subscribe) nofun
    have hunsubscribe := total_of_ne_assign hzero h group (r := .unsubscribe) nofun
    have hexpiry := total_of_ne_assign hzero h group (r := .expiry) nofun
    rw [countP_revoked_of_ne, ← hsubscribe, ← hunsubscribe, ← hexpiry,
      Finset.sum_insert (by decide), Finset.sum_insert (by decide), Finset.sum_singleton,
      ← Nat.add_assoc]
    rfl

/-- The counter of "assign" comes to the assignments that were completed and those in whose place
another was put outright, any other counter to those taken away for its reason. -/
theorem rebalances_counted :
    (∀ group,
      (w.run ms).counters.total (.rebalances group "assign") =
          (collect activated w ms).count group + (collect revoked w ms).count (group, .assign) ∧
        (∀ r ≠ Revocation.assign, (w.run ms).counters.total (.rebalances group r.reason) =
          (collect revoked w ms).count (group, r)) ∧
        (w.run ms).counters.OthersComeTo group
          ((collect revoked w ms).countP fun e => e.1 = group && e.2 != .assign)) ∧
      (w.CountsApart ms ↔ ∀ group, (group, Revocation.assign) ∉ collect revoked w ms) := by
  refine ⟨fun group => ⟨total_assign hzero h group, fun r => total_of_ne_assign hzero h group,
    othersComeTo_run hzero h group⟩, fun hapart group => ?_, fun hnone group => ?_⟩
  · have hsame := (hapart group).1
    rw [total_assign hzero h] at hsame
    exact List.count_eq_zero.1 (by omega)
  · have hassign := total_assign hzero h group
    rw [List.count_eq_zero.2 (hnone group), Nat.add_zero] at hassign
    have hother : (collect revoked w ms).countP (·.1 = group) =
        (collect revoked w ms).countP fun e => e.1 = group && e.2 != .assign := by
      refine List.countP_congr fun e he => ?_
      have hne : e.1 = group → e.2 ≠ .assign := by
        rintro rfl hassigned
        exact hnone e.1 (hassigned ▸ he)
      simpa using hne
    exact ⟨hassign, hother ▸ othersComeTo_run hzero h group⟩

end Totals

def sampleReassign : List (Move Unit Unit) :=
  [.cluster (.createTopic "t" 1), .create .standard,
    .act 0 (.request (.configure ((Options.ofGroup "g").withOffsetReset "earliest"))),
    .act 0 (.request (.assign (.setOf [⟨"t", 0⟩]))), .act 0 (.request .poll),
    .act 0 (.request (.assign (.setOf [⟨"t", 0⟩]))), .act 0 (.request .poll),
    .act 0 (.request .unsubscribe)]

theorem rebalances_counted_sample :
    (initial : World Unit Unit).counters = .zero ∧ (∀ m ∈ sampleReassign, m.resets = false) ∧
      (initial.run sampleReassign).counters.total (.rebalances "g" "assign") = 3 ∧
      (initial.run sampleReassign).counters.total (.rebalances "g" "unsubscribe") = 1 := by
  have hresets : ∀ m ∈ sampleReassign, m.resets = false := by decide
  obtain ⟨hgroup, -⟩ := rebalances_counted (w := initial) rfl hresets
  obtain ⟨hassign, hother, -⟩ := hgroup "g"
  exact ⟨rfl, hresets, hassign.trans (by decide), (hother .unsubscribe nofun).trans (by decide)⟩

/-- An assignment that gives way to another is counted as if it had been completed. -/
theorem reassignment_counted_as_assign :
    (initial.run sampleReassign).counters.total (.rebalances "g" "assign") = 3 ∧
      (collect activated initial sampleReassign).count "g" = 2 ∧
      ((collect revoked initial sampleReassign).countP (·.1 = "g")) = 2 ∧
      ¬ initial.CountsApart sampleReassign := by
  have hassign : (initial.run sampleReassign).counters.total (.rebalances "g" "assign") = 3 := by
    decide
  have hactivated : (collect activated initial sampleReassign).count "g" = 2 := by decide
  refine ⟨hassign, hactivated, by decide, fun hapart => ?_⟩
  have hsame := (hapart "g").1
  rw [hassign, hactivated] at hsame
  exact absurd hsame (by decide)

end World

end LogConsumer
