import LogConsumer.Proofs.Events

/-! Coverage: positions and assignment of a consumer, in every state that can be reached. Main
statement: `positions_cover_assignment`. -/
namespace LogConsumer

variable {ℓ κ : Type}

namespace Consumer

variable {cluster : Cluster} {now : Time} {c : Consumer ℓ κ} {a : Act ℓ κ}

structure Covered (c : Consumer ℓ κ) : Prop where
  /-- An assignment that is not about to begin has all its positions. -/
  tracked : c.subscription.pending = false →
    ∀ p, c.subscription.assignment.contains p = true → c.positions.contains p = true
  expiring : c.guard.holder = some .expiring → c.subscription.pending = false
  fetching : c.guard.holder = some .fetching → c.subscription.pending = false

theorem covered_ofBehaviour (b : Behaviour) : (ofBehaviour b : Consumer ℓ κ).Covered where
  tracked _ _ h := nomatch h
  expiring := nofun
  fetching := nofun

theorem assignment_act_of_revokes (h : c.revokes cluster now a = true)
    (hactive : (c.act cluster now a).subscription.pending = false) :
    (c.act cluster now a).subscription.assignment = .empty := by
  rcases part?_of_revokes h with ⟨change, hq⟩ | hq
  · rw [act_of_part? hq, perform_change] at hactive ⊢
    cases change with
    | unsubscribe => rfl
    | _ => cases hactive
  · rw [act_of_part? hq]
    rfl

theorem Covered.tracked_act (h : c.Covered)
    (hactive : (c.act cluster now a).subscription.pending = false) {p : Partition}
    (hp : (c.act cluster now a).subscription.assignment.contains p = true) :
    (c.act cluster now a).positions.contains p = true := by
  cases hrev : c.revokes cluster now a with
  | true =>
    rw [assignment_act_of_revokes hrev hactive] at hp
    cases hp
  | false =>
    obtain ⟨paused, pending, heq, hpending | hactivates⟩ := subscription_act hrev
    · rw [heq] at hactive hp
      have hold : c.positions.contains p = true :=
        h.tracked (hpending.symm.trans hactive) p hp
      rcases get?_positions_act hrev p with hsame | ⟨hnew, -⟩
      · rwa [SortedMap.contains, hsame]
      · exact hnew
    · exact contains_positions_of_activates hactivates hp

theorem Covered.pending_act (h : c.Covered)
    (hholder : (c.act cluster now a).guard.holder = some .expiring ∨
      (c.act cluster now a).guard.holder = some .fetching) :
    (c.act cluster now a).subscription.pending = false := by
  cases hq : c.part? cluster now a with
  | none =>
    obtain ⟨guard, _, _, _, heq, hguard⟩ := undergo_eq cluster now c a
    rw [act_of_part?_none hq, heq] at hholder ⊢
    rcases hguard with rfl | ⟨-, -, rfl⟩
    · exact hholder.elim h.expiring h.fetching
    · rcases hholder with h | h <;> cases h
  | some q =>
    rw [act_of_part? hq] at hholder ⊢
    have hlast : q.isLast ≠ true := by
      intro hlast
      rw [guard_perform_of_isLast hlast] at hholder
      rcases hholder with h | h <;> cases h
    cases carries_of_part? hq with
    | refused | closedAgain => exact hholder.elim h.expiring h.fetching
    | toldOfChange | toldOfAssignment => rcases hholder with h | h <;> cases h
    | toldOfExpiry _ hpending | expired _ hpending | awaited _ hpending => exact hpending
    | changed | activated => exact absurd rfl hlast
    | @served r =>
      rw [perform_serve] at hholder
      rcases serve_cases cluster now c r with ⟨_, _, _, _, _, _, heq, -⟩ | ⟨_, heq⟩
      all_goals
        rw [heq] at hholder
        rcases hholder with h | h <;> cases h
    | @proceeded activity _ hheld hnext =>
      subst hnext
      cases activity with
      | expiring => exact h.expiring hheld
      | _ => exact absurd rfl hlast

theorem Covered.act (h : c.Covered) : (c.act cluster now a).Covered where
  tracked hactive _ hp := h.tracked_act hactive hp
  expiring hholder := h.pending_act (.inl hholder)
  fetching hholder := h.pending_act (.inr hholder)

/-- A position outside the assignment was there before, or is set on request. -/
theorem stray_act {p : Partition} (hp : (c.act cluster now a).positions.contains p = true)
    (hout : (c.act cluster now a).subscription.assignment.contains p = false) :
    c.seeks p cluster now a = true ∨
      c.revokes cluster now a = false ∧ c.positions.contains p = true ∧
        c.subscription.assignment.contains p = false := by
  cases hrev : c.revokes cluster now a with
  | true =>
    rw [positions_act_of_revokes hrev] at hp
    cases hp
  | false =>
    obtain ⟨paused, pending, heq, -⟩ := subscription_act hrev
    rw [heq] at hout
    rcases get?_positions_act hrev p with hsame | ⟨-, hassigned | hseek⟩
    · exact .inr ⟨rfl, by rwa [SortedMap.contains, ← hsame], hout⟩
    · cases hassigned.symm.trans hout
    · exact .inl hseek

theorem Covered.pending_of_batch (h : c.Covered) {batch : Batch}
    (hbatch : (c.outcome cluster now a).batch? = some batch) :
    (c.act cluster now a).subscription.pending = false := by
  cases hq : c.part? cluster now a with
  | none =>
    rcases outcome_of_part?_none hq with h | ⟨e, -, -, h⟩
    all_goals
      rw [h] at hbatch
      cases hbatch
  | some q =>
    rw [outcome_of_part? hq] at hbatch
    rw [act_of_part? hq]
    cases q with
    | activate =>
      obtain ⟨positions, result, -, ⟨-, heq⟩ | ⟨e, -, heq⟩⟩ := perform_activate_cases cluster now c
      · exact congrArg (·.consumer.subscription.pending) heq
      · rw [heq] at hbatch
        cases hbatch
    | fetch =>
      have hpending : c.subscription.pending = false := by
        cases carries_of_part? hq with
        | @proceeded activity _ hheld hnext =>
          cases activity with
          | fetching => exact h.fetching hheld
          | _ => cases hnext
      rcases perform_fetch_cases cluster now c with ⟨_, _, -, heq⟩ | ⟨_, _, -, -, heq⟩
      all_goals
        rw [heq]
        exact hpending
    | serve r =>
      rw [perform_serve] at hbatch
      rcases serve_cases cluster now c r with ⟨_, _, _, _, _, _, heq, hnone⟩ | ⟨_, heq⟩
      · rw [heq, hnone] at hbatch
        cases hbatch
      · rw [heq] at hbatch
        cases hbatch
    | change change =>
      rw [perform_change] at hbatch
      cases hbatch
    | _ => cases hbatch

end Consumer

namespace World

variable {id : ConsumerId} {p : Partition}

def SeeksAssigned (id : ConsumerId) (w : World ℓ κ) (m : Move ℓ κ) : Prop :=
  ∀ p ∈ m.targets id, w.seeks id p m = true → w.assigns id p = true

instance (id : ConsumerId) (w : World ℓ κ) (m : Move ℓ κ) : Decidable (w.SeeksAssigned id m) :=
  inferInstanceAs (Decidable (∀ p ∈ _, _ → _))

theorem mem_targets_of_seeks {w : World ℓ κ} {m : Move ℓ κ} (h : w.seeks id p m = true) :
    p ∈ m.targets id := by
  obtain ⟨c, a, -, rfl, hseek⟩ := any_acted?_iff.1 h
  cases a with
  | request r =>
    simp only [Consumer.seeks, Bool.and_eq_true, decide_eq_true_eq] at hseek
    simpa [Move.targets, Move.act?] using hseek.1
  | _ => cases hseek

theorem revokes_eq_false_of_seeks {w : World ℓ κ} {m : Move ℓ κ} (h : w.seeks id p m = true) :
    w.revokes id m = false := by
  obtain ⟨⟨c, a⟩, hacted, hseek⟩ := (Option.any_eq_true ..).1 h
  simpa [revokes, hacted] using Consumer.revokes_eq_false_of_seeks hseek

theorem assigns_after {w : World ℓ κ} {m : Move ℓ κ} (h : w.assigns id p = true)
    (hm : w.revokes id m = false) : (w.after m).assigns id p = true := by
  obtain ⟨c, hc, hassigned⟩ := (Option.any_eq_true ..).1 h
  rcases acted?_cases hc m with ⟨a, -, hacted, hafter⟩ | ⟨-, hafter⟩
  · have hrev : c.revokes w.cluster w.clock a = false := by simpa [revokes, hacted] using hm
    obtain ⟨paused, pending, heq, -⟩ := Consumer.subscription_act hrev
    simpa [assigns, hafter, heq] using hassigned
  · simpa [assigns, hafter] using hassigned

/-- A run in which the position in a partition has been set on request, and the assignment has not
been taken away since. -/
def SoughtSince (id : ConsumerId) (p : Partition) (w : World ℓ κ) (ms : List (Move ℓ κ)) : Prop :=
  ∃ ms₁ m ms₂, ms = ms₁ ++ m :: ms₂ ∧ (w.run ms₁).seeks id p m = true ∧
    ((w.run ms₁).after m).Throughout (fun w m => w.revokes id m = false) ms₂

theorem SoughtSince.append_singleton {w : World ℓ κ} {ms : List (Move ℓ κ)} {m : Move ℓ κ}
    (h : w.SoughtSince id p ms) (hm : (w.run ms).revokes id m = false) :
    w.SoughtSince id p (ms ++ [m]) := by
  obtain ⟨ms₁, m', ms₂, rfl, hseek, hkept⟩ := h
  refine ⟨ms₁, m', ms₂ ++ [m], by simp, hseek, throughout_append.2 ⟨hkept, ?_, trivial⟩⟩
  simpa using hm

/-- A position outside the assignment has been set on request since the last revocation. -/
theorem soughtSince_of_stray (ms : List (Move ℓ κ)) {c : Consumer ℓ κ}
    (h : (initial.run ms).consumer? id = some c) (hp : c.positions.contains p = true)
    (hout : c.subscription.assignment.contains p = false) : initial.SoughtSince id p ms := by
  induction ms using List.reverseRecOn generalizing c with
  | nil => simp [initial, consumer?] at h
  | append_singleton ms m ih =>
    rw [run_append] at h
    rcases consumer?_after_cases h with ⟨-, b, -, rfl⟩ | ⟨c₀, h₀, ⟨a, rfl, rfl⟩ | ⟨hm, rfl⟩⟩
    · cases hp
    · have hacted := acted?_act h₀ a
      rcases Consumer.stray_act hp hout with hseek | ⟨hrev, hp₀, hout₀⟩
      · have hsought : (initial.run ms).seeks id p (.act id a) = true := by
          simpa [seeks, hacted] using hseek
        exact ⟨ms, _, [], rfl, hsought, trivial⟩
      · have hkept : (initial.run ms).revokes id (.act id a) = false := by
          simpa [revokes, hacted] using hrev
        exact (ih h₀ hp₀ hout₀).append_singleton hkept
    · have hkept : (initial.run ms).revokes id m = false := by
        simp [revokes, acted?_eq_none hm]
      exact (ih h₀ hp hout).append_singleton hkept

theorem assigns_of_soughtSince {w : World ℓ κ} {ms : List (Move ℓ κ)} (h : w.SoughtSince id p ms)
    (hms : w.Throughout (SeeksAssigned id) ms) : (w.run ms).assigns id p = true := by
  obtain ⟨ms₁, m, ms₂, rfl, hseek, hkept⟩ := h
  obtain ⟨-, hm, -⟩ := throughout_append.1 hms
  have hassigned := hm p (mem_targets_of_seeks hseek) hseek
  have hafter := assigns_after hassigned (revokes_eq_false_of_seeks hseek)
  rw [run_append, run_cons]
  exact run_induction (I := fun w => w.assigns id p = true) (fun _ _ => assigns_after) hafter hkept

theorem pending_of_polls {ms : List (Move ℓ κ)} {m : Move ℓ κ} {c : Consumer ℓ κ}
    (h : (initial.run (ms ++ [m])).consumer? id = some c)
    (hpolls : (initial.run ms).polls id m = true) : c.subscription.pending = false := by
  obtain ⟨hacted, hbatch⟩ := Bool.and_eq_true_iff.1 hpolls
  obtain ⟨⟨c₀, a⟩, hacted⟩ := Option.isSome_iff_exists.1 hacted
  obtain ⟨h₀, rfl⟩ := acted?_eq_some_iff.1 hacted
  obtain ⟨batch, hbatch⟩ := Option.isSome_iff_exists.1 hbatch
  have hcovered := consumer_invariant Consumer.covered_ofBehaviour (fun _ _ _ _ h => h.act) ms h₀
  rw [outcome_act h₀] at hbatch
  rw [run_append, run_cons, run_nil, consumer?_after_act h₀] at h
  cases h
  exact hcovered.pending_of_batch hbatch

/-- Unless its assignment is about to begin, a consumer has positions in all assigned partitions.
Those in other partitions were set on request after the last revocation. -/
theorem positions_cover_assignment (ms : List (Move ℓ κ)) {c : Consumer ℓ κ}
    (h : (initial.run ms).consumer? id = some c) :
    (c.subscription.pending = false →
        ∀ p, c.subscription.assignment.contains p = true → c.positions.contains p = true) ∧
      (∀ p, c.positions.contains p = true → c.subscription.assignment.contains p = false →
        initial.SoughtSince id p ms) ∧
      (initial.Throughout (SeeksAssigned id) ms →
        ∀ ms₀ m, ms = ms₀ ++ [m] → (initial.run ms₀).polls id m = true →
          c.positions.keys = c.subscription.assignment.keys) := by
  have hcovered := consumer_invariant Consumer.covered_ofBehaviour (fun _ _ _ _ h => h.act) ms h
  refine ⟨hcovered.tracked, fun p hp hout => soughtSince_of_stray ms h hp hout, ?_⟩
  rintro hseeks ms₀ m rfl hpolls
  have hactive := pending_of_polls h hpolls
  refine SortedMap.keys_eq_of_contains fun p => ⟨fun hp => ?_, hcovered.tracked hactive p⟩
  by_contra hout
  have hsought := soughtSince_of_stray _ h hp (Bool.eq_false_iff.2 hout)
  have hassigned := assigns_of_soughtSince hsought hseeks
  rw [assigns, h] at hassigned
  exact hout hassigned

/-- A listener panics at first, and an assigned partition is sought before the last poll. -/
def sampleCoverage : List (Move Unit Unit) :=
  [.cluster (.createTopic "t" 2), .create .standard,
    .act 0 (.request (.subscribe (.setOf ["t"]) (some ()))), .act 0 (.request .poll),
    .act 0 .abandon, .act 0 (.request .poll), .act 0 .proceed,
    .act 0 (.request (.seek ⟨"t", 1⟩ 0)), .act 0 (.request .poll)]

theorem positions_cover_sample :
    initial.Throughout (SeeksAssigned 0) (sampleCoverage ++ [.act 0 .proceed]) ∧
      (initial.run sampleCoverage).polls 0 (.act 0 .proceed) = true ∧
      ∃ c, (initial.run (sampleCoverage ++ [.act 0 .proceed])).consumer? 0 = some c ∧
        c.positions.keys = c.subscription.assignment.keys := by
  have hseeks : initial.Throughout (SeeksAssigned 0) (sampleCoverage ++ [.act 0 .proceed]) := by
    decide
  have hpolls : (initial.run sampleCoverage).polls 0 (.act 0 .proceed) = true := by decide
  have hsome : ((initial.run (sampleCoverage ++ [.act 0 .proceed])).consumer? 0).isSome = true := by
    decide
  obtain ⟨c, hc⟩ := Option.isSome_iff_exists.1 hsome
  exact ⟨hseeks, hpolls, c, hc, (positions_cover_assignment _ hc).2.2 hseeks _ _ rfl hpolls⟩

end World

end LogConsumer
