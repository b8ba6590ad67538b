import LogConsumer.Proofs.Events

/-! Delivery: between an activation and the next revocation the polls of a consumer return the
entries of an assigned partition one by one, from its position on. Main statement:
`delivered_eq_log`. -/
namespace LogConsumer

variable {ℓ κ : Type}

namespace Consumer

variable {cluster : Cluster} {now : Time} {c : Consumer ℓ κ} {a : Act ℓ κ}

/-- No assignment is about to begin. -/
structure Settled (c : Consumer ℓ κ) : Prop where
  active : c.subscription.pending = false
  idle : c.guard.holder ≠ some .activating

theorem settled_of_activates (h : c.activates cluster now a = true) :
    (c.act cluster now a).Settled := by
  obtain ⟨positions, -, heq⟩ := act_of_activates h
  rw [heq]
  exact ⟨rfl, by simp [Guard.free]⟩

theorem Settled.act (h : c.Settled) (hrev : c.revokes cluster now a = false) :
    (c.act cluster now a).Settled := by
  refine ⟨pending_act (changes_of_revokes_false hrev) h.active, ?_⟩
  cases hq : c.part? cluster now a with
  | none =>
    obtain ⟨guard, _, _, _, heq, hguard⟩ := undergo_eq cluster now c a
    rw [act_of_part?_none hq, heq]
    rcases hguard with rfl | ⟨-, -, rfl⟩
    · exact h.idle
    · nofun
  | some q =>
    rw [act_of_part? hq]
    by_cases hlast : q.isLast = true
    · rw [guard_perform_of_isLast hlast]
      nofun
    · cases carries_of_part? hq with
      | refused | closedAgain => exact h.idle
      | toldOfChange | toldOfExpiry | awaited | expired => nofun
      | changed | activated => exact absurd rfl hlast
      | toldOfAssignment _ hpending => cases h.active.symm.trans hpending
      | @served r =>
        rw [perform_serve]
        rcases serve_cases cluster now c r with ⟨_, _, _, _, _, _, heq, -⟩ | ⟨_, heq⟩
        all_goals rw [heq]; nofun
      | @proceeded activity _ _ hnext =>
        subst hnext
        cases activity with
        | expiring => nofun
        | _ => exact absurd rfl hlast

/-- Unless it revokes or seeks, an act returns nothing of a partition, or the record at its
position, which then grows by one. -/
theorem recordsOf_act {p : Partition} {offset : Int} (hoffset : c.positions.get? p = some offset)
    (hrev : c.revokes cluster now a = false) (hseek : c.seeks p cluster now a = false) :
    ((c.outcome cluster now a).recordsOf p = [] ∧
        (c.act cluster now a).positions.get? p = some offset) ∨
      ∃ r, cluster.read? p offset = some r ∧ (c.outcome cluster now a).recordsOf p = [r] ∧
        (c.act cluster now a).positions.get? p = some (offset + 1) := by
  cases hq : c.part? cluster now a with
  | none =>
    obtain ⟨_, _, _, _, heq, -⟩ := undergo_eq cluster now c a
    rw [act_of_part?_none hq, heq]
    refine .inl ⟨?_, hoffset⟩
    rcases outcome_of_part?_none hq with h | ⟨e, -, -, h⟩
    all_goals rw [h]; rfl
  | some q =>
    have hrev := isRevocation_of_revokes_false hrev hq
    rw [outcome_of_part? hq, act_of_part? hq]
    cases q with
    | change | expire => cases hrev
    | activate =>
      rcases get?_activate cluster now c p with hsame | ⟨hnone, -⟩
      · obtain ⟨_, _, -, ⟨-, heq⟩ | ⟨_, -, heq⟩⟩ := perform_activate_cases cluster now c
        all_goals exact .inl ⟨by rw [heq]; rfl, hsame.trans hoffset⟩
      · cases hoffset.symm.trans hnone
    | fetch =>
      rcases recordsOf_fetch cluster now c p with
        ⟨hnone, hsame⟩ | ⟨offset', r, -, hoffset', hr, hsome, hnext⟩
      · exact .inl ⟨hnone, hsame.trans hoffset⟩
      · cases hoffset.symm.trans hoffset'
        exact .inr ⟨r, hr, hsome, hnext⟩
    | serve r =>
      rw [perform_serve]
      left
      refine ⟨?_, ?_⟩
      · rcases serve_cases cluster now c r with ⟨_, _, _, _, _, result, heq, hbatch⟩ | ⟨_, heq⟩
        · rw [heq, Outcome.recordsOf, hbatch]
        · rw [heq]; rfl
      · cases eq_request_of_part?_eq_serve hq
        rcases get?_serve cluster now c r p with
          hsame | ⟨htarget, hdone, -⟩
        · exact hsame.trans hoffset
        · simp [seeks, htarget, outcome_of_part? hq, hdone, Outcome.isSuccess] at hseek
    | _ => exact .inl ⟨rfl, hoffset⟩

theorem positions_act_of_not_success (h : c.Settled) (hrev : c.revokes cluster now a = false)
    (hfail : (c.outcome cluster now a).isSuccess = false) :
    (c.act cluster now a).positions = c.positions := by
  cases hq : c.part? cluster now a with
  | none =>
    obtain ⟨_, _, _, _, heq, -⟩ := undergo_eq cluster now c a
    rw [act_of_part?_none hq, heq]
  | some q =>
    have hrev := isRevocation_of_revokes_false hrev hq
    rw [outcome_of_part? hq] at hfail
    rw [act_of_part? hq]
    cases q with
    | change | expire => cases hrev
    | activate =>
      exfalso
      cases carries_of_part? hq with
      | activated _ hpending => cases h.active.symm.trans hpending
      | @proceeded activity _ hholder hnext =>
        cases activity with
        | activating => exact h.idle hholder
        | _ => cases hnext
    | fetch =>
      rcases perform_fetch_cases cluster now c with ⟨_, _, -, heq⟩ | ⟨_, _, -, -, heq⟩
      · rw [heq]
      · rw [heq] at hfail
        cases hfail
    | serve r =>
      refine positions_serve_of_not_ok fun hdone => ?_
      rw [perform_serve, hdone] at hfail
      cases hfail
    | _ => rfl

end Consumer

namespace World

/-- A move that neither takes the assignment of a consumer away nor sets its position in a
partition on request. -/
def Undisturbed (id : ConsumerId) (p : Partition) (w : World ℓ κ) (m : Move ℓ κ) : Prop :=
  w.revokes id m = false ∧ w.seeks id p m = false

instance (id : ConsumerId) (p : Partition) (w : World ℓ κ) (m : Move ℓ κ) :
    Decidable (w.Undisturbed id p m) := inferInstanceAs (Decidable (_ ∧ _))

variable {w : World ℓ κ} {id : ConsumerId} {p : Partition}

def IsSettled (id : ConsumerId) (w : World ℓ κ) : Prop :=
  ∃ c, w.consumer? id = some c ∧ c.Settled

theorem isSettled_after {m : Move ℓ κ} (h : w.IsSettled id) (hm : w.revokes id m = false) :
    (w.after m).IsSettled id := by
  obtain ⟨c, hc, hsettled⟩ := h
  rcases acted?_cases hc m with ⟨a, -, hacted, hafter⟩ | ⟨-, hafter⟩
  · have hrev : c.revokes w.cluster w.clock a = false := by simpa [revokes, hacted] using hm
    exact ⟨_, hafter, hsettled.act hrev⟩
  · exact ⟨c, hafter, hsettled⟩

theorem returned_cases {m : Move ℓ κ} {offset : Int} (h : w.position? id p = some offset)
    (hm : w.Undisturbed id p m) :
    (w.returned id p m = [] ∧ (w.after m).position? id p = some offset) ∨
      ∃ r, w.cluster.read? p offset = some r ∧ w.returned id p m = [r] ∧
        (w.after m).position? id p = some (offset + 1) := by
  obtain ⟨c, hc, hoffset⟩ := Option.bind_eq_some_iff.1 h
  rcases acted?_cases hc m with ⟨a, rfl, hacted, hafter⟩ | ⟨hacted, hafter⟩
  · have hrev : c.revokes w.cluster w.clock a = false := by simpa [revokes, hacted] using hm.1
    have hseek : c.seeks p w.cluster w.clock a = false := by simpa [seeks, hacted] using hm.2
    simpa [returned, hacted, outcome_act hc, position?, hafter] using
      c.recordsOf_act hoffset hrev hseek
  · left
    simp [returned, hacted, position?, hafter, hoffset]

/-- A run returns the records from the position on, in order and without a gap. -/
theorem delivered_run {ms : List (Move ℓ κ)} {offset : Int} (h : w.position? id p = some offset)
    (hms : w.Throughout (Undisturbed id p) ms) :
    (w.delivered id p ms).map some =
        (List.range (w.delivered id p ms).length).map
          (fun i : Nat => (w.run ms).cluster.read? p (offset + i)) ∧
      (w.run ms).position? id p = some (offset + (w.delivered id p ms).length) := by
  induction ms generalizing w offset with
  | nil => simpa [delivered] using h
  | cons m ms ih =>
    have hstep : w.delivered id p (m :: ms) = w.returned id p m ++ (w.after m).delivered id p ms :=
      collect_cons ..
    rcases returned_cases h hms.1 with ⟨hnone, hnext⟩ | ⟨r, hr, hone, hnext⟩
    · rw [hstep, hnone, List.nil_append, run_cons]
      exact ih hnext hms.2
    · obtain ⟨hrest, hend⟩ := ih hnext hms.2
      rw [hstep, hone, run_cons]
      refine ⟨?_, ?_⟩
      · -- The record read now is still at its offset when the run is over.
        have hextends := (w.extends_after m).trans ((w.after m).extends_run ms)
        have hkept : ((w.after m).run ms).cluster.read? p offset = some r :=
          hextends.read?_eq_some hr
        simp only [List.cons_append, List.nil_append, List.map_cons, List.length_cons,
          List.range_succ_eq_map, List.map_map, hrest]
        simp [hkept, Function.comp_def, Int.add_assoc, Int.add_comm 1]
      · rw [hend]
        simp [Int.add_assoc, Int.add_comm 1]

theorem unmoved_of_not_success {m : Move ℓ κ} (h : w.IsSettled id) (hm : w.revokes id m = false)
    (hfail : (w.outcome m).isSuccess = false) :
    w.returned id p m = [] ∧ (w.after m).positions? id = w.positions? id := by
  obtain ⟨c, hc, hsettled⟩ := h
  rcases acted?_cases hc m with ⟨a, rfl, hacted, hafter⟩ | ⟨hacted, hafter⟩
  · have hrev : c.revokes w.cluster w.clock a = false := by simpa [revokes, hacted] using hm
    refine ⟨?_, ?_⟩
    · simp [returned, Outcome.recordsOf_eq_nil_of_not_success hfail]
    · rw [outcome_act hc] at hfail
      simp [positions?, hafter, hc, Consumer.positions_act_of_not_success hsettled hrev hfail]
  · simp [returned, hacted, positions?, hafter, hc]

/-- While an assignment lasts and nobody seeks in a partition, polls return the entries of its log
from the position after the activation on, in order and each once. -/
theorem delivered_eq_log {m : Move ℓ κ} (hm : w.activates id m = true)
    (hp : (w.after m).assigns id p = true) :
    ∃ start, (w.after m).position? id p = some start ∧
      ∀ ms, (w.after m).Throughout (Undisturbed id p) ms →
        ((w.after m).delivered id p ms).map some =
            (List.range ((w.after m).delivered id p ms).length).map
              (fun i : Nat => ((w.after m).run ms).cluster.read? p (start + i)) ∧
          ((w.after m).run ms).position? id p =
            some (start + ((w.after m).delivered id p ms).length) ∧
          ∀ ms₁ n ms₂, ms = ms₁ ++ n :: ms₂ →
            (((w.after m).run ms₁).outcome n).isSuccess = false →
              ((w.after m).run ms₁).returned id p n = [] ∧
                ((w.after m).run (ms₁ ++ [n])).positions? id =
                  ((w.after m).run ms₁).positions? id := by
  obtain ⟨⟨c, a⟩, hacted, hactivates⟩ := (Option.any_eq_true ..).1 hm
  obtain ⟨hc, rfl⟩ := acted?_eq_some_iff.1 hacted
  have hafter := consumer?_after_act hc a
  have hassigned : (c.act w.cluster w.clock a).subscription.assignment.contains p = true := by
    simpa [assigns, hafter] using hp
  obtain ⟨start, hstart⟩ := SortedMap.contains_iff.1
    (Consumer.contains_positions_of_activates hactivates hassigned)
  have hposition : (w.after (.act id a)).position? id p = some start := by
    simpa [position?, hafter] using hstart
  refine ⟨start, hposition, fun ms hms => ?_⟩
  obtain ⟨hrecords, hend⟩ := delivered_run hposition hms
  refine ⟨hrecords, hend, ?_⟩
  rintro ms₁ n ms₂ rfl hfail
  obtain ⟨hms₁, hn, -⟩ := throughout_append.1 hms
  have hsettled : (w.after (.act id a)).IsSettled id :=
    ⟨_, hafter, Consumer.settled_of_activates hactivates⟩
  have hsettled₁ : ((w.after (.act id a)).run ms₁).IsSettled id :=
    run_induction (fun _ _ h hm => isSettled_after h hm.1) hsettled hms₁
  rw [run_append]
  exact unmoved_of_not_success hsettled₁ hn.1 hfail

def sampleWorld : World Unit Unit :=
  initial.run
    [.cluster (.createTopic "t" 1), .cluster (.appendMany ⟨"t", 0⟩ 1), .create .standard,
      .act 0 (.request (.assign (.setOf [⟨"t", 0⟩])))]

def samplePolls : List (Move Unit Unit) :=
  [.cluster (.appendMany ⟨"t", 0⟩ 2), .act 0 (.request .poll), .act 0 .proceed,
    .act 0 (.addFault .poll ⟨.unknownServerError, ""⟩ 1), .act 0 (.request .poll), .act 0 .proceed,
    .act 0 (.request .poll), .act 0 .proceed]

theorem delivered_sample :
    sampleWorld.activates 0 (.act 0 (.request .poll)) = true ∧
      (sampleWorld.after (.act 0 (.request .poll))).assigns 0 ⟨"t", 0⟩ = true ∧
      (sampleWorld.after (.act 0 (.request .poll))).Throughout (Undisturbed 0 ⟨"t", 0⟩) samplePolls ∧
      ((sampleWorld.after (.act 0 (.request .poll))).delivered 0 ⟨"t", 0⟩ samplePolls).map some =
        [1, 2].map
          (((sampleWorld.after (.act 0 (.request .poll))).run samplePolls).cluster.read?
            ⟨"t", 0⟩) := by
  have hm : sampleWorld.activates 0 (.act 0 (.request .poll)) = true := by decide
  have hp : (sampleWorld.after (.act 0 (.request .poll))).assigns 0 ⟨"t", 0⟩ = true := by decide
  have hms : (sampleWorld.after (.act 0 (.request .poll))).Throughout (Undisturbed 0 ⟨"t", 0⟩)
      samplePolls := by decide
  obtain ⟨start, hstart, h⟩ := delivered_eq_log hm hp
  have hone : (sampleWorld.after (.act 0 (.request .poll))).position? 0 ⟨"t", 0⟩ = some 1 := by decide
  have hlength : ((sampleWorld.after (.act 0 (.request .poll))).delivered 0 ⟨"t", 0⟩
      samplePolls).length = 2 := by decide
  cases hstart.symm.trans hone
  have hrecords := (h samplePolls hms).1
  rw [hlength] at hrecords
  exact ⟨hm, hp, hms, hrecords⟩

end World

end LogConsumer
