import LogConsumer.Proofs.Ledger
import LogConsumer.Proofs.Reentrance

/-! Which operations fail, and why. All but polls and the request to close are answered at once, or
when the listener that they tell has returned; one that fails leaves the world as it is. Main
statement: `operation_fails_iff`. -/
namespace LogConsumer

variable {ℓ κ : Type}

/-- Neither a poll nor a request to close. -/
def Request.isPlain : Request ℓ κ → Bool
  | .poll | .close _ => false
  | _ => true

/-- What can be wrong with a request to a consumer that is open and free: the offset to seek is
outside the log, or the session timeout is to be read and is no count. -/
inductive Request.Faulty (cluster : Cluster) (b : Behaviour) : Request ℓ κ → Failure → Prop
  | offset {p : Partition} {offset : Int} (h : offset < 0 ∨ cluster.logLength p < offset) :
    Faulty cluster b (.seek p offset) (.invalidOffset p offset (cluster.logLength p))
  | timeout {options : Options} {s : String} {fault : Decimal.Fault} (hmanual : b.autoHeartbeat = false)
    (hset : options.properties.get? Options.sessionSetting = some s)
    (hread : Decimal.read64 (Text.trim s.toList) = .error fault) :
    Faulty cluster b (.configure options) (.configuration Options.sessionSetting fault.message)

theorem Request.Faulty.ne_concurrentAccess {cluster : Cluster} {b : Behaviour} {r : Request ℓ κ}
    {e : Failure} (h : r.Faulty cluster b e) : e ≠ .concurrentAccess := by cases h <;> nofun

theorem Request.Faulty.ne_closed {cluster : Cluster} {b : Behaviour} {r : Request ℓ κ} {e : Failure}
    (h : r.Faulty cluster b e) : e ≠ .closed := by cases h <;> nofun

namespace Consumer

variable {cluster : Cluster} {now : Time} {c : Consumer ℓ κ} {a : Act ℓ κ}

theorem closed_perform {q : Part ℓ κ} (h : q ≠ .shut) :
    (c.perform cluster now q).consumer.closed = c.closed := by
  cases q with
  | change change => rw [perform_change]
  | activate =>
    obtain ⟨_, _, -, ⟨-, heq⟩ | ⟨_, -, heq⟩⟩ := perform_activate_cases cluster now c
    all_goals rw [heq]
  | fetch =>
    rcases perform_fetch_cases cluster now c with ⟨_, _, -, heq⟩ | ⟨_, _, -, -, heq⟩
    all_goals rw [heq]
  | serve r =>
    rw [perform_serve]
    rcases serve_cases cluster now c r with ⟨_, _, _, _, _, _, heq, -⟩ | ⟨_, heq⟩
    all_goals rw [heq]
  | shut => exact absurd rfl h
  | _ => rfl

theorem accepting_serve {r : Request ℓ κ} (h : ∀ timeout, r ≠ .close timeout) :
    (c.serve cluster now r).consumer.commits.accepting = c.commits.accepting := by
  rcases commits_serve_cases cluster now c r with heq | ⟨⟨timeout, hr⟩, -⟩ | ⟨offsets, callback, heq⟩
  · rw [heq]
  · exact absurd hr (h timeout)
  · rw [← (Commits.schedule_eq_ok_iff.1 heq).2, Commits.accepting_add]

theorem accepting_undergo (cluster : Cluster) (now : Time) (c : Consumer ℓ κ) (a : Act ℓ κ) :
    (c.undergo cluster now a).closed = true ∨
      ((c.undergo cluster now a).closed = c.closed ∧
        (c.undergo cluster now a).commits.accepting = c.commits.accepting) := by
  cases a with
  | startCommit =>
    right
    simp only [undergo]
    split
    next e hs => exact ⟨rfl, congrArg (·.accepting) (Commits.start?_eq_some hs).2.2.1⟩
    next => exact ⟨rfl, rfl⟩
  | drop =>
    simp only [undergo]
    split
    · exact .inr ⟨rfl, rfl⟩
    · exact .inl rfl
  | abandon =>
    right
    simp only [undergo]
    split <;> exact ⟨rfl, rfl⟩
  | addFault kind => cases kind <;> exact .inr ⟨rfl, rfl⟩
  | _ => exact .inr ⟨rfl, rfl⟩

/-- Until a consumer begins to close, its commits can be scheduled. -/
def IsAccepting (c : Consumer ℓ κ) : Prop :=
  c.closed = false → c.guard.holder ≠ some .closing → c.commits.accepting = true

theorem isAccepting_ofBehaviour (b : Behaviour) : (ofBehaviour b : Consumer ℓ κ).IsAccepting :=
  fun _ _ => rfl

theorem IsAccepting.of_enter (h : c.IsAccepting) (hopen : c.enter = .ok ()) :
    c.commits.accepting = true := by
  obtain ⟨hfree, hclosed⟩ := enter_eq_ok_iff.1 hopen
  exact h hclosed (by simp [hfree])

theorem IsAccepting.act (h : c.IsAccepting) : (c.act cluster now a).IsAccepting := by
  intro hclosed hclosing
  cases hq : c.part? cluster now a with
  | none =>
    have hundergo := accepting_undergo cluster now c a
    obtain ⟨guard, _, _, _, heq, hguard⟩ := undergo_eq cluster now c a
    rw [act_of_part?_none hq] at hclosed hclosing ⊢
    rcases hundergo with hreleased | ⟨hsame, haccepting⟩
    · cases hclosed.symm.trans hreleased
    · rw [haccepting]
      refine h (hsame.symm.trans hclosed) ?_
      rw [heq] at hclosing
      rcases hguard with rfl | ⟨-, htelling, -⟩
      · exact hclosing
      · intro hheld
        simp [hheld, Activity.isTelling] at htelling
  | some q =>
    rw [act_of_part? hq] at hclosed hclosing ⊢
    have hcommits (hne : ∀ r, q ≠ .serve r) :
        (c.perform cluster now q).consumer.commits.accepting = c.commits.accepting :=
      congrArg (·.accepting) (commits_perform hne)
    cases carries_of_part? hq with
    | refused | closedAgain => exact h hclosed hclosing
    | toldOfChange hopen | changed hopen | toldOfAssignment hopen | activated hopen
    | toldOfExpiry hopen | expired hopen | awaited hopen =>
      exact (hcommits nofun).trans (h.of_enter hopen)
    | @served r hopen =>
      by_cases hclose : ∃ timeout, r = .close timeout
      · obtain ⟨timeout, rfl⟩ := hclose
        exact absurd rfl hclosing
      · have hne : ∀ timeout, r ≠ .close timeout := fun timeout hr => hclose ⟨timeout, hr⟩
        exact (accepting_serve hne).trans (h.of_enter hopen)
    | @proceeded activity _ hheld hnext =>
      subst hnext
      cases activity with
      | closing => cases hclosed
      | _ =>
        refine (hcommits (Activity.next_ne_serve _)).trans (h ?_ (by simp [hheld]))
        exact (closed_perform (by simp [Activity.next])).symm.trans hclosed

theorem configure_eq_error_iff {options : Options} {e : Failure} (hopen : c.enter = .ok ()) :
    c.configure options = .error e ↔
      c.behaviour.autoHeartbeat = false ∧ options.sessionTimeout = .error e := by
  unfold configure
  rw [hopen]
  cases c.behaviour.autoHeartbeat <;> cases options.sessionTimeout <;>
    simp [bind, Except.bind, pure, Except.pure]

theorem faulty_configure_iff {b : Behaviour} {options : Options} {e : Failure} :
    (Request.configure options : Request ℓ κ).Faulty cluster b e ↔
      b.autoHeartbeat = false ∧ options.sessionTimeout = .error e := by
  rw [Options.sessionTimeout_eq_error_iff]
  constructor
  · intro h
    cases h with
    | timeout hmanual hset hread => exact ⟨hmanual, _, _, hset, hread, rfl⟩
  · rintro ⟨hmanual, s, fault, hset, hread, rfl⟩
    exact .timeout hmanual hset hread

/-- A plain request to a consumer that is open and free succeeds, unless something is wrong with it;
then it fails for that and leaves the consumer as it is. -/
theorem serve_plain_cases {r : Request ℓ κ} (hopen : c.enter = .ok ())
    (haccepting : c.commits.accepting = true) (hr : r.isPlain = true) :
    (∃ reply, (c.serve cluster now r).progress = .answered (.ok reply) ∧
        ∀ e, ¬ r.Faulty cluster c.behaviour e) ∨
      ∃ e, c.serve cluster now r = ⟨c, .answered (.error e), []⟩ ∧
        ∀ e', r.Faulty cluster c.behaviour e' ↔ e' = e := by
  have hfree := guard_of_enter hopen
  have hanswer (e : Failure) : c.answer (.error e) [] = ⟨c, .answered (.error e), []⟩ := by
    simp [answer, ← hfree]
  cases r with
  | seek p offset =>
    simp only [serve, begin]
    cases hseek : c.positions.seek p offset (cluster.logLength p) with
    | ok positions =>
      refine .inl ⟨.done, rfl, ?_⟩
      obtain ⟨hin, -⟩ := Positions.seek_eq_ok_iff.1 hseek
      intro e hfaulty
      cases hfaulty with
      | offset hout => omega
    | error e =>
      right
      obtain ⟨hout, rfl⟩ := Positions.seek_eq_error_iff.1 hseek
      refine ⟨_, hanswer _, fun e' => ⟨fun h => ?_, ?_⟩⟩
      · cases h
        rfl
      · rintro rfl
        exact .offset hout
  | configure options =>
    simp only [serve, begin]
    cases hconfigure : c.configure options with
    | ok c' =>
      refine .inl ⟨.done, rfl, fun e hfaulty => ?_⟩
      have herror := (configure_eq_error_iff hopen).2 (faulty_configure_iff.1 hfaulty)
      cases hconfigure.symm.trans herror
    | error e =>
      refine .inr ⟨e, hanswer e, fun e' => ?_⟩
      rw [faulty_configure_iff, ← configure_eq_error_iff hopen, hconfigure, Except.error.injEq, eq_comm]
  | commit callback =>
    left
    simp only [serve, begin, schedule, Commits.schedule, haccepting, if_true]
    exact ⟨.done, rfl, fun e hfaulty => by cases hfaulty⟩
  | commitOffsets offsets callback =>
    left
    simp only [serve, begin, schedule, Commits.schedule, haccepting, if_true]
    exact ⟨.done, rfl, fun e hfaulty => by cases hfaulty⟩
  | poll | close => cases hr
  | _ => exact .inl ⟨_, rfl, fun e hfaulty => by cases hfaulty⟩

theorem not_faulty_of_change {b : Behaviour} {r : Request ℓ κ} {change : Change ℓ}
    (hr : r.change? cluster = some change) (e : Failure) : ¬ r.Faulty cluster b e := by
  intro h
  cases h <;> cases hr

theorem enter_eq_error_iff {e : Failure} :
    c.enter = .error e ↔ (c.guard.isHeld = true ∧ e = .concurrentAccess) ∨
      (c.guard.isHeld = false ∧ c.closed = true ∧ e = .closed) := by
  unfold enter Guard.check
  cases c.guard.isHeld <;> cases c.closed <;> simp [eq_comm]

end Consumer

namespace World

variable {w : World ℓ κ} {id : ConsumerId} {c : Consumer ℓ κ} {r : Request ℓ κ}

/-- The result of a request. If it tells a listener, the result comes when the listener has
returned, whatever has been done meanwhile. -/
def Answers (id : ConsumerId) (w : World ℓ κ) (r : Request ℓ κ) (result : Except Failure Reply) :
    Prop :=
  w.outcome (.act id (.request r)) = .progress (.answered result) ∨
    ∃ listener call, w.outcome (.act id (.request r)) = .progress (.tell listener call) ∧
      ∀ inside : List (Move ℓ κ), (∀ m ∈ inside, m.resumes id = false) →
        ((w.after (.act id (.request r))).run inside).outcome (.act id .proceed) =
          .progress (.answered result)

theorem Answers.unique {result result' : Except Failure Reply} (h : w.Answers id r result)
    (h' : w.Answers id r result') : result' = result := by
  rcases h with h | ⟨_, _, htell, h⟩ <;> rcases h' with h' | ⟨_, _, htell', h'⟩
  · cases h.symm.trans h'
    rfl
  · cases h.symm.trans htell'
  · cases htell.symm.trans h'
  · cases (h [] nofun).symm.trans (h' [] nofun)
    rfl

theorem answers_of_toldOfChange {change : Change ℓ} {listener : ℓ} {call : Call}
    (hc : w.consumer? id = some c)
    (hq : c.part? w.cluster w.clock (.request r) = some (.tell (.changing change) listener call)) :
    w.Answers id r (.ok .done) := by
  have houtcome : w.outcome (.act id (.request r)) = .progress (.tell listener call) := by
    rw [outcome_act hc, Consumer.outcome_of_part? hq]
    rfl
  have hheld : (w.after (.act id (.request r))).IsHeld (.changing change) c id := by
    refine ⟨c.pollFaults, c.commits, ?_⟩
    rw [consumer?_after_act hc, Consumer.act_of_part? hq]
    rfl
  refine .inr ⟨listener, call, houtcome, fun inside hinside => ?_⟩
  obtain ⟨c', hc', hholder⟩ := (isHeld_run hheld hinside).exists_consumer
  rw [outcome_act hc', Consumer.outcome_of_part? (Consumer.part?_proceed hholder), Activity.next,
    Consumer.perform_change]

/-- A plain request succeeds, or it fails at once and leaves the world as it is. -/
theorem answers_cases (hc : w.consumer? id = some c) (haccepting : c.IsAccepting)
    (hr : r.isPlain = true) :
    (∃ reply, w.Answers id r (.ok reply) ∧ c.enter = .ok () ∧
        ∀ e, ¬ r.Faulty w.cluster c.behaviour e) ∨
      ∃ e, w.outcome (.act id (.request r)) = .progress (.answered (.error e)) ∧
        w.after (.act id (.request r)) = w ∧
        (c.enter = .error e ∨
          c.enter = .ok () ∧ ∀ e', r.Faulty w.cluster c.behaviour e' ↔ e' = e) := by
  obtain ⟨q, hq⟩ : ∃ q, c.part? w.cluster w.clock (.request r) = some q := ⟨_, rfl⟩
  have houtcome : w.outcome (.act id (.request r)) =
      .progress (c.perform w.cluster w.clock q).progress := by
    rw [outcome_act hc, Consumer.outcome_of_part? hq]
  have hunchanged {progress : Progress ℓ}
      (hturn : c.perform w.cluster w.clock q = ⟨c, progress, []⟩) :
      w.after (.act id (.request r)) = w := (act_of_unchanged hc hq hturn).2
  cases Consumer.carries_of_part? hq with
  | refused h => exact .inr ⟨_, houtcome, hunchanged rfl, .inl h⟩
  | toldOfChange hopen hchange =>
    exact .inl ⟨.done, answers_of_toldOfChange hc hq, hopen, Consumer.not_faulty_of_change hchange⟩
  | changed hopen hchange =>
    rw [Consumer.perform_change] at houtcome
    exact .inl ⟨.done, .inl houtcome, hopen, Consumer.not_faulty_of_change hchange⟩
  | served hopen =>
    rcases Consumer.serve_plain_cases hopen (haccepting.of_enter hopen) hr with
      ⟨reply, hprogress, hfaulty⟩ | ⟨e, hturn, hfaulty⟩
    · refine .inl ⟨reply, .inl ?_, hopen, hfaulty⟩
      rw [houtcome, Consumer.perform_serve, hprogress]
    · refine .inr ⟨e, ?_, hunchanged hturn, .inr ⟨hopen, hfaulty⟩⟩
      rw [houtcome, Consumer.perform_serve, hturn]
  | _ => cases hr

/-- A request that is neither a poll nor one to close has one result. It fails for concurrent
access, else because the consumer is closed, else for what is wrong with it. -/
theorem operation_fails_iff (ms : List (Move ℓ κ)) {c : Consumer ℓ κ}
    (hc : (initial.run ms).consumer? id = some c) {r : Request ℓ κ} (hr : r.isPlain = true) :
    ∃ result, (initial.run ms).Answers id r result ∧
      (∀ result', (initial.run ms).Answers id r result' → result' = result) ∧
      (result = .error .concurrentAccess ↔ c.guard.isHeld = true) ∧
      (c.guard.isHeld = false → (result = .error .closed ↔ c.closed = true)) ∧
      (c.guard.isHeld = false → c.closed = false →
        ∀ e, result = .error e ↔ r.Faulty (initial.run ms).cluster c.behaviour e) ∧
      ∀ e, result = .error e →
        (initial.run ms).outcome (.act id (.request r)) = .progress (.answered (.error e)) ∧
          (initial.run ms).after (.act id (.request r)) = initial.run ms := by
  have haccepting : c.IsAccepting :=
    consumer_invariant Consumer.isAccepting_ofBehaviour (fun _ _ _ _ h => h.act) ms hc
  rcases answers_cases hc haccepting hr with
    ⟨reply, hanswers, hopen, hfaulty⟩ | ⟨e, houtcome, hafter, henter⟩
  · obtain ⟨hholder, hclosed⟩ := Consumer.enter_eq_ok_iff.1 hopen
    have hheld : c.guard.isHeld = false := by simp [Guard.isHeld, hholder]
    refine ⟨.ok reply, hanswers, fun _ => hanswers.unique, ?_, ?_, ?_, fun e he => by cases he⟩
    · simp [hheld]
    · simp [hclosed]
    · intro _ _ e
      simp [hfaulty e]
  · refine ⟨.error e, .inl houtcome, fun _ => Answers.unique (.inl houtcome), ?_, ?_, ?_, ?_⟩
    · rw [Except.error.injEq]
      rcases henter with henter | ⟨hopen, hfaulty⟩
      · rcases Consumer.enter_eq_error_iff.1 henter with ⟨hheld, rfl⟩ | ⟨hfree, -, rfl⟩
        · simp [hheld]
        · simp [hfree]
      · have hfree := (Consumer.enter_eq_ok_iff.1 hopen).1
        simp [Guard.isHeld, hfree, ((hfaulty e).2 rfl).ne_concurrentAccess]
    · intro hfree
      rw [Except.error.injEq]
      rcases henter with henter | ⟨hopen, hfaulty⟩
      · rcases Consumer.enter_eq_error_iff.1 henter with ⟨hheld, -⟩ | ⟨-, hclosed, rfl⟩
        · cases hfree.symm.trans hheld
        · simp [hclosed]
      · have hclosed := (Consumer.enter_eq_ok_iff.1 hopen).2
        simp [hclosed, ((hfaulty e).2 rfl).ne_closed]
    · intro hfree hclosed e'
      have hopen : c.enter = .ok () := by simp [Consumer.enter, Guard.check, hfree, hclosed]
      rcases henter with henter | ⟨-, hfaulty⟩
      · cases hopen.symm.trans henter
      · rw [hfaulty, Except.error.injEq, eq_comm]
    · rintro _ ⟨⟩
      exact ⟨houtcome, hafter⟩

def sampleRefusing : List (Move Unit Unit) :=
  [.cluster (.createTopic "t" 1), .create .manualHeartbeat, .create .standard, .act 1 .drop,
    .act 0 (.request (.subscribe (.setOf ["t"]) (some ())))]

/-- The seek goes beyond the log, and the second consumer is closed. -/
theorem operation_fails_iff_sample :
    (initial.run sampleRefusing).Answers 0 (.seek ⟨"t", 0⟩ 1) (.error (.invalidOffset ⟨"t", 0⟩ 1 0)) ∧
      (initial.run sampleRefusing).Answers 1 (.seek ⟨"t", 0⟩ 1) (.error .closed) := by
  obtain ⟨c, hc⟩ : ∃ c, (initial.run sampleRefusing).consumer? 0 = some c := ⟨_, rfl⟩
  obtain ⟨d, hd⟩ : ∃ d, (initial.run sampleRefusing).consumer? 1 = some d := ⟨_, rfl⟩
  constructor
  · obtain ⟨result, hanswers, -, -, -, hfaulty, -⟩ :=
      operation_fails_iff sampleRefusing hc (r := .seek ⟨"t", 0⟩ 1) rfl
    cases hc
    rw [(hfaulty rfl rfl (.invalidOffset ⟨"t", 0⟩ 1 0)).2 (.offset (.inr (by decide)))] at hanswers
    exact hanswers
  · obtain ⟨result, hanswers, -, -, hclosed, -⟩ :=
      operation_fails_iff sampleRefusing hd (r := .seek ⟨"t", 0⟩ 1) rfl
    cases hd
    rw [(hclosed rfl).2 rfl] at hanswers
    exact hanswers

end World

end LogConsumer
