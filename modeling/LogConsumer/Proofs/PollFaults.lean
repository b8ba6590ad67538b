import LogConsumer.Proofs.Refusals

/-! Faults that polls surface. They are taken from a queue, one by each poll that has its answer, and
a poll that fails with one leaves all but the queue as it was. Main statement:
`poll_faults_surface_once`. -/
namespace LogConsumer

variable {ℓ κ : Type}

def Outcome.injected? : Outcome ℓ κ → Option Fault
  | progress (.answered (.error (.injected fault))) => some fault
  | _ => none

def Act.queued : Act ℓ κ → List Fault
  | .addFault .poll fault count => List.replicate count fault
  | _ => []

def Move.isRetry (id : ConsumerId) (m : Move ℓ κ) : Bool :=
  match m with
  | .advance _ => true
  | .act id' (.request .poll) | .act id' .proceed => id' == id
  | _ => false

namespace Consumer

/-- The consumer for which a poll sends its request: without the assignment if the session was
found expired. -/
def afterExpiry (now : Time) (c : Consumer ℓ κ) : Consumer ℓ κ :=
  if c.session.isExpired now then (c.revoke "session_expired").1 else c

variable {cluster : Cluster} {now : Time} {c : Consumer ℓ κ} {a : Act ℓ κ}

theorem injected?_serve (r : Request ℓ κ) :
    (Outcome.progress (c.serve cluster now r).progress : Outcome ℓ κ).injected? = none := by
  cases r with
  | configure options =>
    simp only [serve, begin]
    cases hconfigure : c.configure options with
    | ok c' => rfl
    | error e =>
      rcases henter : c.enter with e' | _
      · cases hconfigure.symm.trans (configure_of_enter henter options)
        rcases enter_eq_error_iff.1 henter with ⟨-, rfl⟩ | ⟨-, -, rfl⟩ <;> rfl
      · obtain ⟨-, htimeout⟩ := (configure_eq_error_iff henter).1 hconfigure
        obtain ⟨_, _, -, -, rfl⟩ := Options.sessionTimeout_eq_error_iff.1 htimeout
        rfl
  | seek p offset =>
    simp only [serve, begin]
    cases hseek : c.positions.seek p offset (cluster.logLength p) with
    | ok positions => rfl
    | error e =>
      obtain ⟨-, rfl⟩ := Positions.seek_eq_error_iff.1 hseek
      rfl
  | commit callback =>
    simp only [serve, begin, schedule, Commits.schedule]
    cases c.commits.accepting <;> rfl
  | commitOffsets offsets callback =>
    simp only [serve, begin, schedule, Commits.schedule]
    cases c.commits.accepting <;> rfl
  | _ => rfl

/-- Only a poll that has its answer takes a fault from the queue, and fails with it. -/
theorem pollFaults_of_carries {q : Part ℓ κ} (h : c.Carries cluster now a q) (hq : q ≠ .fetch) :
    (c.perform cluster now q).consumer.pollFaults = c.pollFaults ∧
      (Outcome.progress (c.perform cluster now q).progress : Outcome ℓ κ).injected? = none := by
  cases q with
  | refuse e =>
    refine ⟨rfl, ?_⟩
    cases h with
    | refused henter => rcases enter_eq_error_iff.1 henter with ⟨-, rfl⟩ | ⟨-, -, rfl⟩ <;> rfl
    | @proceeded activity _ _ hnext => cases activity <;> cases hnext
  | change change =>
    rw [perform_change]
    exact ⟨rfl, rfl⟩
  | activate =>
    obtain ⟨_, _, hfill, ⟨-, heq⟩ | ⟨e, rfl, heq⟩⟩ := perform_activate_cases cluster now c
    · rw [heq]
      exact ⟨rfl, rfl⟩
    · obtain ⟨hreset, -⟩ := Positions.fillGaps_eq_error hfill
      obtain ⟨_, -, -, rfl⟩ := Options.offsetReset_eq_error hreset
      rw [heq]
      exact ⟨rfl, rfl⟩
  | serve r =>
    refine ⟨?_, injected?_serve r⟩
    rw [perform_serve]
    rcases serve_cases cluster now c r with ⟨_, _, _, _, _, _, heq, -⟩ | ⟨_, heq⟩
    all_goals rw [heq]
  | fetch => exact absurd rfl hq
  | _ => exact ⟨rfl, rfl⟩

theorem pollFaults_undergo (cluster : Cluster) (now : Time) (c : Consumer ℓ κ) (a : Act ℓ κ) :
    (c.undergo cluster now a).pollFaults.pending = c.pollFaults.pending ++ a.queued := by
  cases a with
  | addFault kind fault count => cases kind <;> simp [undergo, Act.queued]
  | abandon =>
    simp only [undergo]
    split <;> simp [abandon, Act.queued]
  | startCommit =>
    simp only [undergo]
    split <;> simp [Act.queued]
  | drop =>
    simp only [undergo]
    split <;> simp [release, Act.queued]
  | _ => simp [undergo, Act.queued]

theorem pollFaults_act (h : c.part? cluster now a ≠ some .fetch) :
    (c.outcome cluster now a).injected? = none ∧
      (c.act cluster now a).pollFaults.pending = c.pollFaults.pending ++ a.queued := by
  cases hq : c.part? cluster now a with
  | none =>
    rw [act_of_part?_none hq]
    refine ⟨?_, pollFaults_undergo cluster now c a⟩
    rcases outcome_of_part?_none hq with houtcome | ⟨_, -, -, houtcome⟩
    all_goals
      rw [houtcome]
      rfl
  | some q =>
    have hne : q ≠ .fetch := fun hfetch => h (hfetch ▸ hq)
    have hqueued : a.queued = [] := by cases a <;> first | rfl | cases hq
    obtain ⟨hkept, hnone⟩ := pollFaults_of_carries (carries_of_part? hq) hne
    rw [act_of_part? hq, outcome_of_part? hq, hkept, hqueued, List.append_nil]
    exact ⟨hnone, rfl⟩

/-- A session that has been found expired once has nothing more to lose. -/
theorem revoke_afterExpiry (h : c.session.isExpired now = true) :
    ((c.afterExpiry now).revoke "session_expired").1 = c.afterExpiry now ∧
      (c.afterExpiry now).subscription.notice? = none := by
  rw [afterExpiry, if_pos h]
  exact ⟨rfl, rfl⟩

theorem pending_afterExpiry (now : Time) (c : Consumer ℓ κ) :
    (c.afterExpiry now).subscription.pending = c.subscription.pending ∧
      (c.afterExpiry now).closed = c.closed := by
  unfold afterExpiry
  split <;> exact ⟨rfl, rfl⟩

theorem perform_poll {q : Part ℓ κ} (hopen : c.enter = .ok ())
    (hpending : c.subscription.pending = false)
    (hlapsed : c.session.isExpired now = true →
      (c.revoke "session_expired").1 = c ∧ c.subscription.notice? = none)
    (hq : c.part? cluster now (.request .poll) = some q) :
    (c.perform cluster now q).consumer = c.hold .fetching ∧
      (c.perform cluster now q).progress = .waitUntil (now + c.behaviour.requestLatency.nanos) := by
  cases carries_of_part? hq with
  | refused henter => cases hopen.symm.trans henter
  | changed _ hr | toldOfChange _ hr => cases hr
  | activated _ h | toldOfAssignment _ h => cases hpending.symm.trans h
  | toldOfExpiry _ _ hexpired hl => cases (hlapsed hexpired).2.symm.trans hl
  | expired _ _ hexpired =>
    have hsame := (hlapsed hexpired).1
    exact ⟨congrArg (hold .fetching) hsame, rfl⟩
  | awaited => exact ⟨rfl, rfl⟩
  | served _ _ hpoll => exact absurd rfl hpoll

theorem progress_fetch (cluster : Cluster) (now : Time) (h : c.pollFaults.pending = []) :
    (c.perform cluster now .fetch).progress =
      .answered (.ok (.batch (Batch.collect cluster c.behaviour.maxPollRecords
        c.subscription.assignment c.positions).1)) := by
  rcases perform_fetch_cases cluster now c with ⟨_, _, hpop, -⟩ | ⟨batch, positions, -, hcollect, heq⟩
  · cases h.symm.trans (FaultQueue.pop?_eq_some_iff.1 hpop)
  · rw [heq, hcollect]

end Consumer

namespace World

variable {w : World ℓ κ} {id : ConsumerId} {c d : Consumer ℓ κ} {m : Move ℓ κ}

def pollFaults (id : ConsumerId) (w : World ℓ κ) : List Fault :=
  ((w.consumer? id).map (·.pollFaults.pending)).getD []

def queued (id : ConsumerId) (w : World ℓ κ) (m : Move ℓ κ) : List Fault :=
  match w.acted? id m with
  | some (_, a) => a.queued
  | none => []

def surfaced (id : ConsumerId) (w : World ℓ κ) (m : Move ℓ κ) : List Fault :=
  if (w.acted? id m).isSome then (w.outcome m).injected?.toList else []

/-- A poll that has its answer fails with the first fault, which leaves the queue. The operation is
over and counted, and nothing else changes. -/
def FailsPoll (id : ConsumerId) (w : World ℓ κ) (m : Move ℓ κ) : Prop :=
  ∃ c fault faults, w.consumer? id = some c ∧ c.pollFaults.pending = fault :: faults ∧
    w.outcome m = .progress (.answered (.error (.injected fault))) ∧
    w.after m = { w.setConsumer id { c with guard := .free, pollFaults := ⟨faults⟩ } with
      counters := w.counters.countAll [(.faults .poll, 1)] }

/-- Whether the session of a consumer has lapsed. -/
def isLapsed (id : ConsumerId) (w : World ℓ κ) : Bool :=
  (w.consumer? id).any (·.session.isExpired w.clock)

def withoutPollFaults (id : ConsumerId) (w : World ℓ κ) : World ℓ κ :=
  w.modifyConsumer id fun c => { c with pollFaults := .empty }

def StaysBusy (id : ConsumerId) (w : World ℓ κ) (m : Move ℓ κ) : Prop :=
  ((w.after m).holder? id).isSome = true

/-- A move of a consumer that polls again, has no success, and finds the session lapsed at most if it
had lapsed before. -/
def Retries (id : ConsumerId) (lapsed : Bool) (w : World ℓ κ) (m : Move ℓ κ) : Prop :=
  m.isRetry id = true ∧ w.polls id m = false ∧
    (m = .act id (.request .poll) → w.isLapsed id = true → lapsed = true)

instance (id : ConsumerId) (w : World ℓ κ) (m : Move ℓ κ) : Decidable (w.StaysBusy id m) :=
  inferInstanceAs (Decidable (_ = _))

theorem part?_act (hc : w.consumer? id = some c) (a : Act ℓ κ) :
    w.part? id (.act id a) = c.part? w.cluster w.clock a := by simp [part?, acted?_act hc]

theorem fetch_cases (hm : w.part? id m = some .fetch) :
    w.queued id m = [] ∧
      (w.FailsPoll id m ∨
        w.pollFaults id = [] ∧ (w.after m).pollFaults id = [] ∧ w.polls id m = true ∧
          w.surfaced id m = []) := by
  obtain ⟨c, a, hc, rfl, hq⟩ := part?_eq_some_iff.1 hm
  have hacted := acted?_act hc a
  have houtcome := (outcome_act hc a).trans (Consumer.outcome_of_part? hq)
  have hqueued : w.queued id (.act id a) = [] := by
    simp only [queued, hacted]
    cases a <;> first | rfl | cases hq
  refine ⟨hqueued, ?_⟩
  rcases Consumer.perform_fetch_cases w.cluster w.clock c with
    ⟨fault, faults, hpop, heq⟩ | ⟨batch, positions, hpop, -, heq⟩
  · left
    have hpending := FaultQueue.pop?_eq_some_iff.1 hpop
    rw [heq] at houtcome
    refine ⟨c, fault, faults.pending, hc, hpending, houtcome, ?_⟩
    rw [after_of_part? hc hq, heq]
  · right
    have hpending := FaultQueue.pop?_eq_none_iff.1 hpop
    have hafter := consumer?_after_act hc a
    rw [Consumer.act_of_part? hq, heq] at hafter
    rw [heq] at houtcome
    refine ⟨?_, ?_, ?_, ?_⟩
    · simp [pollFaults, hc, hpending]
    · simp [pollFaults, hafter, hpending]
    · simp [polls, hacted, houtcome, Outcome.batch?]
    · simp [surfaced, houtcome, Outcome.injected?]

theorem pollFaults_after (hm : w.part? id m ≠ some .fetch) :
    w.surfaced id m = [] ∧ (w.after m).pollFaults id = w.pollFaults id ++ w.queued id m := by
  cases hc : w.consumer? id with
  | none =>
    have hacted : w.acted? id m = none := by simp [acted?, hc]
    have hnew : (w.after m).pollFaults id = [] := getD_after_of_none (fun _ => rfl) hc m
    have hbefore : w.pollFaults id = [] := by simp [pollFaults, hc]
    simp [surfaced, queued, hacted, hnew, hbefore]
  | some c =>
    rcases acted?_cases hc m with ⟨a, rfl, hacted, hafter⟩ | ⟨hacted, hafter⟩
    · rw [part?_act hc] at hm
      obtain ⟨hnone, hkept⟩ := Consumer.pollFaults_act hm
      simp [surfaced, queued, hacted, outcome_act hc, hnone, pollFaults, hc, hafter, hkept]
    · simp [surfaced, queued, hacted, pollFaults, hc, hafter]

theorem FailsPoll.pollFaults_eq (h : w.FailsPoll id m) (hm : w.part? id m = some .fetch) :
    w.pollFaults id = w.surfaced id m ++ (w.after m).pollFaults id := by
  obtain ⟨c, fault, faults, hc, hpending, houtcome, hafter⟩ := h
  have hacted : (w.acted? id m).isSome = true := by
    obtain ⟨_, hacted, -⟩ := Option.bind_eq_some_iff.1 hm
    rw [hacted]
    rfl
  have hc' : (w.after m).consumer? id = some { c with guard := .free, pollFaults := ⟨faults⟩ } := by
    rw [hafter]
    exact consumer?_setConsumer_self hc _
  simp [pollFaults, surfaced, hacted, hc, hc', houtcome, hpending, Outcome.injected?]

theorem pollFaults_ledger (id : ConsumerId) (w : World ℓ κ) (m : Move ℓ κ) :
    w.pollFaults id ++ w.queued id m = w.surfaced id m ++ (w.after m).pollFaults id := by
  by_cases hm : w.part? id m = some .fetch
  · have ⟨hqueued, h⟩ := fetch_cases hm
    rcases h with hfails | ⟨hnone, hnone', -, hsurfaced⟩
    · rw [hqueued, List.append_nil, hfails.pollFaults_eq hm]
    · rw [hqueued, hsurfaced, hnone, hnone']
  · have ⟨hsurfaced, hkept⟩ := pollFaults_after hm
    rw [hsurfaced, hkept, List.nil_append]

/-- The queue in a run. -/
theorem pollFaults_run (id : ConsumerId) (w : World ℓ κ) (ms : List (Move ℓ κ)) :
    w.pollFaults id ++ collect (queued id) w ms =
      collect (surfaced id) w ms ++ (w.run ms).pollFaults id := by
  induction ms generalizing w with
  | nil => simp
  | cons m ms ih =>
    simp only [collect_cons, run_cons]
    rw [← List.append_assoc, pollFaults_ledger, List.append_assoc, ih, List.append_assoc]

theorem isHeld_of_staysBusy {activity : Activity ℓ} (h : w.IsHeld activity c id)
    (hm : m ≠ .act id .proceed) (hbusy : w.StaysBusy id m) : (w.after m).IsHeld activity c id := by
  obtain ⟨c', hc', hheld⟩ := h.exists_consumer
  by_cases hresumes : m.resumes id = true
  · obtain rfl := (Move.resumes_iff.1 hresumes).resolve_left hm
    cases htelling : activity.isTelling with
    | true =>
      have hfree := abandon_of_isTelling hc' hheld htelling
      simp [StaysBusy, hfree] at hbusy
    | false =>
      have hsame : c'.act w.cluster w.clock .abandon = c' := by
        simp [Consumer.act, Consumer.part?, Consumer.undergo, hheld, htelling]
      obtain ⟨pollFaults, commits, hc⟩ := h
      cases hc.symm.trans hc'
      exact ⟨pollFaults, commits, (consumer?_after_act hc _).trans (congrArg some hsame)⟩
  · exact isHeld_after h (Bool.eq_false_iff.2 hresumes)

/-- Where a poll that was requested of `c` at `now` has come to, as long as it is not over. -/
inductive Polling (now : Time) (c : Consumer ℓ κ) (id : ConsumerId) (w : World ℓ κ) : Prop
  | activating (h : w.IsHeld .activating c id)
  | expiring (hpending : c.subscription.pending = false) (hexpired : c.session.isExpired now = true)
    (h : w.IsHeld .expiring c id)
  | fetching (hpending : c.subscription.pending = false)
    (h : w.IsHeld .fetching (c.afterExpiry now) id)

theorem polling_of_request (hc : w.consumer? id = some c) (hfree : c.guard.holder = none)
    (hbusy : w.StaysBusy id (.act id (.request .poll))) :
    c.closed = false ∧ (w.after (.act id (.request .poll))).Polling w.clock c id := by
  obtain ⟨q, hq⟩ : ∃ q, c.part? w.cluster w.clock (.request .poll) = some q := ⟨_, rfl⟩
  have hafter := consumer?_after_act hc (.request .poll)
  rw [Consumer.act_of_part? hq] at hafter
  have hheld : (c.perform w.cluster w.clock q).consumer.guard.holder ≠ none := by
    intro hnone
    simp [StaysBusy, holder?_of_consumer hafter, hnone] at hbusy
  cases Consumer.carries_of_part? hq with
  | refused => exact absurd hfree hheld
  | activated => exact absurd (by rw [Consumer.guard_perform_of_isLast rfl]; rfl) hheld
  | changed _ hr | toldOfChange _ hr => cases hr
  | toldOfAssignment hopen =>
    exact ⟨(Consumer.enter_eq_ok_iff.1 hopen).2, .activating ⟨_, _, hafter⟩⟩
  | toldOfExpiry hopen hpending hexpired =>
    exact ⟨(Consumer.enter_eq_ok_iff.1 hopen).2, .expiring hpending hexpired ⟨_, _, hafter⟩⟩
  | expired hopen hpending hexpired =>
    refine ⟨(Consumer.enter_eq_ok_iff.1 hopen).2, .fetching hpending ?_⟩
    rw [Consumer.afterExpiry, if_pos hexpired]
    exact ⟨_, _, hafter⟩
  | awaited hopen hpending hexpired =>
    refine ⟨(Consumer.enter_eq_ok_iff.1 hopen).2, .fetching hpending ?_⟩
    rw [Consumer.afterExpiry, if_neg (by simp [hexpired])]
    exact ⟨_, _, hafter⟩
  | served _ _ hpoll => exact absurd rfl hpoll

theorem polling_after {now : Time} (h : w.Polling now c id) (hbusy : w.StaysBusy id m) :
    (w.after m).Polling now c id := by
  by_cases hm : m = .act id .proceed
  · subst hm
    cases h with
    | activating h =>
      obtain ⟨c', hc', hheld⟩ := h.exists_consumer
      have hfree := (proceed_of_isLast hc' hheld rfl rfl).2
      simp [StaysBusy, hfree] at hbusy
    | fetching _ h =>
      obtain ⟨c', hc', hheld⟩ := h.exists_consumer
      have hfree := (proceed_of_isLast hc' hheld rfl rfl).2
      simp [StaysBusy, hfree] at hbusy
    | expiring hpending hexpired h =>
      obtain ⟨pollFaults, commits, hc⟩ := h
      refine .fetching hpending ⟨pollFaults, commits, ?_⟩
      rw [consumer?_after_act hc, Consumer.act_of_part? (Consumer.part?_proceed rfl),
        Consumer.afterExpiry, if_pos hexpired]
      rfl
  · cases h with
    | activating h => exact .activating (isHeld_of_staysBusy h hm hbusy)
    | expiring hpending hexpired h =>
      exact .expiring hpending hexpired (isHeld_of_staysBusy h hm hbusy)
    | fetching hpending h => exact .fetching hpending (isHeld_of_staysBusy h hm hbusy)

/-- What a poll fetches with: the consumer as it was requested of, but for what is taken away if the
session was found expired. -/
theorem isHeld_of_fetching {rest : List (Move ℓ κ)} (hc : w.consumer? id = some c)
    (hfree : c.guard.holder = none)
    (hbusy : w.Throughout (StaysBusy id) (.act id (.request .poll) :: rest))
    (hfetching : (w.run (.act id (.request .poll) :: rest)).holder? id = some .fetching) :
    c.closed = false ∧ c.subscription.pending = false ∧
      (w.run (.act id (.request .poll) :: rest)).IsHeld .fetching (c.afterExpiry w.clock) id := by
  have ⟨hopen, hpolling⟩ := polling_of_request hc hfree hbusy.1
  have hreached := run_induction (fun _ _ => polling_after) hpolling hbusy.2
  refine ⟨hopen, ?_⟩
  cases hreached with
  | activating h => cases h.holder?.symm.trans hfetching
  | expiring _ _ h => cases h.holder?.symm.trans hfetching
  | fetching hpending h => exact ⟨hpending, h⟩

/-- The consumer is free or waits for the answer of a poll, and otherwise is as `d` but for its
faults. -/
def AsFetched (d : Consumer ℓ κ) (cluster : Cluster) (id : ConsumerId) (w : World ℓ κ) : Prop :=
  w.cluster = cluster ∧ ∃ guard pollFaults, w.consumer? id = some { d with guard, pollFaults } ∧
    (guard = .free ∨ guard = ⟨some .fetching⟩)

structure Repeatable (lapsed : Bool) (d : Consumer ℓ κ) : Prop where
  isOpen : d.closed = false
  active : d.subscription.pending = false
  revoked : lapsed = true →
    (d.revoke "session_expired").1 = d ∧ d.subscription.notice? = none

theorem proceed_of_free (h : w.holder? id = none) : w.after (.act id .proceed) = w := by
  simp [after, step, act, h]

theorem poll_of_asFetched {lapsed : Bool} {cluster : Cluster} (hd : Repeatable lapsed d)
    (h : w.AsFetched d cluster id) (hfree : w.holder? id = none)
    (hlapsed : w.isLapsed id = true → lapsed = true) :
    (∃ time, w.outcome (.act id (.request .poll)) = .progress (.waitUntil time)) ∧
      (w.after (.act id (.request .poll))).AsFetched d cluster id ∧
      (w.after (.act id (.request .poll))).pollFaults id = w.pollFaults id ∧
      (w.after (.act id (.request .poll))).holder? id = some .fetching := by
  obtain ⟨hcluster, guard, faults, hc, hguard⟩ := h
  have hnone : guard.holder = none := (holder?_of_consumer hc).symm.trans hfree
  have hopen : Consumer.enter { d with guard, pollFaults := faults } = .ok () :=
    Consumer.enter_eq_ok_iff.2 ⟨hnone, hd.isOpen⟩
  have hrevoked : d.session.isExpired w.clock = true →
      (Consumer.revoke "session_expired" { d with guard, pollFaults := faults }).1 =
          { d with guard, pollFaults := faults } ∧ d.subscription.notice? = none := by
    intro hexpired
    have ⟨hsame, hnotice⟩ := hd.revoked (hlapsed (by simp [isLapsed, hc, hexpired]))
    refine ⟨?_, hnotice⟩
    rw [← hsame]
    rfl
  obtain ⟨q, hq⟩ : ∃ q, Consumer.part? w.cluster w.clock
      { d with guard, pollFaults := faults } (.request .poll) = some q := ⟨_, rfl⟩
  have ⟨hconsumer, hprogress⟩ := Consumer.perform_poll hopen hd.active hrevoked hq
  have hafter := consumer?_after_act hc (.request .poll)
  rw [Consumer.act_of_part? hq, hconsumer] at hafter
  have houtcome := (outcome_act hc _).trans (Consumer.outcome_of_part? hq)
  rw [hprogress] at houtcome
  refine ⟨⟨_, houtcome⟩, ⟨?_, _, _, hafter, .inr rfl⟩, ?_, ?_⟩
  · rw [after_of_part? hc hq]
    exact hcluster
  · simp [pollFaults, hc, hafter, Consumer.hold]
  · rw [holder?_of_consumer hafter]
    rfl

theorem proceed_of_asFetched {cluster : Cluster} (h : w.AsFetched d cluster id)
    (hfetching : w.holder? id = some .fetching) (hnone : w.pollFaults id = []) :
    w.outcome (.act id .proceed) =
      .progress (.answered (.ok (.batch (Batch.collect cluster d.behaviour.maxPollRecords
        d.subscription.assignment d.positions).1))) := by
  obtain ⟨rfl, guard, faults, hc, -⟩ := h
  have hheld : guard.holder = some .fetching := (holder?_of_consumer hc).symm.trans hfetching
  have hpending : faults.pending = [] := by simpa [pollFaults, hc] using hnone
  have hq : Consumer.part? w.cluster w.clock { d with guard, pollFaults := faults } .proceed =
      some .fetch := (Consumer.part?_proceed hheld).trans rfl
  rw [outcome_act hc, Consumer.outcome_of_part? hq, Consumer.progress_fetch _ _ hpending]

/-- Polls that fail leave the consumer as it was but for its faults. -/
theorem asFetched_after {lapsed : Bool} {cluster : Cluster} (hd : Repeatable lapsed d)
    (h : w.AsFetched d cluster id) (hm : w.Retries id lapsed m) :
    (w.after m).AsFetched d cluster id := by
  obtain ⟨hretry, hpolls, hlapsed⟩ := hm
  cases m with
  | advance time => exact h
  | act id' a =>
    have hid : id' = id ∧ (a = .request .poll ∨ a = .proceed) := by
      cases a with
      | request r => cases r <;> simp_all [Move.isRetry]
      | _ => simp_all [Move.isRetry]
    obtain ⟨rfl, rfl | rfl⟩ := hid
    · cases hheld : w.holder? id' with
      | none => exact (poll_of_asFetched hd h hheld (hlapsed rfl)).2.1
      | some activity =>
        obtain ⟨c, hc, hholder⟩ := Option.bind_eq_some_iff.1 hheld
        rw [(request_of_held hc hholder .poll).2]
        exact h
    · cases hheld : w.holder? id' with
      | none =>
        rw [proceed_of_free hheld]
        exact h
      | some activity =>
        obtain ⟨hcluster, guard, faults, hc, rfl | rfl⟩ := h
        · cases (holder?_of_consumer hc).symm.trans hheld
        · have hm : w.part? id' (.act id' .proceed) = some .fetch := (part?_act hc _).trans rfl
          obtain ⟨-, hfails | ⟨-, -, hbatch, -⟩⟩ := fetch_cases hm
          · obtain ⟨c, fault, rest, hc', -, -, hafter⟩ := hfails
            cases hc.symm.trans hc'
            rw [hafter]
            exact ⟨hcluster, _, _, consumer?_setConsumer_self hc _, .inl rfl⟩
          · cases hpolls.symm.trans hbatch
  | _ => cases hretry

theorem repeatable_afterExpiry (hc : w.consumer? id = some c) (hopen : c.closed = false)
    (hpending : c.subscription.pending = false) (guard : Guard (Activity ℓ))
    (pollFaults : FaultQueue) (commits : Commits κ) :
    Repeatable (w.isLapsed id) { c.afterExpiry w.clock with guard, pollFaults, commits } where
  isOpen := (c.pending_afterExpiry w.clock).2.trans hopen
  active := (c.pending_afterExpiry w.clock).1.trans hpending
  revoked := by
    intro hlapsed
    have hexpired : c.session.isExpired w.clock = true := by simpa [isLapsed, hc] using hlapsed
    have ⟨hsame, hnotice⟩ := Consumer.revoke_afterExpiry hexpired
    refine ⟨?_, hnotice⟩
    exact congrArg (fun c => { c with guard, pollFaults, commits }) hsame

/-- The first poll without a fault returns what the one that failed would have returned. -/
theorem batch_after_retries {lapsed : Bool} (hd : Repeatable lapsed d)
    (hc : w.consumer? id = some d) (hfetching : w.holder? id = some .fetching)
    (hfails : w.FailsPoll id (.act id .proceed)) {retries : List (Move ℓ κ)}
    (hretries : (w.after (.act id .proceed)).Throughout (Retries id lapsed) retries)
    {v : World ℓ κ} (hv : v = (w.after (.act id .proceed)).run retries)
    (hfree : v.holder? id = none) (hnone : v.pollFaults id = [])
    (hlapsed : v.isLapsed id = true → lapsed = true) (time : Time) :
    ∃ wait batch,
      v.outcome (.act id (.request .poll)) = .progress (.waitUntil wait) ∧
        (v.run [.act id (.request .poll), .advance time]).outcome (.act id .proceed) =
          .progress (.answered (.ok (.batch batch))) ∧
        (w.withoutPollFaults id).outcome (.act id .proceed) =
          .progress (.answered (.ok (.batch batch))) := by
  have hheld : d.guard = ⟨some .fetching⟩ := by
    have hholder := (holder?_of_consumer hc).symm.trans hfetching
    cases hguard : d.guard with
    | mk holder => simp_all
  -- What the poll would have returned without the fault.
  have hwithout : (w.withoutPollFaults id).AsFetched d w.cluster id := by
    refine ⟨rfl, d.guard, .empty, ?_, .inr hheld⟩
    rw [withoutPollFaults, consumer?_modifyConsumer, if_pos rfl, hc]
    rfl
  have hreturned := proceed_of_asFetched hwithout
    (by simp [withoutPollFaults, holder?, consumer?_modifyConsumer, hc, hheld])
    (by simp [withoutPollFaults, pollFaults, consumer?_modifyConsumer, hc, FaultQueue.empty])
  -- What the next poll finds.
  have hfailed : (w.after (.act id .proceed)).AsFetched d w.cluster id := by
    obtain ⟨c, fault, faults, hc', -, -, hafter⟩ := hfails
    cases hc.symm.trans hc'
    rw [hafter]
    exact ⟨rfl, _, _, consumer?_setConsumer_self hc _, .inl rfl⟩
  have hretried : v.AsFetched d w.cluster id :=
    hv ▸ run_induction (fun _ _ => asFetched_after hd) hfailed hretries
  obtain ⟨⟨wait, hwait⟩, hpolled, hkept, hwaiting⟩ := poll_of_asFetched hd hretried hfree hlapsed
  exact ⟨wait, _, hwait, proceed_of_asFetched hpolled hwaiting (hkept.trans hnone), hreturned⟩

/-- The faults with which polls fail are the first that were queued, in their order. They cost no
record: the first poll without a fault returns the batch that the one that failed would have. -/
theorem poll_faults_surface_once (id : ConsumerId) (ms : List (Move ℓ κ)) {w : World ℓ κ}
    (hw : w = initial.run ms) :
    collect (queued id) initial ms = collect (surfaced id) initial ms ++ w.pollFaults id ∧
      (∀ m, w.part? id m = some .fetch →
        w.FailsPoll id m ∨ w.pollFaults id = [] ∧ w.surfaced id m = [] ∧ w.polls id m = true) ∧
      (∀ m, w.part? id m ≠ some .fetch → w.surfaced id m = [] ∧
        (w.after m).pollFaults id = w.pollFaults id ++ w.queued id m) ∧
      ∀ (c : Consumer ℓ κ) rest, w.consumer? id = some c → c.guard.holder = none →
        w.Throughout (StaysBusy id) (.act id (.request .poll) :: rest) →
        ∀ u, u = w.run (.act id (.request .poll) :: rest) → u.holder? id = some .fetching →
          u.part? id (.act id .proceed) = some .fetch ∧
          ∃ pollFaults commits,
            u.consumer? id = some { c.afterExpiry w.clock with
              guard := ⟨some .fetching⟩, pollFaults, commits } ∧
            (u.FailsPoll id (.act id .proceed) →
              (∃ pollFaults, (u.after (.act id .proceed)).consumer? id =
                some { c.afterExpiry w.clock with guard := .free, pollFaults, commits }) ∧
              ∀ retries,
                (u.after (.act id .proceed)).Throughout (Retries id (w.isLapsed id)) retries →
                ∀ v, v = (u.after (.act id .proceed)).run retries → v.holder? id = none →
                  v.pollFaults id = [] → (v.isLapsed id = true → w.isLapsed id = true) →
                  ∀ time, ∃ wait batch,
                    v.outcome (.act id (.request .poll)) = .progress (.waitUntil wait) ∧
                    (v.run [.act id (.request .poll), .advance time]).outcome (.act id .proceed) =
                      .progress (.answered (.ok (.batch batch))) ∧
                    (u.withoutPollFaults id).outcome (.act id .proceed) =
                      .progress (.answered (.ok (.batch batch)))) := by
  subst hw
  have hledger := pollFaults_run id initial ms
  refine ⟨hledger, fun m hm => ?_, fun m => pollFaults_after, ?_⟩
  · rcases (fetch_cases hm).2 with hfails | ⟨hnone, -, hpolls, hsurfaced⟩
    · exact .inl hfails
    · exact .inr ⟨hnone, hsurfaced, hpolls⟩
  · rintro c rest hc hfree hbusy u rfl hfetching
    have ⟨hopen, hpending, faults, commits, hu⟩ := isHeld_of_fetching hc hfree hbusy hfetching
    have hpart : World.part? id _ (.act id .proceed) = some .fetch := (part?_act hu _).trans rfl
    refine ⟨hpart, faults, commits, hu, fun hfails => ⟨?_, ?_⟩⟩
    · obtain ⟨c', fault, rest', hc', -, -, hafter⟩ := hfails
      cases hu.symm.trans hc'
      refine ⟨⟨rest'⟩, ?_⟩
      rw [hafter]
      exact consumer?_setConsumer_self hu _
    · intro retries hretries v hv hfree' hnone hlapsed time
      have hd := repeatable_afterExpiry hc hopen hpending ⟨some .fetching⟩ faults commits
      exact batch_after_retries hd hu hfetching hfails hretries hv hfree' hnone hlapsed time

def sampleFault : List (Move Unit Unit) :=
  [.cluster (.createTopic "t" 1), .cluster (.appendMany ⟨"t", 0⟩ 2), .create .manualHeartbeat,
    .act 0 (.request (.configure (Options.standard.withOffsetReset "earliest"))),
    .act 0 (.request (.assign (.setOf [⟨"t", 0⟩]))), .act 0 (.request .poll),
    .act 0 (.addFault .poll ⟨.requestTimedOut, "slow"⟩ 1)]

def sampleWait : List (Move Unit Unit) :=
  [.advance 10000000, .act 0 (.addFault .poll ⟨.networkException, "lost"⟩ 1)]

def sampleRetries : List (Move Unit Unit) :=
  [.act 0 (.request .poll), .advance 20000000, .act 0 .proceed]

theorem poll_faults_sample :
    ∃ w u v : World Unit Unit, w = initial.run sampleFault ∧
      u = w.run (.act 0 (.request .poll) :: sampleWait) ∧
      v = (u.after (.act 0 .proceed)).run sampleRetries ∧
      u.FailsPoll 0 (.act 0 .proceed) ∧ v.pollFaults 0 = [] ∧
      ∃ batch, batch.count = 1 ∧
        (u.withoutPollFaults 0).outcome (.act 0 .proceed) =
          .progress (.answered (.ok (.batch batch))) ∧
        (v.run [.act 0 (.request .poll), .advance 30000000]).outcome (.act 0 .proceed) =
          .progress (.answered (.ok (.batch batch))) := by
  obtain ⟨c, hc⟩ : ∃ c, (initial.run sampleFault).consumer? 0 = some c := ⟨_, rfl⟩
  have hfree : c.guard.holder = none := by
    cases hc
    rfl
  have hfails : World.FailsPoll 0 ((initial.run sampleFault).run (.act 0 (.request .poll) ::
      sampleWait)) (.act 0 .proceed) := ⟨_, _, _, rfl, rfl, rfl, rfl⟩
  obtain ⟨-, -, -, hpoll⟩ := poll_faults_surface_once 0 sampleFault rfl
  obtain ⟨-, _, _, -, hfailed⟩ := hpoll c sampleWait hc hfree (by decide) _ rfl rfl
  obtain ⟨-, hretried⟩ := hfailed hfails
  obtain ⟨_, batch, -, hnext, hreturned⟩ := hretried sampleRetries
    ⟨⟨rfl, rfl, fun _ h => h⟩, ⟨rfl, rfl, nofun⟩, ⟨rfl, rfl, nofun⟩, trivial⟩ _ rfl rfl rfl
    (fun h => h) 30000000
  refine ⟨_, _, _, rfl, rfl, rfl, hfails, rfl, batch, ?_, hreturned, hnext⟩
  cases hreturned
  decide

end World

end LogConsumer
