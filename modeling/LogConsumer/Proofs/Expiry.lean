import LogConsumer.Proofs.PollFaults

/-! When a session lapses. Its deadline counts from the last heartbeat since the timeout was set,
and only subscriptions, assignments and polls that succeed are heartbeats. Main statement:
`session_lapses_iff`. -/
namespace LogConsumer

variable {ℓ κ : Type}

def Part.isJoin : Part ℓ κ → Bool
  | change .unsubscribe => false
  | change _ => true
  | _ => false

/-- Requests that are no sign of life, whatever comes of them. -/
def Request.isIdle : Request ℓ κ → Bool
  | .configure _ | .subscribe .. | .subscribePattern .. | .assign _ | .poll => false
  | _ => true

theorem Session.touch_touch (s : Session) (now later : Time) :
    (s.touch now).touch later = s.touch later := by
  cases h : s.timeout <;> simp [touch, h]

theorem Session.isExpired_iff {s : Session} {now : Time} :
    s.isExpired now = true ↔
      ∃ timeout deadline, s.timeout = some timeout ∧ s.deadline = some deadline ∧ deadline < now := by
  cases htimeout : s.timeout <;> cases hdeadline : s.deadline <;>
    simp [isExpired, htimeout, hdeadline]

namespace Consumer

def stripped (c : Consumer ℓ κ) : Consumer ℓ κ :=
  { c with
    subscription := { c.subscription with assignment := .empty, paused := .empty }
    positions := .empty }

/-- Nothing is assigned, and nothing will be but by a subscription or an assignment. -/
def IsBare (c : Consumer ℓ κ) : Prop :=
  c.subscription.assignment = .empty ∧ c.subscription.pending = false

/-- Whether an act takes on options. -/
def configures (cluster : Cluster) (now : Time) (c : Consumer ℓ κ) : Act ℓ κ → Bool
  | .request (.configure options) => (c.outcome cluster now (.request (.configure options))).isSuccess
  | _ => false

/-- Whether an act ends a subscription to topics or an assignment that succeeds. -/
def joins (cluster : Cluster) (now : Time) (c : Consumer ℓ κ) (a : Act ℓ κ) : Bool :=
  (c.part? cluster now a).any (·.isJoin)

/-- Whether an act is a sign of life: a subscription, an assignment, or a poll that returns a batch,
if only the empty one of an activation. -/
def heartbeats (cluster : Cluster) (now : Time) (c : Consumer ℓ κ) (a : Act ℓ κ) : Bool :=
  c.joins cluster now a || (c.outcome cluster now a).batch?.isSome

variable {cluster : Cluster} {now : Time} {c : Consumer ℓ κ} {a : Act ℓ κ}

theorem session_of_configure {options : Options} {c' : Consumer ℓ κ}
    (h : c.configure options = .ok c') :
    c.behaviour.autoHeartbeat = true ∧ c'.session = .configure none ∨
      c.behaviour.autoHeartbeat = false ∧ ∃ timeout, options.sessionTimeout = .ok timeout ∧
        c'.session = .configure (some timeout) := by
  obtain ⟨-, -, h⟩ := Failure.bind_eq_ok_iff.1 h
  cases hauto : c.behaviour.autoHeartbeat with
  | true =>
    rw [if_pos hauto] at h
    cases h
    exact .inl ⟨rfl, rfl⟩
  | false =>
    rw [if_neg (by simp [hauto])] at h
    obtain ⟨some_timeout, htimeout, h⟩ := Failure.bind_eq_ok_iff.1 h
    cases h
    cases hread : options.sessionTimeout with
    | ok timeout =>
      rw [hread] at htimeout
      cases htimeout
      exact .inr ⟨rfl, timeout, rfl, rfl⟩
    | error e =>
      rw [hread] at htimeout
      cases htimeout

theorem session_serve_of_not_success {r : Request ℓ κ}
    (h : (∃ options, r = .configure options) →
      (Outcome.progress (c.serve cluster now r).progress : Outcome ℓ κ).isSuccess = false) :
    (c.serve cluster now r).consumer.session = c.session := by
  cases r with
  | configure options =>
    have hfail := h ⟨options, rfl⟩
    simp only [serve, begin] at hfail ⊢
    split
    next c' hconfigure =>
      rw [hconfigure] at hfail
      cases hfail
    next => rfl
  | seek p offset =>
    simp only [serve, begin]
    split <;> rfl
  | commit callback =>
    simp only [serve, begin, schedule]
    split <;> rfl
  | commitOffsets offsets callback =>
    simp only [serve, begin, schedule]
    split <;> rfl
  | _ => rfl

theorem session_of_configures (h : c.configures cluster now a = true) :
    ∃ options, a = .request (.configure options) ∧
      (c.behaviour.autoHeartbeat = true ∧ (c.act cluster now a).session = .configure none ∨
        c.behaviour.autoHeartbeat = false ∧ ∃ timeout, options.sessionTimeout = .ok timeout ∧
          (c.act cluster now a).session = .configure (some timeout)) := by
  cases a with
  | request r =>
    cases r with
    | configure options =>
      refine ⟨options, rfl, ?_⟩
      have hsuccess : (c.outcome cluster now (.request (.configure options))).isSuccess = true := h
      obtain ⟨q, hq⟩ : ∃ q, c.part? cluster now (.request (.configure options)) = some q := ⟨_, rfl⟩
      rw [outcome_of_part? hq] at hsuccess
      rw [act_of_part? hq]
      cases carries_of_part? hq with
      | refused => cases hsuccess
      | changed _ hr | toldOfChange _ hr => cases hr
      | served =>
        simp only [perform_serve, serve, begin] at hsuccess ⊢
        cases hconfigure : c.configure options with
        | ok c' =>
          have hset := session_of_configure hconfigure
          exact hset
        | error e =>
          rw [hconfigure] at hsuccess
          cases hsuccess
    | _ => cases h
  | _ => cases h

theorem session_act (h : c.configures cluster now a = false) :
    (c.act cluster now a).session =
      if c.heartbeats cluster now a then c.session.touch now else c.session := by
  cases hq : c.part? cluster now a with
  | none =>
    have hnone : c.heartbeats cluster now a = false := by
      rcases outcome_of_part?_none hq with houtcome | ⟨_, -, -, houtcome⟩
      all_goals simp [heartbeats, joins, hq, houtcome, Outcome.batch?]
    obtain ⟨_, _, _, _, heq, -⟩ := undergo_eq cluster now c a
    rw [hnone, act_of_part?_none hq, heq]
    rfl
  | some q =>
    have hheartbeats : c.heartbeats cluster now a = (q.isJoin ||
        (Outcome.progress (c.perform cluster now q).progress : Outcome ℓ κ).batch?.isSome) := by
      simp [heartbeats, joins, hq, outcome_of_part? hq]
    rw [hheartbeats, act_of_part? hq]
    cases q with
    | change change =>
      rw [perform_change]
      cases change <;> rfl
    | activate =>
      obtain ⟨_, _, -, ⟨-, heq⟩ | ⟨_, -, heq⟩⟩ := perform_activate_cases cluster now c
      all_goals
        rw [heq]
        rfl
    | fetch =>
      rcases perform_fetch_cases cluster now c with ⟨_, _, -, heq⟩ | ⟨_, _, -, -, heq⟩
      all_goals
        rw [heq]
        rfl
    | serve r =>
      obtain rfl := eq_request_of_part?_eq_serve hq
      have hsession : (c.serve cluster now r).consumer.session = c.session := by
        apply session_serve_of_not_success
        rintro ⟨options, rfl⟩
        have hfail : (c.outcome cluster now (.request (.configure options))).isSuccess = false := h
        rwa [outcome_of_part? hq] at hfail
      have hbatch : (Outcome.progress (c.serve cluster now r).progress : Outcome ℓ κ).batch? = none := by
        rcases serve_cases cluster now c r with ⟨_, _, _, _, _, _, heq, hnone⟩ | ⟨_, heq⟩
        all_goals rw [heq]
        · exact hnone
        · rfl
      rw [perform_serve, hsession, hbatch]
      rfl
    | _ => rfl

theorem isSuccess_of_heartbeats (h : c.heartbeats cluster now a = true) :
    (c.outcome cluster now a).isSuccess = true := by
  rcases Bool.or_eq_true_iff.1 h with hjoins | hbatch
  · obtain ⟨q, hq, hjoin⟩ := (Option.any_eq_true ..).1 hjoins
    rw [outcome_of_part? hq]
    cases q with
    | change change =>
      rw [perform_change]
      rfl
    | _ => cases hjoin
  · unfold Outcome.batch? at hbatch
    split at hbatch
    next h => rw [h]; rfl
    next => cases hbatch

theorem batch_of_isBare (h : c.IsBare) (hbatch : (c.outcome cluster now a).batch?.isSome = true) :
    c.outcome cluster now a = .progress (.answered (.ok (.batch .empty))) := by
  cases hq : c.part? cluster now a with
  | none =>
    rcases outcome_of_part?_none hq with houtcome | ⟨_, -, -, houtcome⟩
    all_goals simp [houtcome, Outcome.batch?] at hbatch
  | some q =>
    rw [outcome_of_part? hq] at hbatch ⊢
    cases q with
    | change change =>
      rw [perform_change] at hbatch
      cases hbatch
    | activate =>
      obtain ⟨_, _, -, ⟨-, heq⟩ | ⟨_, -, heq⟩⟩ := perform_activate_cases cluster now c
      · rw [heq]
      · rw [heq] at hbatch
        cases hbatch
    | fetch =>
      rcases perform_fetch_cases cluster now c with ⟨_, _, -, heq⟩ | ⟨_, _, -, hcollect, heq⟩
      · rw [heq] at hbatch
        cases hbatch
      · rw [h.1] at hcollect
        cases hcollect
        rw [heq]
        rfl
    | serve r =>
      rw [perform_serve] at hbatch
      rcases serve_cases cluster now c r with ⟨_, _, _, _, _, _, heq, hnone⟩ | ⟨_, heq⟩
      · rw [heq, hnone] at hbatch
        cases hbatch
      · rw [heq] at hbatch
        cases hbatch
    | _ => cases hbatch

theorem IsBare.act (h : c.IsBare) (hjoins : c.joins cluster now a = false) :
    (c.act cluster now a).IsBare := by
  obtain ⟨hassignment, hpending⟩ := h
  cases hrev : c.revokes cluster now a with
  | false =>
    obtain ⟨paused, pending, heq, hsame | hactivates⟩ := subscription_act hrev
    · rw [IsBare, heq]
      exact ⟨hassignment, hsame.trans hpending⟩
    · obtain ⟨_, -, hact⟩ := act_of_activates hactivates
      rw [hact]
      exact ⟨hassignment, rfl⟩
  | true =>
    rcases part?_of_revokes hrev with ⟨change, hq⟩ | hq
    · rw [act_of_part? hq, perform_change]
      cases change with
      | unsubscribe => exact ⟨rfl, rfl⟩
      | subscribe | assign => simp [joins, hq, Part.isJoin] at hjoins
    · rw [act_of_part? hq]
      exact ⟨rfl, hpending⟩

theorem heartbeats_of_isIdle {r : Request ℓ κ} (hr : r.isIdle = true) :
    c.heartbeats cluster now (.request r) = false := by
  obtain ⟨q, hq⟩ : ∃ q, c.part? cluster now (.request r) = some q := ⟨_, rfl⟩
  simp only [heartbeats, joins, hq, outcome_of_part? hq, Option.any_some]
  cases carries_of_part? hq with
  | changed _ hchange =>
    rw [perform_change]
    cases r with
    | unsubscribe =>
      cases hchange
      rfl
    | subscribe | subscribePattern | assign => cases hr
    | _ => cases hchange
  | served =>
    rw [perform_serve]
    rcases serve_cases cluster now c r with ⟨_, _, _, _, _, _, heq, hnone⟩ | ⟨_, heq⟩
    · rw [heq, hnone]
      rfl
    · rw [heq]
      rfl
  | activated | toldOfAssignment | toldOfExpiry | expired | awaited => cases hr
  | _ => rfl

theorem behaviour_act (cluster : Cluster) (now : Time) (c : Consumer ℓ κ) (a : Act ℓ κ) :
    (c.act cluster now a).behaviour = c.behaviour := by
  cases hq : c.part? cluster now a with
  | none =>
    obtain ⟨_, _, _, _, heq, -⟩ := undergo_eq cluster now c a
    rw [act_of_part?_none hq, heq]
  | some q =>
    rw [act_of_part? hq]
    cases q with
    | change change => rw [perform_change]
    | activate =>
      obtain ⟨_, _, -, ⟨-, heq⟩ | ⟨_, -, heq⟩⟩ := perform_activate_cases cluster now c
      all_goals rw [heq]
    | fetch =>
      rcases perform_fetch_cases cluster now c with ⟨_, _, -, heq⟩ | ⟨_, _, -, -, heq⟩
      all_goals rw [heq]
    | serve r =>
      rw [perform_serve]
      rcases serve_cases cluster now c r with ⟨_, _, _, _, _, _, heq, -⟩ | ⟨_, heq⟩
      all_goals rw [heq]
    | _ => rfl

end Consumer

namespace World

variable {w v : World ℓ κ} {id : ConsumerId} {c : Consumer ℓ κ} {m : Move ℓ κ}

def session (id : ConsumerId) (w : World ℓ κ) : Session :=
  ((w.consumer? id).map (·.session)).getD .inactive

def configures (id : ConsumerId) (w : World ℓ κ) (m : Move ℓ κ) : Bool :=
  (w.acted? id m).any fun (c, a) => c.configures w.cluster w.clock a

/-- Whether a move ends a subscription to topics or an assignment of a consumer that succeeds. -/
def joins (id : ConsumerId) (w : World ℓ κ) (m : Move ℓ κ) : Bool :=
  (w.part? id m).any (·.isJoin)

def heartbeats (id : ConsumerId) (w : World ℓ κ) (m : Move ℓ κ) : Bool :=
  w.joins id m || w.polls id m

theorem session_of_consumer (hc : w.consumer? id = some c) : w.session id = c.session := by
  simp [session, hc]

theorem session_after (h : w.configures id m = false) :
    (w.after m).session id =
      if w.heartbeats id m then (w.session id).touch w.clock else w.session id := by
  cases hc : w.consumer? id with
  | none =>
    have hacted : w.acted? id m = none := by simp [acted?, hc]
    have hnew : (w.after m).session id = .inactive := by
      cases hc' : (w.after m).consumer? id with
      | none => simp [session, hc']
      | some c' =>
        rcases consumer?_after_cases hc' with ⟨-, b, -, rfl⟩ | ⟨c, h, -⟩
        · simp [session, hc', Consumer.ofBehaviour]
        · cases hc.symm.trans h
    have hnone : w.heartbeats id m = false := by simp [heartbeats, joins, polls, part?, hacted]
    rw [hnone, hnew, session, hc]
    rfl
  | some c =>
    rcases acted?_cases hc m with ⟨a, rfl, hacted, hafter⟩ | ⟨hacted, hafter⟩
    · have hnot : c.configures w.cluster w.clock a = false := by simpa [configures, hacted] using h
      have hheartbeats : w.heartbeats id (.act id a) = c.heartbeats w.cluster w.clock a := by
        simp [heartbeats, joins, polls, part?, hacted, Consumer.heartbeats, Consumer.joins,
          outcome_act hc]
      rw [session_of_consumer hafter, session_of_consumer hc, hheartbeats]
      exact Consumer.session_act hnot
    · have hnone : w.heartbeats id m = false := by simp [heartbeats, joins, polls, part?, hacted]
      rw [session_of_consumer hafter, session_of_consumer hc, hnone]
      rfl

/-- The session is the one that was set last, with the deadline of the last heartbeat since. -/
theorem session_run (id : ConsumerId) (ms : List (Move ℓ κ)) :
    (initial.run ms).session id =
      match initial.last? (configures id) ms with
      | none => .inactive
      | some (v, m, after) =>
        match (v.after m).last? (heartbeats id) after with
        | none => (v.after m).session id
        | some (u, _, _) => ((v.after m).session id).touch u.clock := by
  induction ms using List.reverseRecOn with
  | nil => rfl
  | append_singleton ms n ih =>
    rw [last?_append_singleton, run_append, run_cons, run_nil]
    by_cases hconfigures : (initial.run ms).configures id n = true
    · rw [if_pos hconfigures]
      rfl
    · rw [if_neg hconfigures, session_after (Bool.eq_false_iff.2 hconfigures), ih]
      cases hlast : initial.last? (configures id) ms with
      | none =>
        simp only [Option.map_none]
        split <;> rfl
      | some found =>
        obtain ⟨v, m, after⟩ := found
        have hrun : (v.after m).run after = initial.run ms := run_of_last? hlast
        simp only [Option.map_some, last?_append_singleton, hrun]
        by_cases hheartbeats : (initial.run ms).heartbeats id n = true
        · rw [if_pos hheartbeats, if_pos hheartbeats]
          cases (v.after m).last? (heartbeats id) after with
          | none => rfl
          | some found => exact Session.touch_touch ..
        · rw [if_neg hheartbeats, if_neg hheartbeats]
          cases (v.after m).last? (heartbeats id) after <;> rfl

theorem behaviour_run (hc : w.consumer? id = some c) (ms : List (Move ℓ κ)) :
    ∃ c', (w.run ms).consumer? id = some c' ∧ c'.behaviour = c.behaviour := by
  induction ms generalizing w c with
  | nil => exact ⟨c, hc, rfl⟩
  | cons m ms ih =>
    rcases acted?_cases hc m with ⟨a, -, -, hafter⟩ | ⟨-, hafter⟩
    · obtain ⟨c', hc', hsame⟩ := ih hafter
      exact ⟨c', hc', hsame.trans (Consumer.behaviour_act ..)⟩
    · exact ih hafter

theorem session_of_configures (h : v.configures id m = true) {after : List (Move ℓ κ)}
    (hc : ((v.after m).run after).consumer? id = some c) :
    ∃ options, m = .act id (.request (.configure options)) ∧
      (c.behaviour.autoHeartbeat = true ∧ (v.after m).session id = .configure none ∨
        c.behaviour.autoHeartbeat = false ∧ ∃ timeout, options.sessionTimeout = .ok timeout ∧
          (v.after m).session id = .configure (some timeout)) := by
  obtain ⟨c₀, a, hc₀, rfl, hconfigures⟩ := any_acted?_iff.1 h
  have hafter := consumer?_after_act hc₀ a
  have hsame : c.behaviour = c₀.behaviour := by
    obtain ⟨c', hc', hsame⟩ := behaviour_run hafter after
    cases hc.symm.trans hc'
    exact hsame.trans (Consumer.behaviour_act ..)
  obtain ⟨options, rfl, hset⟩ := Consumer.session_of_configures hconfigures
  rw [session_of_consumer hafter, hsame]
  exact ⟨options, rfl, hset⟩

/-- When the session of a consumer has lapsed. -/
theorem isExpired_iff {ms : List (Move ℓ κ)} (hc : (initial.run ms).consumer? id = some c)
    (now : Time) :
    c.session.isExpired now = true ↔ c.behaviour.autoHeartbeat = false ∧
      ∃ v options after timeout u m rest,
        initial.IsLast (configures id) ms v (.act id (.request (.configure options))) after ∧
        options.sessionTimeout = .ok timeout ∧
        (v.after (.act id (.request (.configure options)))).IsLast (heartbeats id) after u m rest ∧
        u.clock + timeout.nanos < now := by
  rw [← session_of_consumer hc, session_run]
  cases hlast : initial.last? (configures id) ms with
  | none =>
    refine iff_of_false (by simp) ?_
    rintro ⟨-, v, options, after, timeout, u, m, rest, hlast', -⟩
    cases hlast.symm.trans (last?_eq_some_iff.2 hlast')
  | some found =>
    obtain ⟨v, m, after⟩ := found
    have hconfigured := last?_eq_some_iff.1 hlast
    obtain ⟨-, -, -, hconfigures, -⟩ := hconfigured
    rw [← run_of_last? hlast] at hc
    obtain ⟨options, rfl, hset⟩ := session_of_configures hconfigures hc
    have hunique {v' : World ℓ κ} {options' : Options} {after' : List (Move ℓ κ)}
        (h : initial.IsLast (configures id) ms v' (.act id (.request (.configure options'))) after') :
        v' = v ∧ options' = options ∧ after' = after := by
      have hsame := hlast.symm.trans (last?_eq_some_iff.2 h)
      simpa [eq_comm] using hsame
    rcases hset with ⟨hauto, hsession⟩ | ⟨hmanual, timeout, htimeout, hsession⟩
    · refine iff_of_false ?_ (by simp [hauto])
      simp only [hsession]
      split <;> simp [Session.touch, Session.configure, Session.isExpired]
    · simp only [hsession]
      cases hbeat : (v.after (.act id (.request (.configure options)))).last? (heartbeats id) after with
      | none =>
        refine iff_of_false (by simp) ?_
        rintro ⟨-, v', options', after', -, u, m, rest, hlast', -, hbeat', -⟩
        obtain ⟨rfl, rfl, rfl⟩ := hunique hlast'
        cases hbeat.symm.trans (last?_eq_some_iff.2 hbeat')
      | some found =>
        obtain ⟨u, m, rest⟩ := found
        have htouch : ((Session.configure (some timeout)).touch u.clock).isExpired now =
            decide (u.clock + timeout.nanos < now) := Session.isExpired_touch rfl ..
        simp only [htouch, decide_eq_true_eq]
        constructor
        · intro hlapsed
          exact ⟨hmanual, v, options, after, timeout, u, m, rest, last?_eq_some_iff.1 hlast, htimeout,
            last?_eq_some_iff.1 hbeat, hlapsed⟩
        · rintro ⟨-, v', options', after', timeout', u', m', rest', hlast', htimeout', hbeat', hlapsed⟩
          obtain ⟨rfl, rfl, rfl⟩ := hunique hlast'
          cases htimeout.symm.trans htimeout'
          cases hbeat.symm.trans (last?_eq_some_iff.2 hbeat')
          exact hlapsed

/-- Until topics are subscribed to or partitions assigned, polls return no partitions. -/
def IsBarren (id : ConsumerId) (w : World ℓ κ) : Prop :=
  ∀ rest, w.Throughout (fun w m => w.joins id m = false) rest →
    ∀ m, (w.run rest).polls id m = true →
      (w.run rest).outcome m = .progress (.answered (.ok (.batch .empty)))

/-- The poll of a consumer, which is as `c`, waits for the request latency, and then fails if a fault
is queued and returns a batch if none is. -/
def Waits (id : ConsumerId) (w : World ℓ κ) (m : Move ℓ κ) (c : Consumer ℓ κ) : Prop :=
  w.outcome m = .progress (.waitUntil (w.clock + c.behaviour.requestLatency.nanos)) ∧
    (w.after m).IsHeld .fetching c id ∧
    ∀ inside : List (Move ℓ κ), (∀ n ∈ inside, n.resumes id = false) →
      ∀ u, u = (w.after m).run inside →
        u.FailsPoll id (.act id .proceed) ∨ u.pollFaults id = [] ∧ u.polls id (.act id .proceed) = true

/-- The poll of a consumer tells the listener, if anything is assigned and there is one, takes
everything away when the listener has returned, and then waits. -/
def Lapses (id : ConsumerId) (w : World ℓ κ) (c : Consumer ℓ κ) : Prop :=
  match c.subscription.notice? with
  | some listener =>
    w.outcome (.act id (.request .poll)) = .progress (.tell listener .revoked) ∧
      ∀ inside : List (Move ℓ κ), (∀ n ∈ inside, n.resumes id = false) →
        ∀ u, u = (w.after (.act id (.request .poll))).run inside →
          u.Waits id (.act id .proceed) c.stripped ∧ (u.after (.act id .proceed)).IsBarren id
  | none =>
    w.Waits id (.act id (.request .poll)) c.stripped ∧
      (w.after (.act id (.request .poll))).IsBarren id

def FindsLapsed (id : ConsumerId) (w : World ℓ κ) : Prop :=
  w.part? id (.act id (.request .poll)) = some .expire ∨
    ∃ listener, w.part? id (.act id (.request .poll)) = some (.tell .expiring listener .revoked)

theorem waits_of_part? {a : Act ℓ κ} {q : Part ℓ κ} {d : Consumer ℓ κ}
    (hc : w.consumer? id = some c) (hq : c.part? w.cluster w.clock a = some q)
    (hprogress : (c.perform w.cluster w.clock q).progress =
      .waitUntil (w.clock + d.behaviour.requestLatency.nanos))
    (hconsumer : ∃ pollFaults commits, (c.perform w.cluster w.clock q).consumer =
      { d with guard := ⟨some .fetching⟩, pollFaults, commits }) :
    w.Waits id (.act id a) d := by
  obtain ⟨pollFaults, commits, hconsumer⟩ := hconsumer
  have hheld : (w.after (.act id a)).IsHeld .fetching d id := by
    refine ⟨pollFaults, commits, ?_⟩
    rw [consumer?_after_act hc, Consumer.act_of_part? hq, hconsumer]
  refine ⟨?_, hheld, ?_⟩
  · rw [outcome_act hc, Consumer.outcome_of_part? hq, hprogress]
  · rintro inside hinside u rfl
    obtain ⟨c', hc', hholder⟩ := (isHeld_run hheld hinside).exists_consumer
    have hfetch : World.part? id _ (.act id .proceed) = some .fetch :=
      (part?_act hc' _).trans (Consumer.part?_proceed hholder)
    rcases (fetch_cases hfetch).2 with hfails | ⟨hnone, -, hpolls, -⟩
    · exact .inl hfails
    · exact .inr ⟨hnone, hpolls⟩

theorem isBarren_of_isBare (hc : w.consumer? id = some c) (h : c.IsBare) : w.IsBarren id := by
  intro rest hrest m hpolls
  have hbare : ∃ c', (w.run rest).consumer? id = some c' ∧ c'.IsBare := by
    refine run_induction (I := fun w => ∃ c', w.consumer? id = some c' ∧ c'.IsBare)
      (P := fun w m => w.joins id m = false) ?_ ⟨c, hc, h⟩ hrest
    rintro w m ⟨c', hc', hbare⟩ hjoins
    rcases acted?_cases hc' m with ⟨a, rfl, hacted, hafter⟩ | ⟨-, hafter⟩
    · have hnot : c'.joins w.cluster w.clock a = false := by
        simpa [joins, part?, hacted, Consumer.joins] using hjoins
      exact ⟨_, hafter, hbare.act hnot⟩
    · exact ⟨c', hafter, hbare⟩
  obtain ⟨c', hc', hbare⟩ := hbare
  rcases acted?_cases hc' m with ⟨a, rfl, hacted, -⟩ | ⟨hacted, -⟩
  · rw [outcome_act hc']
    apply Consumer.batch_of_isBare hbare
    simpa [polls, hacted, outcome_act hc'] using hpolls
  · simp [polls, hacted] at hpolls

theorem waits_of_expire {a : Act ℓ κ} {guard : Guard (Activity ℓ)} {pollFaults : FaultQueue}
    {commits : Commits κ} (hactive : c.subscription.pending = false)
    (hc : w.consumer? id = some { c with guard, pollFaults, commits })
    (hq : Consumer.part? w.cluster w.clock { c with guard, pollFaults, commits } a = some .expire) :
    w.Waits id (.act id a) c.stripped ∧ (w.after (.act id a)).IsBarren id := by
  refine ⟨waits_of_part? hc hq rfl ⟨pollFaults, commits, rfl⟩, ?_⟩
  refine isBarren_of_isBare (consumer?_after_act hc a) ?_
  rw [Consumer.act_of_part? hq]
  exact ⟨rfl, hactive⟩

/-- A poll of a consumer that is open and free and has nothing pending expires the session or
waits. -/
theorem poll_cases (hc : w.consumer? id = some c) (hopen : c.enter = .ok ())
    (hactive : c.subscription.pending = false) :
    c.session.isExpired w.clock = true ∧ w.FindsLapsed id ∧ w.Lapses id c ∨
      c.session.isExpired w.clock = false ∧ ¬ w.FindsLapsed id ∧
        w.Waits id (.act id (.request .poll)) c := by
  obtain ⟨q, hq⟩ : ∃ q, c.part? w.cluster w.clock (.request .poll) = some q := ⟨_, rfl⟩
  have hpart := (part?_act hc (.request .poll)).trans hq
  cases Consumer.carries_of_part? hq with
  | refused h => cases hopen.symm.trans h
  | changed _ hr | toldOfChange _ hr => cases hr
  | activated _ h | toldOfAssignment _ h => cases hactive.symm.trans h
  | served _ _ hpoll => exact absurd rfl hpoll
  | awaited _ _ hexpired =>
    refine .inr ⟨hexpired, ?_, waits_of_part? hc hq rfl ⟨c.pollFaults, c.commits, rfl⟩⟩
    rintro (h | ⟨_, h⟩) <;> cases hpart.symm.trans h
  | expired _ _ hexpired hl =>
    refine .inl ⟨hexpired, .inl hpart, ?_⟩
    rw [Lapses, hl]
    exact waits_of_expire hactive hc hq
  | toldOfExpiry _ _ hexpired hl =>
    refine .inl ⟨hexpired, .inr ⟨_, hpart⟩, ?_⟩
    rw [Lapses, hl]
    refine ⟨?_, ?_⟩
    · rw [outcome_act hc, Consumer.outcome_of_part? hq]
      rfl
    · rintro inside hinside u rfl
      have hheld : (w.after (.act id (.request .poll))).IsHeld .expiring c id := by
        refine ⟨c.pollFaults, c.commits, ?_⟩
        rw [consumer?_after_act hc, Consumer.act_of_part? hq]
        rfl
      obtain ⟨pollFaults, commits, hu⟩ := isHeld_run hheld hinside
      exact waits_of_expire hactive hu ((Consumer.part?_proceed rfl).trans rfl)

theorem heartbeats_eq_false
    (h : (∃ r : Request ℓ κ, m = .act id (.request r) ∧ r.isIdle = true) ∨
      w.part? id m = some (.change .unsubscribe) ∨ w.FailsPoll id m) :
    w.configures id m = false ∧ w.heartbeats id m = false := by
  cases hacted : w.acted? id m with
  | none => simp [configures, heartbeats, joins, polls, part?, hacted]
  | some acted =>
    obtain ⟨c, a⟩ := acted
    obtain ⟨hc, rfl⟩ := acted?_eq_some_iff.1 hacted
    have houtcome := outcome_act hc a
    have hconfigures : w.configures id (.act id a) = c.configures w.cluster w.clock a := by
      simp [configures, hacted]
    have hheartbeats : w.heartbeats id (.act id a) = c.heartbeats w.cluster w.clock a := by
      simp [heartbeats, joins, polls, part?, hacted, Consumer.heartbeats, Consumer.joins, houtcome]
    rw [hconfigures, hheartbeats]
    rcases h with ⟨r, hm, hr⟩ | hpart | ⟨_, _, _, -, -, hfails, -⟩
    · cases hm
      refine ⟨?_, Consumer.heartbeats_of_isIdle hr⟩
      cases r <;> first | rfl | cases hr
    · rw [part?_act hc] at hpart
      refine ⟨?_, ?_⟩
      · cases Consumer.carries_of_part? hpart with
        | @changed r _ _ hr => cases r <;> first | rfl | cases hr
        | proceeded => rfl
      · simp only [Consumer.heartbeats, Consumer.joins, hpart, Consumer.outcome_of_part? hpart,
          Consumer.perform_change]
        rfl
    · have hnot : (c.outcome w.cluster w.clock a).isSuccess = false := by
        rw [← houtcome, hfails]
        rfl
      refine ⟨?_, ?_⟩
      · refine Bool.eq_false_iff.2 fun hset => ?_
        obtain ⟨options, rfl, -⟩ := Consumer.session_of_configures hset
        cases hnot.symm.trans hset
      · refine Bool.eq_false_iff.2 fun hbeat => ?_
        cases hnot.symm.trans (Consumer.isSuccess_of_heartbeats hbeat)

/-- A poll finds the session expired if and only if heartbeats are manual and the last heartbeat
since the timeout was set is longer ago than that. -/
theorem session_lapses_iff (id : ConsumerId) (ms : List (Move ℓ κ)) {w : World ℓ κ}
    (hw : w = initial.run ms) {c : Consumer ℓ κ} (hc : w.consumer? id = some c)
    (hfree : c.guard.holder = none) (hopen : c.closed = false)
    (hactive : c.subscription.pending = false) :
    (w.FindsLapsed id ↔ c.behaviour.autoHeartbeat = false ∧
      ∃ v options after timeout u m rest,
        initial.IsLast (configures id) ms v (.act id (.request (.configure options))) after ∧
        options.sessionTimeout = .ok timeout ∧
        (v.after (.act id (.request (.configure options)))).IsLast (heartbeats id) after u m rest ∧
        u.clock + timeout.nanos < w.clock) ∧
      (w.FindsLapsed id → w.Lapses id c) ∧
      (¬ w.FindsLapsed id → w.Waits id (.act id (.request .poll)) c) ∧
      (∀ m, w.configures id m = false → w.heartbeats id m = false →
        (w.after m).session id = w.session id) ∧
      ∀ m, ((∃ r : Request ℓ κ, m = .act id (.request r) ∧ r.isIdle = true) ∨
          w.part? id m = some (.change .unsubscribe) ∨ w.FailsPoll id m) →
        w.configures id m = false ∧ w.heartbeats id m = false := by
  subst hw
  have henter : c.enter = .ok () := Consumer.enter_eq_ok_iff.2 ⟨hfree, hopen⟩
  have hiff := isExpired_iff hc (initial.run ms).clock
  have hidle : ∀ m, (initial.run ms).configures id m = false →
      (initial.run ms).heartbeats id m = false →
        ((initial.run ms).after m).session id = (initial.run ms).session id := by
    intro m hconfigures hheartbeats
    rw [session_after hconfigures, hheartbeats]
    rfl
  rcases poll_cases hc henter hactive with ⟨hexpired, hfinds, hlapses⟩ | ⟨hexpired, hnot, hwaits⟩
  · exact ⟨iff_of_true hfinds (hiff.1 hexpired), fun _ => hlapses, fun hnot => absurd hfinds hnot,
      hidle, fun m => heartbeats_eq_false⟩
  · have hcurrent := mt hiff.2 (Bool.eq_false_iff.1 hexpired)
    exact ⟨iff_of_false hnot hcurrent, fun hfinds => absurd hfinds hnot, fun _ => hwaits,
      hidle, fun m => heartbeats_eq_false⟩

def sampleSession : List (Move Unit Unit) :=
  [.cluster (.createTopic "t" 1), .create .manualHeartbeat,
    .act 0 (.request (.configure .standard)),
    .act 0 (.request (.subscribe (.setOf ["t"]) (some ()))), .act 0 (.request .poll),
    .act 0 .proceed]

/-- The session lapses after the two seconds, and not at their end. -/
theorem session_lapses_sample :
    ∃ w w' : World Unit Unit, w = initial.run (sampleSession ++ [.advance 2000000001]) ∧
      w' = initial.run (sampleSession ++ [.advance 2000000000]) ∧
      w.FindsLapsed 0 ∧ w.outcome (.act 0 (.request .poll)) = .progress (.tell () .revoked) ∧
      ¬ w'.FindsLapsed 0 := by
  refine ⟨_, _, rfl, rfl, ?_⟩
  have h := session_lapses_iff 0 (sampleSession ++ [.advance 2000000001]) rfl rfl rfl rfl rfl
  have hlast : initial.IsLast (configures 0) (sampleSession ++ [.advance 2000000001])
      (initial.run (sampleSession.take 2)) (.act 0 (.request (.configure .standard)))
      (sampleSession.drop 3 ++ [.advance 2000000001]) := ⟨_, rfl, rfl, by decide, by decide⟩
  have hbeat : IsLast (heartbeats 0) (initial.run (sampleSession.take 3))
      (sampleSession.drop 3 ++ [.advance 2000000001]) (initial.run (sampleSession.take 5))
      (.act 0 .proceed) [.advance 2000000001] :=
    ⟨sampleSession.drop 3 |>.take 2, rfl, rfl, by decide, by decide⟩
  have hfinds := h.1.2 ⟨rfl, _, _, _, .ofMillis 2000, _, _, _, hlast, rfl, hbeat, by decide⟩
  obtain ⟨htold, -⟩ := h.2.1 hfinds
  refine ⟨hfinds, htold, ?_⟩
  rintro (hpart | ⟨_, hpart⟩) <;> cases hpart

end World

end LogConsumer
