import LogConsumer.Proofs.Racing
import Mathlib.Algebra.BigOperators.Group.Finset.Basic
import Mathlib.Algebra.GroupWithZero.Nat

/-! What the counters stand for. Each move counts what is seen of it and nothing else, so that after
a run a counter has come to the number of the things seen that it stands for. Main statement:
`counters_agree`. -/
namespace LogConsumer

variable {ℓ κ : Type}

inductive Revocation
  | subscribe
  | assign
  | unsubscribe
  | expiry
deriving DecidableEq

def Revocation.reason : Revocation → String
  | subscribe => "subscribe"
  | assign => "assign"
  | unsubscribe => "unsubscribe"
  | expiry => "session_expired"

def Change.revocation : Change ℓ → Revocation
  | .subscribe .. => .subscribe
  | .assign _ => .assign
  | .unsubscribe => .unsubscribe

theorem Change.reason_revocation (change : Change ℓ) :
    change.revocation.reason = change.reason := by cases change <;> rfl

def Part.revocation? : Part ℓ κ → Option Revocation
  | .change made => some made.revocation
  | .expire => some .expiry
  | _ => none

namespace Counter

/-- What is counted of a poll that returns a batch. -/
def ofPoll (e : String × Batch) : List (Counter × Nat) :=
  [(.polls e.1, 1), (.recordsPolled e.1, e.2.count)]

def ofPollFault (_ : Fault) : List (Counter × Nat) := [(.faults .poll, 1)]

def failed (e : Commit κ × Except Failure Unit) : Bool := (Commit.fault? e).isSome

def ofCommit (e : Commit κ × Except Failure Unit) : List (Counter × Nat) :=
  (if e.2.isOk then [(.commits e.1.group true, 1)] else []) ++
    if failed e then [(.faults .commit, 1), (.commits e.1.group false, 1)] else []

def ofActivation (group : String) : List (Counter × Nat) := [(.rebalances group "assign", 1)]

def ofRevocation (e : String × Revocation) : List (Counter × Nat) :=
  [(.rebalances e.1 e.2.reason, 1)]

section Amounts

variable (k : Counter)

theorem amount_ofPoll (es : List (String × Batch)) :
    Counters.amount k (es.flatMap ofPoll) =
      match k with
      | polls group => es.countP (·.1 = group)
      | recordsPolled group => ((es.filter (·.1 = group)).map (·.2.count)).sum
      | _ => 0 := by
  induction es with
  | nil => cases k <;> rfl
  | cons e es ih =>
    rw [List.flatMap_cons, Counters.amount_append, ih]
    cases k with
    | polls group => simp [ofPoll, List.countP_cons, Nat.add_comm]
    | recordsPolled group => by_cases h : e.1 = group <;> simp [ofPoll, h]
    | _ => simp [ofPoll]

theorem amount_ofPollFault (faults : List Fault) :
    Counters.amount k (faults.flatMap ofPollFault) =
      if k = Counter.faults .poll then faults.length else 0 := by
  induction faults with
  | nil => simp
  | cons fault faults ih =>
    rw [List.flatMap_cons, Counters.amount_append, ih]
    by_cases h : k = Counter.faults .poll
    · simp [ofPollFault, h, Nat.add_comm]
    · simp [ofPollFault, h, Ne.symm h]

theorem amount_ofCommit (es : List (Commit κ × Except Failure Unit)) :
    Counters.amount k (es.flatMap ofCommit) =
      match k with
      | commits group true => es.countP fun e => e.1.group = group && e.2.isOk
      | commits group false => es.countP fun e => e.1.group = group && failed e
      | faults .commit => es.countP failed
      | _ => 0 := by
  induction es with
  | nil => rcases k with _ | _ | ⟨_, _ | _⟩ | ⟨_ | _⟩ | _ <;> rfl
  | cons e es ih =>
    rw [List.flatMap_cons, Counters.amount_append, ih]
    rcases k with _ | _ | ⟨_, _ | _⟩ | ⟨_ | _⟩ | _
    all_goals
      cases hok : e.2.isOk <;> cases hfailed : failed e <;>
        simp [ofCommit, hok, hfailed, Nat.add_comm, List.countP_cons]

theorem amount_ofActivation (groups : List String) :
    Counters.amount k (groups.flatMap ofActivation) =
      match k with
      | rebalances group reason => if reason = "assign" then groups.count group else 0
      | _ => 0 := by
  induction groups with
  | nil => cases k <;> simp
  | cons group groups ih =>
    rw [List.flatMap_cons, Counters.amount_append, ih]
    cases k with
    | rebalances group' reason =>
      by_cases hreason : reason = "assign"
      · simp [ofActivation, hreason, List.count_cons, Nat.add_comm]
      · simp [ofActivation, hreason, Ne.symm hreason]
    | _ => simp [ofActivation]

theorem amount_ofRevocation (es : List (String × Revocation)) :
    Counters.amount k (es.flatMap ofRevocation) =
      match k with
      | rebalances group reason => es.countP fun e => e.1 = group && e.2.reason = reason
      | _ => 0 := by
  induction es with
  | nil => cases k <;> rfl
  | cons e es ih =>
    rw [List.flatMap_cons, Counters.amount_append, ih]
    cases k with
    | rebalances group reason => simp [ofRevocation, List.countP_cons, Nat.add_comm]
    | _ => simp [ofRevocation]

end Amounts

end Counter

namespace Consumer

/-- The batch that a poll returns, with the group of the consumer. A poll that completes an
assignment reads nothing and is left out. -/
def polled (cluster : Cluster) (now : Time) (c : Consumer ℓ κ) (a : Act ℓ κ) :
    List (String × Batch) :=
  if c.activates cluster now a then []
  else (c.outcome cluster now a).batch?.toList.map (c.options.group, ·)

def activated (cluster : Cluster) (now : Time) (c : Consumer ℓ κ) (a : Act ℓ κ) : List String :=
  if c.activates cluster now a then [c.options.group] else []

def revoked (cluster : Cluster) (now : Time) (c : Consumer ℓ κ) (a : Act ℓ κ) :
    List (String × Revocation) :=
  if c.subscription.assignment.isEmpty then []
  else ((c.part? cluster now a).bind (·.revocation?)).toList.map (c.options.group, ·)

def counted (cluster : Cluster) (now : Time) (c : Consumer ℓ κ) (a : Act ℓ κ) :
    List (Counter × Nat) :=
  match a with
  | .startCommit => ((c.commits.start? cluster).map (·.counts)).getD []
  | a => c.counts cluster now a

variable {cluster : Cluster} {now : Time} {c : Consumer ℓ κ} {a : Act ℓ κ}

theorem counted_of_ne (h : a ≠ .startCommit) :
    c.counted cluster now a = c.counts cluster now a := by
  cases a with
  | startCommit => exact absurd rfl h
  | _ => rfl

theorem counts_start? {e : Execution κ} (h : c.commits.start? cluster = some e) :
    e.counts = Counter.ofCommit (e.commit, e.result) := by
  unfold Commits.start? at h
  split at h
  next => split at h <;> cases h <;> rfl
  next => cases h

theorem counts_revoke (c : Consumer ℓ κ) (r : Revocation) :
    (c.revoke r.reason).2 =
      (if c.subscription.assignment.isEmpty then [] else [(c.options.group, r)]).flatMap
        Counter.ofRevocation := by
  simp only [revoke]
  split <;> rfl

section Part

variable {q : Part ℓ κ} (hq : c.part? cluster now a = some q)
include hq

theorem revoked_of_part? :
    c.revoked cluster now a =
      if c.subscription.assignment.isEmpty then []
      else q.revocation?.toList.map (c.options.group, ·) := by
  simp [revoked, hq]

theorem revoked_eq_nil (h : q.revocation? = none) : c.revoked cluster now a = [] := by
  simp [revoked, hq, h]

theorem seen_of_not_activation (h : q.isActivation = false) :
    c.activated cluster now a = [] ∧
      c.polled cluster now a =
        (c.outcome cluster now a).batch?.toList.map (c.options.group, ·) := by
  simp [activated, polled, activates, hq, h]

theorem counts_perform (hfetch : q ≠ .fetch) :
    (c.perform cluster now q).counts =
        (c.activated cluster now a).flatMap Counter.ofActivation ++
          (c.revoked cluster now a).flatMap Counter.ofRevocation ∧
      c.polled cluster now a = [] := by
  have houtcome := outcome_of_part? hq
  cases q with
  | change change =>
    have ⟨hactivated, hpolled⟩ := seen_of_not_activation hq rfl
    rw [perform_change] at houtcome ⊢
    rw [hactivated, hpolled, houtcome, revoked_of_part? hq, ← change.reason_revocation,
      counts_revoke]
    exact ⟨rfl, rfl⟩
  | expire =>
    have ⟨hactivated, hpolled⟩ := seen_of_not_activation hq rfl
    have hcounts : (c.perform cluster now .expire).counts = (c.revoke Revocation.expiry.reason).2 :=
      rfl
    rw [hcounts, hactivated, hpolled, houtcome, revoked_of_part? hq, counts_revoke]
    exact ⟨rfl, rfl⟩
  | activate =>
    rw [revoked_eq_nil hq rfl]
    obtain ⟨_, _, -, ⟨-, heq⟩ | ⟨_, -, heq⟩⟩ := perform_activate_cases cluster now c
    all_goals
      rw [heq] at houtcome ⊢
      simp [polled, activated, activates, hq, houtcome, Part.isActivation, Outcome.isSuccess,
        Outcome.batch?, Counter.ofActivation]
  | fetch => exact absurd rfl hfetch
  | serve r =>
    have ⟨hactivated, hpolled⟩ := seen_of_not_activation hq rfl
    rw [revoked_eq_nil hq rfl, hactivated, hpolled, houtcome, perform_serve]
    rcases serve_cases cluster now c r with ⟨_, _, _, _, _, _, heq, hbatch⟩ | ⟨_, heq⟩
    · rw [heq, hbatch]
      exact ⟨rfl, rfl⟩
    · rw [heq]
      exact ⟨rfl, rfl⟩
  | _ =>
    have ⟨hactivated, hpolled⟩ := seen_of_not_activation hq rfl
    rw [revoked_eq_nil hq rfl, hactivated, hpolled, houtcome]
    exact ⟨rfl, rfl⟩

theorem counts_fetch (hfetch : q = .fetch) :
    (c.perform cluster now q).counts =
        (c.polled cluster now a).flatMap Counter.ofPoll ++
          (c.outcome cluster now a).injected?.toList.flatMap Counter.ofPollFault ∧
      c.activated cluster now a = [] ∧ c.revoked cluster now a = [] := by
  subst hfetch
  have houtcome := outcome_of_part? hq
  have ⟨hactivated, hpolled⟩ := seen_of_not_activation hq rfl
  rw [hpolled]
  rcases perform_fetch_cases cluster now c with ⟨_, _, -, heq⟩ | ⟨_, _, -, -, heq⟩
  all_goals
    rw [heq] at houtcome ⊢
    rw [houtcome]
    exact ⟨rfl, hactivated, revoked_eq_nil hq rfl⟩

end Part

/-- An act counts what is seen of it. -/
theorem counted_eq (cluster : Cluster) (now : Time) (c : Consumer ℓ κ) (a : Act ℓ κ) :
    c.counted cluster now a =
      (c.polled cluster now a).flatMap Counter.ofPoll ++
        (c.outcome cluster now a).injected?.toList.flatMap Counter.ofPollFault ++
        (c.outcome cluster now a).executed.flatMap Counter.ofCommit ++
        (c.activated cluster now a).flatMap Counter.ofActivation ++
        (c.revoked cluster now a).flatMap Counter.ofRevocation := by
  cases hq : c.part? cluster now a with
  | none =>
    have hactivates : c.activates cluster now a = false := by simp [activates, hq]
    simp only [polled, activated, revoked, hactivates, hq]
    cases a with
    | startCommit =>
      cases hs : c.commits.start? cluster with
      | none => simp [counted, hs, outcome, hq, Outcome.batch?, Outcome.injected?, Outcome.executed]
      | some e =>
        rw [outcome_startCommit hs]
        simp [counted, hs, counts_start? hs, Outcome.batch?, Outcome.injected?, Outcome.executed]
    | _ =>
      simp [counted, counts, hq, outcome, Outcome.batch?, Outcome.injected?, Outcome.executed]
  | some q =>
    have hcounted : c.counted cluster now a = (c.perform cluster now q).counts := by
      rw [counted_of_ne (by rintro rfl; cases hq), counts, hq]
    have hexecuted : (c.outcome cluster now a).executed = [] := by
      rw [outcome_of_part? hq]
      rfl
    rw [hcounted, hexecuted]
    by_cases hfetch : q = .fetch
    · obtain ⟨hcounts, hactivated, hrevoked⟩ := counts_fetch hq hfetch
      simp [hcounts, hactivated, hrevoked]
    · obtain ⟨hcounts, hpolled⟩ := counts_perform hq hfetch
      have hpart : c.part? cluster now a ≠ some .fetch := by simpa [hq] using hfetch
      simp [hcounts, hpolled, (pollFaults_act hpart).1]

end Consumer

/-- Whether a move sets the counters back to zero. -/
def Move.resets : Move ℓ κ → Bool
  | .resetCounters => true
  | _ => false

namespace World

variable {w : World ℓ κ} {m : Move ℓ κ} {ms : List (Move ℓ κ)}

/-- What `f` tells of the consumer that a move acts on. -/
def ofActor {α : Type} (f : Cluster → Time → Consumer ℓ κ → Act ℓ κ → List α) (w : World ℓ κ)
    (m : Move ℓ κ) : List α :=
  match m with
  | .act id a => ((w.consumer? id).map fun c => f w.cluster w.clock c a).getD []
  | _ => []

def polled : World ℓ κ → Move ℓ κ → List (String × Batch) := ofActor Consumer.polled

def activated : World ℓ κ → Move ℓ κ → List String := ofActor Consumer.activated

def revoked : World ℓ κ → Move ℓ κ → List (String × Revocation) := ofActor Consumer.revoked

def pollsFailed (w : World ℓ κ) (m : Move ℓ κ) : List Fault := (w.outcome m).injected?.toList

/-- The commits of any consumer that run, with their results. A commit has run when its callback is
called, however that ends. -/
def commitsRun (w : World ℓ κ) (m : Move ℓ κ) : List (Commit κ × Except Failure Unit) :=
  (w.outcome m).executed

def counted : World ℓ κ → Move ℓ κ → List (Counter × Nat) := ofActor Consumer.counted

theorem seen_of_no_consumer {id : ConsumerId} (hc : w.consumer? id = none) (a : Act ℓ κ) :
    (w.outcome (.act id a)).injected? = none ∧ (w.outcome (.act id a)).executed = [] := by
  rw [outcome, step, act_of_none hc]
  cases a <;> exact ⟨rfl, rfl⟩

theorem counted_eq (w : World ℓ κ) (m : Move ℓ κ) :
    w.counted m =
      (w.polled m).flatMap Counter.ofPoll ++ (w.pollsFailed m).flatMap Counter.ofPollFault ++
        (w.commitsRun m).flatMap Counter.ofCommit ++
        (w.activated m).flatMap Counter.ofActivation ++
        (w.revoked m).flatMap Counter.ofRevocation := by
  cases m with
  | act id a =>
    cases hc : w.consumer? id with
    | none =>
      simp [counted, polled, activated, revoked, ofActor, pollsFailed, commitsRun, hc,
        seen_of_no_consumer hc a]
    | some c =>
      simp [counted, polled, activated, revoked, ofActor, pollsFailed, commitsRun, hc,
        outcome_act hc, Consumer.counted_eq]
  | _ => rfl

theorem counters_after (h : m.resets = false) :
    (w.after m).counters = w.counters.countAll (w.counted m) := by
  cases m with
  | resetCounters => cases h
  | act id a =>
    cases hc : w.consumer? id with
    | none =>
      rw [after, step, act_of_none hc]
      simp [counted, ofActor, hc]
    | some c =>
      have hcounted : w.counted (.act id a) = c.counted w.cluster w.clock a := by
        simp [counted, ofActor, hc]
      rw [hcounted]
      by_cases ha : a = .startCommit
      · subst ha
        cases hs : c.commits.start? w.cluster with
        | none => simp [after, step, act, startCommit, hc, hs, Consumer.counted]
        | some e => simp [after_startCommit hc hs, Consumer.counted, hs]
      · rw [after_act_eq hc ha, Consumer.counted_of_ne ha]
  | cluster step =>
    simp only [after, World.step, stepCluster]
    split <;> rfl
  | _ => rfl

theorem counters_run (h : ∀ m ∈ ms, m.resets = false) :
    (w.run ms).counters = w.counters.countAll (collect counted w ms) := by
  induction ms generalizing w with
  | nil => rfl
  | cons m ms ih =>
    have ⟨hm, hms⟩ := List.forall_mem_cons.1 h
    rw [run_cons, ih hms, counters_after hm, collect_cons, Counters.countAll_append]

theorem amount_run (k : Counter) (w : World ℓ κ) (ms : List (Move ℓ κ)) :
    Counters.amount k (collect counted w ms) =
      Counters.amount k ((collect polled w ms).flatMap Counter.ofPoll) +
        Counters.amount k ((collect pollsFailed w ms).flatMap Counter.ofPollFault) +
        Counters.amount k ((collect commitsRun w ms).flatMap Counter.ofCommit) +
        Counters.amount k ((collect activated w ms).flatMap Counter.ofActivation) +
        Counters.amount k ((collect revoked w ms).flatMap Counter.ofRevocation) := by
  induction ms generalizing w with
  | nil => rfl
  | cons m ms ih =>
    simp only [collect_cons, List.flatMap_append, Counters.amount_append, counted_eq, ih]
    omega

/-- The number of things seen in a run that a counter stands for. -/
def due (w : World ℓ κ) (ms : List (Move ℓ κ)) : Counter → Nat
  | .polls group => (collect polled w ms).countP (·.1 = group)
  | .recordsPolled group => (((collect polled w ms).filter (·.1 = group)).map (·.2.count)).sum
  | .faults .poll => (collect pollsFailed w ms).length
  | .faults .commit => (collect commitsRun w ms).countP Counter.failed
  | .commits group true => (collect commitsRun w ms).countP fun e => e.1.group = group && e.2.isOk
  | .commits group false =>
    (collect commitsRun w ms).countP fun e => e.1.group = group && Counter.failed e
  | .rebalances group reason =>
    (if reason = "assign" then (collect activated w ms).count group else 0) +
      (collect revoked w ms).countP fun e => e.1 = group && e.2.reason = reason

/-- A counter grows by what it stands for. -/
theorem total_run (h : ∀ m ∈ ms, m.resets = false) (k : Counter) :
    (w.run ms).counters.total k = w.counters.total k + w.due ms k := by
  rw [counters_run h, Counters.total_countAll, amount_run]
  simp only [Counter.amount_ofPoll, Counter.amount_ofPollFault, Counter.amount_ofCommit,
    Counter.amount_ofActivation, Counter.amount_ofRevocation]
  rcases k with _ | _ | ⟨_, _ | _⟩ | ⟨_ | _⟩ | _ <;> simp [due]

theorem total_run_of_zero (hzero : w.counters = .zero) (h : ∀ m ∈ ms, m.resets = false)
    (k : Counter) : (w.run ms).counters.total k = w.due ms k := by
  rw [total_run h, hzero]
  exact Nat.zero_add _

theorem countP_failed_eq_sum (es : List (Commit κ × Except Failure Unit)) :
    ∃ groups : Finset String,
      (∀ group ∉ groups, (es.countP fun e => e.1.group = group && Counter.failed e) = 0) ∧
        es.countP Counter.failed =
          ∑ group ∈ groups, es.countP fun e => e.1.group = group && Counter.failed e := by
  have hcount (group : String) : (es.countP fun e => e.1.group = group && Counter.failed e) =
      ((es.filter Counter.failed).map (·.1.group)).count group := by
    rw [List.count, List.countP_map, List.countP_filter]
    rfl
  refine ⟨((es.filter Counter.failed).map (·.1.group)).toFinset, fun group hgroup => ?_, ?_⟩
  · rw [hcount]
    exact List.count_eq_zero_of_not_mem fun hmem => hgroup (List.mem_toFinset.2 hmem)
  · simp only [hcount]
    rw [List.sum_toFinset_count_eq_length, List.length_map, List.countP_eq_length_filter]

theorem exists_executed {e : Commit κ × Except Failure Unit} (he : e ∈ w.commitsRun m) :
    ∃ id, e ∈ w.executed id m := by
  cases m with
  | act id a =>
    cases hc : w.consumer? id with
    | none =>
      rw [commitsRun, (seen_of_no_consumer hc a).2] at he
      cases he
    | some c =>
      refine ⟨id, ?_⟩
      rwa [executed, acted?_act hc, Option.isSome_some, if_pos rfl]
  | _ => cases he

theorem group?_of_accepted {id : ConsumerId} {commit : Commit κ} (h : commit ∈ w.accepted id m) :
    w.group? id = some commit.group := by
  rcases acceptsOne_or id w m with ⟨c, r, commit', hc, -, -, hone, hcaptures⟩ | ⟨hnone, -⟩
  · rw [hone, List.mem_singleton] at h
    have hgroup : commit'.group = c.options.group := by
      cases r <;> first | exact hcaptures.1 | cases hcaptures
    simp [group?, hc, h, hgroup]
  · rw [hnone] at h
    cases h

/-- A commit that runs was waiting before, or has been accepted in the run for the group that its
consumer had then. -/
theorem captured_of_commitsRun {e : Commit κ × Except Failure Unit}
    (he : e ∈ collect commitsRun w ms) :
    ∃ id, e.1 ∈ w.waiting id ∨
      ∃ before m rest, ms = before ++ m :: rest ∧ e.1 ∈ (w.run before).accepted id m ∧
        (w.run before).group? id = some e.1.group := by
  obtain ⟨before, m, rest, rfl, hran⟩ := mem_collect_iff.1 he
  obtain ⟨id, hexecuted⟩ := exists_executed hran
  have hmem : e.1 ∈ w.waiting id ++ collect (accepted id) w (before ++ m :: rest) := by
    rw [(ledger_run id w _).1]
    refine List.mem_append_left _ (List.mem_map.2 ⟨e, ?_, rfl⟩)
    exact mem_collect_iff.2 ⟨before, m, rest, rfl, hexecuted⟩
  refine ⟨id, (List.mem_append.1 hmem).imp_right fun haccepted => ?_⟩
  obtain ⟨before', m', rest', hms, haccepted⟩ := mem_collect_iff.1 haccepted
  exact ⟨before', m', rest', hms, haccepted, group?_of_accepted haccepted⟩

/-- From counters at zero on, each counter is the number of what has been seen: polls and their
records by group, commits by the group for which they were accepted, and faults. -/
theorem counters_agree (hzero : w.counters = .zero) (h : ∀ m ∈ ms, m.resets = false) :
    (∀ group,
      (w.run ms).counters.total (.polls group) =
          (collect polled w ms).countP (·.1 = group) ∧
        (w.run ms).counters.total (.recordsPolled group) =
          (((collect polled w ms).filter (·.1 = group)).map (·.2.count)).sum ∧
        (w.run ms).counters.total (.commits group true) =
          ((collect commitsRun w ms).countP fun e => e.1.group = group && e.2.isOk) ∧
        (w.run ms).counters.total (.commits group false) =
          (collect commitsRun w ms).countP fun e =>
            e.1.group = group && (Commit.fault? e).isSome) ∧
      (w.run ms).counters.total (.faults .poll) = (collect pollsFailed w ms).length ∧
      (∃ groups : Finset String,
        (∀ group ∉ groups, (w.run ms).counters.total (.commits group false) = 0) ∧
          (w.run ms).counters.total (.faults .commit) =
            ∑ group ∈ groups, (w.run ms).counters.total (.commits group false)) ∧
      ∀ e ∈ collect commitsRun w ms, ∃ id, e.1 ∈ w.waiting id ∨
        ∃ before m rest, ms = before ++ m :: rest ∧ e.1 ∈ (w.run before).accepted id m ∧
          (w.run before).group? id = some e.1.group := by
  have htotal := total_run_of_zero hzero h
  refine ⟨fun group => ⟨htotal _, htotal _, htotal _, htotal _⟩, htotal _, ?_,
    fun e he => captured_of_commitsRun he⟩
  simp only [htotal]
  exact countP_failed_eq_sum _

/-- A record is polled and a commit scheduled for the group "g". The consumer then polls for "h",
twice, as the first poll fails, and so does the commit. -/
def sampleCounted : List (Move Unit Unit) :=
  [.cluster (.createTopic "t" 1), .cluster (.appendMany ⟨"t", 0⟩ 1), .create .standard,
    .act 0 (.request (.configure ((Options.ofGroup "g").withOffsetReset "earliest"))),
    .act 0 (.request (.assign (.setOf [⟨"t", 0⟩]))), .act 0 (.request .poll),
    .act 0 (.request .poll), .act 0 .proceed, .act 0 (.request (.commit (some ()))),
    .act 0 (.request (.configure (.ofGroup "h"))),
    .act 0 (.addFault .poll ⟨.requestTimedOut, "late"⟩ 1),
    .act 0 (.addFault .commit ⟨.requestTimedOut, "late"⟩ 1),
    .act 0 (.request .poll), .act 0 .proceed, .act 0 (.request .poll), .act 0 .proceed,
    .act 0 .startCommit, .act 0 .finishCommit]

theorem counters_agree_sample :
    (initial : World Unit Unit).counters = .zero ∧ (∀ m ∈ sampleCounted, m.resets = false) ∧
      (initial.run sampleCounted).counters.total (.polls "g") = 1 ∧
      (initial.run sampleCounted).counters.total (.recordsPolled "g") = 1 ∧
      (initial.run sampleCounted).counters.total (.polls "h") = 1 ∧
      (initial.run sampleCounted).counters.total (.recordsPolled "h") = 0 ∧
      (initial.run sampleCounted).counters.total (.commits "g" false) = 1 ∧
      (initial.run sampleCounted).counters.total (.commits "h" true) = 0 ∧
      (initial.run sampleCounted).counters.total (.faults .poll) = 1 := by
  have hresets : ∀ m ∈ sampleCounted, m.resets = false := by decide
  obtain ⟨hgroup, hfaults, -, -⟩ := counters_agree (w := initial) rfl hresets
  obtain ⟨hpolls, hrecords, -, hfailed⟩ := hgroup "g"
  obtain ⟨hpolls', hrecords', hsucceeded, -⟩ := hgroup "h"
  exact ⟨rfl, hresets, hpolls.trans (by decide), hrecords.trans (by decide),
    hpolls'.trans (by decide), hrecords'.trans (by decide), hfailed.trans (by decide),
    hsucceeded.trans (by decide), hfaults.trans (by decide)⟩

end World

end LogConsumer
