import LogConsumer.Proofs.HandOut
import LogConsumer.Proofs.Panic
import LogConsumer.Proofs.Replay

/-! Commits that race with operations. A due commit runs whether or not somebody holds the guard of
its consumer, and it makes no difference whether it runs before an operation or after it, as long as
nobody looks at what the commit changes or writes what it writes. Main statement:
`commit_order_immaterial`. -/
namespace LogConsumer

variable {ℓ κ : Type}

namespace Commits

/-- The queue when the next commit has run and its callback is over. -/
def settled (q : Commits κ) : Commits κ :=
  { q with running := none, timetable := q.timetable.tail, faults := ⟨q.faults.pending.tail⟩ }

def written (q : Commits κ) (commit : Commit κ) (cluster : Cluster) : Cluster :=
  if q.faults.pending = [] then cluster.commitAll commit.group commit.offsets else cluster

def result (q : Commits κ) : Except Failure Unit :=
  match q.faults.pending with
  | [] => .ok ()
  | fault :: _ => .error (.injected fault)

def counted (q : Commits κ) (commit : Commit κ) : List (Counter × Nat) :=
  if q.faults.pending = [] then [(.commits commit.group true, 1)]
  else [(.faults .commit, 1), (.commits commit.group false, 1)]

structure Awaits (q : Commits κ) (commit : Commit κ) : Prop where
  idle : q.executing = none
  next : q.waiting.head? = some commit

variable {q : Commits κ} {commit : Commit κ}

theorem Awaits.timetable_eq (h : q.Awaits commit) :
    q.running = none ∧ ∃ due, q.timetable = (commit, due) :: q.timetable.tail := by
  refine ⟨executing_eq_none_iff.1 h.idle, ?_⟩
  have hnext := h.next
  rw [waiting_of_idle h.idle] at hnext
  cases ht : q.timetable with
  | nil => simp [ht] at hnext
  | cons entry rest =>
    rw [ht] at hnext
    cases hnext
    exact ⟨entry.2, rfl⟩

theorem Awaits.start?_eq (h : q.Awaits commit) (cluster : Cluster) :
    q.start? cluster = some ⟨commit, q.result, { q.settled with running := some ⟨commit, []⟩ },
      q.written commit cluster, q.counted commit⟩ := by
  obtain ⟨hidle, due, htimetable⟩ := h.timetable_eq
  cases hfaults : q.faults.pending with
  | nil =>
    have hq : q.faults = ⟨[]⟩ := congrArg FaultQueue.mk hfaults
    simp only [start?, hidle]
    rw [htimetable]
    simp [hq, FaultQueue.pop?, settled, written, result, counted]
  | cons fault faults =>
    have hpop : q.faults.pop? = some (fault, ⟨faults⟩) := FaultQueue.pop?_eq_some_iff.2 hfaults
    simp only [start?, hidle]
    rw [htimetable]
    simp [hpop, settled, written, result, counted, hfaults]

theorem Awaits.of_start? {cluster : Cluster} {e : Execution κ} (h : q.start? cluster = some e) :
    q.Awaits e.commit := by
  obtain ⟨hexecuting, hwaiting, -⟩ := waiting_of_start? h
  exact ⟨hexecuting, by rw [hwaiting]; rfl⟩

/-- Commits that are scheduled join the queue at its end. -/
theorem Awaits.add_settled (h : q.Awaits commit) (now : Time) (added : Commit κ) :
    q.settled.add now added = (q.add now added).settled := by
  obtain ⟨hidle, due, htimetable⟩ := h.timetable_eq
  simp only [add, settled, hidle]
  rw [htimetable]
  rfl

theorem Awaits.finish_settled (h : q.Awaits commit) (now : Time) :
    q.settled.finish now = (q.finish now).settled := by
  simp [finish, settled, unseen, h.timetable_eq.1]

theorem topics_written (q : Commits κ) (commit : Commit κ) (cluster : Cluster) :
    (q.written commit cluster).topics = cluster.topics := by
  unfold written
  split
  · exact Cluster.topics_commitAll ..
  · rfl

theorem written_with_topics (q : Commits κ) (commit : Commit κ) (cluster : Cluster)
    (topics : SortedMap String (List PartitionLog)) :
    q.written commit { cluster with topics } = { q.written commit cluster with topics } := by
  unfold written
  split
  · exact Cluster.commitAll_with_topics ..
  · rfl

theorem written_congr {q' : Commits κ} (h : q'.faults = q.faults) (commit : Commit κ) :
    q'.written commit = q.written commit ∧ q'.counted commit = q.counted commit := by
  refine ⟨funext fun cluster => ?_, ?_⟩
  all_goals simp only [written, counted, h]

end Commits

/-- Whether two commits write an offset of the same partition for the same group. -/
def Commit.overlaps (commit commit' : Commit κ) : Bool :=
  decide (commit.group = commit'.group) && commit.offsets.keys.any commit'.offsets.contains

theorem Commits.written_comm {q q' : Commits κ} {commit commit' : Commit κ}
    (h : commit.overlaps commit' = false) (cluster : Cluster) :
    q.written commit (q'.written commit' cluster) = q'.written commit' (q.written commit cluster) := by
  have hapart : commit.group = commit'.group → ∀ p, commit.offsets.contains p = true →
      commit'.offsets.contains p = false := by
    intro hgroup p hp
    simp only [Commit.overlaps, hgroup, decide_true, Bool.true_and, List.any_eq_false] at h
    exact Bool.eq_false_iff.2 (h p (SortedMap.mem_keys_iff.2 hp))
  simp only [written]
  split <;> split <;> first | rfl | exact (Cluster.commitAll_comm cluster hapart).symm

namespace Cluster

variable (cluster : Cluster) (committed : SortedMap GroupPartition Int) (p : Partition)

theorem modifyLog_with_committed (f : PartitionLog → PartitionLog) :
    Cluster.modifyLog { cluster with committed } p f =
      (cluster.modifyLog p f).map ({ · with committed }) := by
  simp only [modifyLog]
  split
  · split <;> rfl
  · rfl

theorem createTopic_with_committed (name : String) (count : Int) :
    Cluster.createTopic { cluster with committed } name count =
      (cluster.createTopic name count).map ({ · with committed }) := by
  simp only [createTopic]
  split
  · rfl
  · split <;> rfl

theorem append_with_committed (e : LogEntry) :
    Cluster.append { cluster with committed } p e =
      (cluster.append p e).map fun (cluster, offset) => ({ cluster with committed }, offset) := by
  simp only [append, modifyLog_with_committed]
  cases cluster.modifyLog p _ <;> rfl

theorem appendMany_with_committed (count : Nat) :
    Cluster.appendMany { cluster with committed } p count =
      (cluster.appendMany p count).map fun (cluster, last) => ({ cluster with committed }, last) := by
  suffices hgo : ∀ n cluster last, appendMany.go p n { cluster with committed } last =
      (appendMany.go p n cluster last).map fun (cluster, last) => ({ cluster with committed }, last) from
    hgo count cluster (-1)
  intro n
  induction n with
  | zero => exact fun _ _ => rfl
  | succ n ih =>
    intro cluster last
    have hlength : Cluster.logLength { cluster with committed } p = cluster.logLength p := rfl
    simp only [appendMany.go, append_with_committed, hlength]
    cases cluster.append p (generated p (cluster.logLength p)) with
    | error e => rfl
    | ok appended => exact ih appended.1 appended.2

end Cluster

def ClusterStep.answer (cluster : Cluster) (step : ClusterStep) : Except Stop Value :=
  (step.run cluster).map Prod.fst

/-- Steps other than those about committed offsets do not depend on them, and leave them alone. -/
theorem ClusterStep.run_with_committed {step : ClusterStep}
    (hwrite : ∀ group p offset, step ≠ .commit group p offset)
    (hread : ∀ group p, step ≠ .committed group p) (cluster : Cluster)
    (committed : SortedMap GroupPartition Int) :
    step.run { cluster with committed } =
      (step.run cluster).map fun (value, cluster) => (value, { cluster with committed }) := by
  cases step with
  | createTopic name count =>
    simp only [run, Cluster.createTopic_with_committed]
    cases cluster.createTopic name count <;> rfl
  | append p entry =>
    simp only [run, Cluster.append_with_committed]
    cases cluster.append p entry <;> rfl
  | appendMany p count =>
    simp only [run, Cluster.appendMany_with_committed]
    cases cluster.appendMany p count <;> rfl
  | setLeader p leader =>
    simp only [run, Cluster.setLeader, Cluster.modifyLog_with_committed]
    cases cluster.modifyLog p _ <;> rfl
  | commit group p offset => exact absurd rfl (hwrite group p offset)
  | committed group p => exact absurd rfl (hread group p)
  | topicsMatching pattern =>
    simp only [run]
    cases Pattern.read? pattern <;> rfl
  | _ => rfl

/-- Whether an operation is about committed offsets: a poll is if it completes an assignment. -/
def Request.asksCommitted (pending : Bool) : Request ℓ κ → Bool
  | .poll => pending
  | .committed _ => true
  | _ => false

def Part.readsCommitted : Part ℓ κ → Bool
  | .activate | .serve (.committed _) => true
  | _ => false

namespace Consumer

variable {cluster cluster' : Cluster} {now : Time} {c : Consumer ℓ κ}

theorem part?_congr (h : cluster'.topics = cluster.topics) (now : Time) (c : Consumer ℓ κ)
    (a : Act ℓ κ) : c.part? cluster' now a = c.part? cluster now a := by
  obtain ⟨topics, committed⟩ := cluster
  obtain ⟨topics', committed'⟩ := cluster'
  cases h
  cases a with
  | request r => cases r <;> rfl
  | _ => rfl

theorem perform_congr (h : cluster'.topics = cluster.topics) {q : Part ℓ κ}
    (hq : q.readsCommitted = false) (now : Time) (c : Consumer ℓ κ) :
    c.perform cluster' now q = c.perform cluster now q := by
  have hcollect := Batch.collect_congr h
  obtain ⟨topics, committed⟩ := cluster
  obtain ⟨topics', committed'⟩ := cluster'
  cases h
  cases q with
  | activate => cases hq
  | fetch => simp only [perform, fetch, hcollect]
  | serve r =>
    cases r with
    | committed p => cases hq
    | _ => rfl
  | _ => rfl

def counts (cluster : Cluster) (now : Time) (c : Consumer ℓ κ) (a : Act ℓ κ) : List (Counter × Nat) :=
  match c.part? cluster now a with
  | some q => (c.perform cluster now q).counts
  | none => []

theorem outcome_eq_silent {a : Act ℓ κ} (h : c.part? cluster now a = none)
    (hstart : a ≠ .startCommit) : c.outcome cluster now a = .silent := by
  rcases outcome_of_part?_none h with hsilent | ⟨-, ha, -⟩
  · exact hsilent
  · exact absurd ha hstart

theorem act_congr {a : Act ℓ κ} (h : cluster'.topics = cluster.topics) (hstart : a ≠ .startCommit)
    (hread : ∀ q, c.part? cluster now a = some q → q.readsCommitted = false) :
    c.outcome cluster' now a = c.outcome cluster now a ∧
      c.act cluster' now a = c.act cluster now a ∧
      c.counts cluster' now a = c.counts cluster now a := by
  have hpart := part?_congr h now c a
  cases hq : c.part? cluster now a with
  | some q =>
    have hturn := perform_congr h (hread q hq) now c
    simp [outcome, act, counts, hpart, hq, hturn]
  | none =>
    have hq' := hpart.trans hq
    refine ⟨?_, ?_, by simp only [counts, hq, hq']⟩
    · rw [outcome_eq_silent hq' hstart, outcome_eq_silent hq hstart]
    · rw [act_of_part?_none hq', act_of_part?_none hq]
      cases a with
      | startCommit => exact absurd rfl hstart
      | addFault kind => cases kind <;> rfl
      | _ => rfl

def settled (c : Consumer ℓ κ) : Consumer ℓ κ := { c with commits := c.commits.settled }

theorem part?_settled (cluster : Cluster) (now : Time) (c : Consumer ℓ κ) (a : Act ℓ κ) :
    c.settled.part? cluster now a = c.part? cluster now a :=
  part?_with_queues cluster now c c.pollFaults c.commits.settled a

theorem schedule_settled {offsets : OffsetMap} {callback : Option κ} {commit : Commit κ}
    (h : c.commits.Awaits commit) :
    c.settled.schedule now offsets callback =
      { c.schedule now offsets callback with
        consumer := (c.schedule now offsets callback).consumer.settled } := by
  have hsettled : c.commits.settled.accepting = c.commits.accepting := rfl
  cases haccepting : c.commits.accepting <;>
    simp [schedule, Commits.schedule, settled, hsettled, haccepting, h.add_settled, answer]

theorem configure_settled (options : Options) (c : Consumer ℓ κ) :
    c.settled.configure options = (c.configure options).map settled := by
  have henter : c.settled.enter = c.enter := rfl
  have hauto : c.settled.behaviour = c.behaviour := rfl
  simp only [configure, henter, hauto]
  cases c.enter with
  | error e => rfl
  | ok =>
    cases c.behaviour.autoHeartbeat with
    | true => rfl
    | false => cases options.sessionTimeout <;> rfl

theorem serve_settled {commit : Commit κ} (h : c.commits.Awaits commit) (r : Request ℓ κ) :
    c.settled.serve cluster now r =
      { c.serve cluster now r with consumer := (c.serve cluster now r).consumer.settled } := by
  cases r with
  | commit | commitOffsets => exact schedule_settled h
  | configure options =>
    simp only [serve, begin, configure_settled]
    cases c.configure options <;> rfl
  | seek p offset =>
    simp only [serve, begin, settled]
    cases c.positions.seek p offset (cluster.logLength p) <;> rfl
  | _ => rfl

theorem perform_settled (cluster : Cluster) (now : Time) {commit : Commit κ}
    (h : c.commits.Awaits commit) (q : Part ℓ κ) :
    c.settled.perform cluster now q =
      { c.perform cluster now q with consumer := (c.perform cluster now q).consumer.settled } := by
  cases q with
  | serve r => exact serve_settled h r
  | change change =>
    rw [perform_change, perform_change]
    rfl
  | activate =>
    simp only [perform, activate, settled]
    cases (Positions.fillGaps cluster c.options c.subscription.assignment.keys c.positions).2 <;> rfl
  | fetch =>
    simp only [perform, fetch, settled]
    cases c.pollFaults.pop? <;> rfl
  | _ => rfl

/-- Whatever is done to a consumer while a commit waits, the same is done to it when the commit has
run: nothing else is seen or counted, and the commit waits on. -/
theorem act_settled (cluster : Cluster) (now : Time) {commit : Commit κ} {a : Act ℓ κ}
    (h : c.commits.Awaits commit) (hstart : a ≠ .startCommit) (hfaults : a.commitFaults = []) :
    c.settled.outcome cluster now a = c.outcome cluster now a ∧
      c.settled.act cluster now a = (c.act cluster now a).settled ∧
      c.settled.counts cluster now a = c.counts cluster now a ∧
      (c.act cluster now a).commits.Awaits commit ∧
      (c.act cluster now a).commits.faults = c.commits.faults := by
  have hpart := c.part?_settled cluster now a
  have hkept : (c.act cluster now a).commits.faults = c.commits.faults := by
    have hpending : (c.act cluster now a).commits.faults.pending =
        c.commits.faults.pending ++ a.commitFaults := commitFaults_act fun ha => absurd ha hstart
    rw [hfaults, List.append_nil] at hpending
    exact congrArg FaultQueue.mk hpending
  have hawaits : (c.act cluster now a).commits.Awaits commit := by
    obtain ⟨hwaiting, hexecuting⟩ := c.commits_act cluster now a
    have hnone : (c.outcome cluster now a).executed = [] :=
      (executed_outcome fun ha => absurd ha hstart).1
    rw [hnone, List.map_nil, List.nil_append] at hwaiting
    rw [hnone, h.idle] at hexecuting
    have hidle := (List.append_eq_nil_iff.1 hexecuting.symm).2
    refine ⟨Option.toList_eq_nil_iff.1 hidle, ?_⟩
    rw [← hwaiting, List.head?_append, h.next]
    rfl
  cases hq : c.part? cluster now a with
  | some q =>
    have hturn := perform_settled cluster now h q
    have hq' := hpart.trans hq
    refine ⟨?_, ?_, ?_, hawaits, hkept⟩
    · rw [outcome_of_part? hq', outcome_of_part? hq, hturn]
    · rw [act_of_part? hq', act_of_part? hq, hturn]
    · simp only [counts, hq', hq, hturn]
  | none =>
    have hq' := hpart.trans hq
    refine ⟨?_, ?_, by simp only [counts, hq', hq], hawaits, hkept⟩
    · rw [outcome_eq_silent hq' hstart, outcome_eq_silent hq hstart]
    · rw [act_of_part?_none hq', act_of_part?_none hq]
      cases a with
      | startCommit => exact absurd rfl hstart
      | addFault kind fault count =>
        cases kind with
        | poll => rfl
        | commit =>
          obtain rfl : count = 0 := (List.replicate_eq_nil_iff _).1 hfaults
          simp [undergo, settled, Commits.settled, FaultQueue.push]
      | abandon | drop =>
        have hguard : c.settled.guard = c.guard := rfl
        simp only [undergo, hguard]
        split <;> rfl
      | finishCommit => simp only [undergo, settled, h.finish_settled]
      | _ => rfl

end Consumer

inductive Sight (ℓ κ : Type)
  | outcome (o : Outcome ℓ κ)
  | answer (value : Except Stop Value)
  | handedOut (result : Except Failure ConsumerId)

namespace World

variable {u v w : World ℓ κ} {id : ConsumerId} {c : Consumer ℓ κ} {commit : Commit κ} {a : Act ℓ κ}
  {m : Move ℓ κ}

theorem after_act_eq (hc : w.consumer? id = some c) (ha : a ≠ .startCommit) :
    w.after (.act id a) =
      { w.setConsumer id (c.act w.cluster w.clock a) with
        counters := w.counters.countAll (c.counts w.cluster w.clock a) } := by
  cases hq : c.part? w.cluster w.clock a with
  | some q => simp only [after_of_part? hc hq, Consumer.act_of_part? hq, Consumer.counts, hq]
  | none =>
    have hset : { w.setConsumer id c with counters := w.counters } = w := setConsumer_self hc
    simp only [Consumer.act_of_part?_none hq, Consumer.counts, hq, Counters.countAll_nil]
    cases a with
    | request r => cases hq
    | proceed =>
      have hholder : c.guard.holder = none := Option.map_eq_none_iff.1 hq
      simp only [after, step, World.act, holder?_of_consumer hc, hholder, Consumer.undergo, hset]
    | abandon =>
      simp only [after, step, World.act, holder?_of_consumer hc, Consumer.undergo]
      split
      · exact modifyConsumer_eq hc _
      · exact hset.symm
    | startCommit => exact absurd rfl ha
    | finishCommit => exact modifyConsumer_eq hc _
    | addFault kind => cases kind <;> exact modifyConsumer_eq hc _
    | drop =>
      simp only [after, step, World.act, holder?_of_consumer hc, Consumer.undergo, Guard.isHeld]
      by_cases hheld : c.guard.holder.isSome
      · simp only [hheld, if_true]
        exact hset.symm
      · simp only [hheld]
        exact modifyConsumer_eq hc _

theorem after_startCommit (hc : w.consumer? id = some c) {e : Execution κ}
    (hs : c.commits.start? w.cluster = some e) :
    w.after (.act id .startCommit) =
      { w.setConsumer id { c with commits := e.commits } with
        cluster := e.cluster, counters := w.counters.countAll e.counts } := by
  simp only [after, step, World.act, World.startCommit, hc, hs]

/-- The next commit of a consumer runs, and its callback, if it has one, does nothing. -/
def execution (id : ConsumerId) : List (Move ℓ κ) := [.act id .startCommit, .act id .finishCommit]

theorem run_execution (hc : w.consumer? id = some c) (h : c.commits.Awaits commit) :
    w.run (execution id) =
      { w.setConsumer id c.settled with
        cluster := c.commits.written commit w.cluster
        counters := w.counters.countAll (c.commits.counted commit) } := by
  have hstarted := after_startCommit hc (h.start?_eq w.cluster)
  have hc' : (w.after (.act id .startCommit)).consumer? id =
      some { c with commits := { c.commits.settled with running := some ⟨commit, []⟩ } } := by
    rw [hstarted]
    exact consumer?_setConsumer_self hc _
  rw [execution, run_cons, run_cons, run_nil, after_act_eq (a := .finishCommit) hc' nofun, hstarted]
  simp [setConsumer, Consumer.act, Consumer.part?, Consumer.undergo, Consumer.counts,
    Consumer.settled, Commits.finish, Commits.settled, Commits.unseen]

/-- What a move may do that shows whether a commit of a consumer has run, or that is undone if it
runs later: to read committed offsets or to write one that the commit writes, to start commits of the
consumer or to put in faults for them, and to reset the counters. -/
def heeds (id : ConsumerId) (commit : Commit κ) (w : World ℓ κ) : Move ℓ κ → Bool
  | .act id' .startCommit => decide (id' = id) || (w.waiting id').head?.any commit.overlaps
  | .act id' (.addFault .commit _ _) => decide (id' = id)
  | .act id' a =>
    (w.consumer? id').any fun c => (c.part? w.cluster w.clock a).any (·.readsCommitted)
  | .cluster (.commit group p _) => decide (group = commit.group) && commit.offsets.contains p
  | .cluster (.committed ..) | .resetCounters => true
  | _ => false

def seen (w : World ℓ κ) : Move ℓ κ → Sight ℓ κ
  | .cluster step => .answer (step.answer w.cluster)
  | m => .outcome (w.outcome m)

theorem heeds_request (hc : w.consumer? id = some c) {r : Request ℓ κ}
    (hr : r.asksCommitted c.subscription.pending = false) :
    w.heeds id commit (.act id (.request r)) = false := by
  have hread : ∀ q, c.part? w.cluster w.clock (.request r) = some q → q.readsCommitted = false := by
    intro q hq
    cases Consumer.carries_of_part? hq with
    | activated _ hpending _ => cases hpending.symm.trans hr
    | served => cases r <;> first | rfl | cases hr
    | _ => rfl
  cases hq : c.part? w.cluster w.clock (.request r) with
  | none => simp [heeds, hc, hq]
  | some q => simp [heeds, hc, hq, hread q hq]

/-- `v` is what `u` is when the next commit of a consumer has run; in `u` it still waits. -/
structure Ahead (id : ConsumerId) (commit : Commit κ) (c : Consumer ℓ κ) (u v : World ℓ κ) :
    Prop where
  consumer : u.consumer? id = some c
  awaits : c.commits.Awaits commit
  consumers : v.consumers = u.consumers.set id c.settled
  cluster : v.cluster = c.commits.written commit u.cluster
  clock : v.clock = u.clock
  counters : ∀ k, v.counters.get? k = (u.counters.countAll (c.commits.counted commit)).get? k

theorem ahead_execution (hc : w.consumer? id = some c) (h : c.commits.Awaits commit) :
    Ahead id commit c w (w.run (execution id)) := by
  rw [run_execution hc h]
  exact ⟨hc, h, rfl, rfl, rfl, fun _ => rfl⟩

namespace Ahead

theorem topics (h : Ahead id commit c u v) : v.cluster.topics = u.cluster.topics := by
  rw [h.cluster, Commits.topics_written]

theorem consumer?_self (h : Ahead id commit c u v) : v.consumer? id = some c.settled := by
  have hlt : id < u.consumers.length := (List.getElem?_eq_some_iff.1 h.consumer).1
  rw [consumer?, h.consumers, List.getElem?_set_self hlt]

theorem consumer?_of_ne (h : Ahead id commit c u v) {id' : ConsumerId} (hne : id' ≠ id) :
    v.consumer? id' = u.consumer? id' := by
  rw [consumer?, h.consumers, List.getElem?_set_ne (Ne.symm hne)]
  rfl

theorem act_self (h : Ahead id commit c u v) (hm : u.heeds id commit (.act id a) = false) :
    v.outcome (.act id a) = u.outcome (.act id a) ∧
      ∃ c', c'.commits.faults = c.commits.faults ∧
        Ahead id commit c' (u.after (.act id a)) (v.after (.act id a)) := by
  have hstart : a ≠ .startCommit := by
    rintro rfl
    simp [heeds] at hm
  have hfaults : a.commitFaults = [] := by
    cases a with
    | addFault kind fault count =>
      cases kind with
      | poll => rfl
      | commit => simp [heeds] at hm
    | _ => rfl
  have hread : ∀ q, c.part? u.cluster u.clock a = some q → q.readsCommitted = false := by
    intro q hq
    cases a with
    | request | proceed => simpa [heeds, h.consumer, hq] using hm
    | _ => cases hq
  obtain ⟨houtcome, hact, hcounts, hawaits, hkept⟩ :=
    Consumer.act_settled u.cluster u.clock h.awaits hstart hfaults
  obtain ⟨houtcome', hact', hcounts'⟩ := Consumer.act_congr (c := c.settled) h.topics hstart
    (fun q hq => hread q ((c.part?_settled ..).symm.trans hq))
  obtain ⟨hwritten, hcounted⟩ := Commits.written_congr hkept commit
  refine ⟨?_, c.act u.cluster u.clock a, hkept, ?_⟩
  · rw [outcome_act h.consumer?_self, outcome_act h.consumer, h.clock, houtcome', houtcome]
  · rw [after_act_eq h.consumer?_self hstart, after_act_eq h.consumer hstart, h.clock, hact', hact,
      hcounts', hcounts]
    have hlt : id < u.consumers.length := (List.getElem?_eq_some_iff.1 h.consumer).1
    refine ⟨consumer?_setConsumer_self h.consumer _, hawaits, ?_, ?_, h.clock, fun k => ?_⟩
    · simp [setConsumer, h.consumers]
    · simp only [setConsumer, hwritten, h.cluster]
    · rw [hcounted, Counters.get?_countAll_comm]
      exact Counters.get?_countAll_congr h.counters _ k

theorem set_other (h : Ahead id commit c u v) {id' : ConsumerId} (hne : id' ≠ id)
    (d : Consumer ℓ κ) {cluster cluster' : Cluster} (hcluster : cluster' = c.commits.written commit cluster)
    (counts : List (Counter × Nat)) :
    Ahead id commit c
      { u.setConsumer id' d with cluster, counters := u.counters.countAll counts }
      { v.setConsumer id' d with cluster := cluster', counters := v.counters.countAll counts } := by
  refine ⟨?_, h.awaits, ?_, hcluster, h.clock, fun k => ?_⟩
  · exact (consumer?_setConsumer_of_ne u hne _).trans h.consumer
  · simp only [setConsumer, h.consumers]
    rw [List.set_comm _ _ hne.symm]
  · rw [Counters.get?_countAll_comm]
    exact Counters.get?_countAll_congr h.counters _ k

theorem act_other (h : Ahead id commit c u v) {id' : ConsumerId} (hne : id' ≠ id)
    (hstart : a ≠ .startCommit)
    (hread : ∀ d q, u.consumer? id' = some d → d.part? u.cluster u.clock a = some q →
      q.readsCommitted = false) :
    v.outcome (.act id' a) = u.outcome (.act id' a) ∧
      Ahead id commit c (u.after (.act id' a)) (v.after (.act id' a)) := by
  have hother := h.consumer?_of_ne hne
  cases hd : u.consumer? id' with
  | none =>
    have hd' := hother.trans hd
    simp only [outcome, after, step, act_of_none hd, act_of_none hd']
    exact ⟨trivial, h⟩
  | some d =>
    have hd' := hother.trans hd
    obtain ⟨houtcome, hact, hcounts⟩ :=
      Consumer.act_congr h.topics hstart (fun q => hread d q hd)
    refine ⟨?_, ?_⟩
    · rw [outcome_act hd', outcome_act hd, h.clock, houtcome]
    · rw [after_act_eq hd' hstart, after_act_eq hd hstart, h.clock, hact, hcounts]
      exact h.set_other hne _ h.cluster _

theorem start_other (h : Ahead id commit c u v) {id' : ConsumerId} (hne : id' ≠ id)
    (hapart : (u.waiting id').head?.any commit.overlaps = false) :
    v.outcome (.act id' .startCommit) = u.outcome (.act id' .startCommit) ∧
      Ahead id commit c (u.after (.act id' .startCommit)) (v.after (.act id' .startCommit)) := by
  have hother := h.consumer?_of_ne hne
  cases hd : u.consumer? id' with
  | none =>
    have hd' := hother.trans hd
    simp only [outcome, after, step, act_of_none hd, act_of_none hd']
    exact ⟨trivial, h⟩
  | some d =>
    have hd' := hother.trans hd
    cases hs : d.commits.start? u.cluster with
    | none =>
      have hs' : d.commits.start? v.cluster = none :=
        Commits.start?_eq_none_iff.2 (Commits.start?_eq_none_iff.1 hs)
      simp only [outcome, after, step, World.act, World.startCommit, hd, hd', hs, hs']
      exact ⟨trivial, h⟩
    | some e =>
      have hnext := Commits.Awaits.of_start? hs
      have hs := hnext.start?_eq u.cluster
      have hs' := hnext.start?_eq v.cluster
      have hoverlaps : commit.overlaps e.commit = false := by
        simpa [waiting, hd, hnext.next] using hapart
      refine ⟨?_, ?_⟩
      · rw [outcome_act hd', outcome_act hd, Consumer.outcome_startCommit hs,
          Consumer.outcome_startCommit hs']
      · rw [after_startCommit hd hs, after_startCommit hd' hs']
        refine h.set_other hne _ ?_ _
        rw [h.cluster, Commits.written_comm hoverlaps]

theorem step_cluster (h : Ahead id commit c u v) {step : ClusterStep}
    (hm : u.heeds id commit (.cluster step) = false) :
    step.answer v.cluster = step.answer u.cluster ∧
      Ahead id commit c (u.after (.cluster step)) (v.after (.cluster step)) := by
  have hset {cluster cluster' : Cluster} (hcluster : cluster' = c.commits.written commit cluster) :
      Ahead id commit c { u with cluster } { v with cluster := cluster' } :=
    ⟨h.consumer, h.awaits, h.consumers, hcluster, h.clock, h.counters⟩
  by_cases hwrite : ∃ group p offset, step = .commit group p offset
  · obtain ⟨group, p, offset, rfl⟩ := hwrite
    refine ⟨rfl, hset ?_⟩
    have hapart : commit.group = group → commit.offsets.contains p = false := by
      rintro rfl
      simpa [heeds] using hm
    rw [h.cluster]
    unfold Commits.written
    split
    · exact Cluster.commit_commitAll_comm u.cluster offset hapart
    · rfl
  · have hwrite : ∀ group p offset, step ≠ .commit group p offset :=
      fun group p offset heq => hwrite ⟨group, p, offset, heq⟩
    have hread : ∀ group p, step ≠ .committed group p := by
      rintro group p rfl
      cases hm
    have hrun : step.run v.cluster = (step.run u.cluster).map fun (value, cluster) =>
        (value, { cluster with committed := v.cluster.committed }) := by
      rw [← ClusterStep.run_with_committed hwrite hread, ← h.topics]
    simp only [ClusterStep.answer, after, World.step, stepCluster, hrun]
    cases hs : step.run u.cluster with
    | error stop => exact ⟨rfl, h⟩
    | ok result =>
      obtain ⟨value, cluster⟩ := result
      refine ⟨rfl, hset ?_⟩
      have hcommitted := Cluster.committed_step hs hwrite
      have hwritten := c.commits.written_with_topics commit u.cluster cluster.topics
      rw [← hcommitted, ← h.cluster] at hwritten
      exact hwritten.symm

/-- What is seen of a move that does not heed the commit does not tell whether it has run, and the
commit may as well run after the move. -/
theorem step (h : Ahead id commit c u v) (hm : u.heeds id commit m = false) :
    v.seen m = u.seen m ∧ ∃ c', c'.commits.faults = c.commits.faults ∧
      Ahead id commit c' (u.after m) (v.after m) := by
  cases m with
  | create b =>
    have hlt : id < u.consumers.length := (List.getElem?_eq_some_iff.1 h.consumer).1
    refine ⟨rfl, c, rfl, ?_, h.awaits, ?_, h.cluster, h.clock, h.counters⟩
    · exact consumer?_after_of_ne h.consumer nofun
    · simp only [after, World.step, create, h.consumers, List.set_append_left _ _ hlt]
  | act id' a =>
    by_cases hid : id' = id
    · subst hid
      obtain ⟨houtcome, hahead⟩ := h.act_self hm
      exact ⟨congrArg Sight.outcome houtcome, hahead⟩
    · by_cases hstart : a = .startCommit
      · subst hstart
        have hapart : (u.waiting id').head?.any commit.overlaps = false := by
          simpa [heeds, hid] using hm
        obtain ⟨houtcome, hahead⟩ := h.start_other hid hapart
        exact ⟨congrArg Sight.outcome houtcome, c, rfl, hahead⟩
      · have hread : ∀ d q, u.consumer? id' = some d → d.part? u.cluster u.clock a = some q →
            q.readsCommitted = false := by
          intro d q hd hq
          cases a with
          | request | proceed => simpa [heeds, hd, hq] using hm
          | _ => cases hq
        obtain ⟨houtcome, hahead⟩ := h.act_other hid hstart hread
        exact ⟨congrArg Sight.outcome houtcome, c, rfl, hahead⟩
  | cluster step =>
    obtain ⟨hanswer, hahead⟩ := h.step_cluster hm
    exact ⟨congrArg Sight.answer hanswer, c, rfl, hahead⟩
  | advance time =>
    refine ⟨rfl, c, rfl, h.consumer, h.awaits, h.consumers, h.cluster, ?_, h.counters⟩
    simp only [after, World.step, advance, h.clock]
  | resetCounters => cases hm

theorem consumer?_eq_map (h : Ahead id commit c u v) (id' : ConsumerId) :
    ∃ f : Consumer ℓ κ → Consumer ℓ κ, v.consumer? id' = (u.consumer? id').map f ∧
      ∀ d options, Consumer.configure options (f d) = (d.configure options).map f := by
  by_cases hid : id' = id
  · subst hid
    exact ⟨.settled, by rw [h.consumer?_self, h.consumer]; rfl,
      fun d options => d.configure_settled options⟩
  · refine ⟨fun d => d, by rw [h.consumer?_of_ne hid, Option.map_id'], fun d options => ?_⟩
    cases d.configure options <;> rfl

end Ahead

structure SameState (u v : World ℓ κ) : Prop where
  clock : u.clock = v.clock
  cluster : u.cluster = v.cluster
  consumers : u.consumers = v.consumers
  counters : ∀ k, u.counters.get? k = v.counters.get? k

theorem Ahead.sameState (h : Ahead id commit c u v) : v.SameState (u.run (execution id)) := by
  rw [run_execution h.consumer h.awaits]
  exact ⟨h.clock, h.cluster, h.consumers, h.counters⟩

end World

namespace PooledWorld

variable {s t : PooledWorld ℓ κ} {id : ConsumerId} {c : Consumer ℓ κ} {commit : Commit κ}

def seen (s : PooledWorld ℓ κ) : Deed ℓ κ → List (Sight ℓ κ)
  | .move m => [s.world.seen m]
  | .handOut pool options => [.handedOut ((s.handOut pool options).map (·.1))]
  | .makePool _ | .addToPool .. => []

def Unheeding (id : ConsumerId) (commit : Commit κ) (s : PooledWorld ℓ κ) (ds : List (Deed ℓ κ)) :
    Prop :=
  s.world.Throughout (fun w m => w.heeds id commit m = false) (s.trace ds)

instance (id : ConsumerId) (commit : Commit κ) (s : PooledWorld ℓ κ) (ds : List (Deed ℓ κ)) :
    Decidable (s.Unheeding id commit ds) :=
  inferInstanceAs (Decidable (World.Throughout ..))

theorem handOut_of_ahead (h : s.world.Ahead id commit c t.world) (hpools : t.pools = s.pools)
    (pool : Nat) (options : Options) :
    (t.handOut pool options).map (fun r => (r.1, r.2.pools)) =
      (s.handOut pool options).map (fun r => (r.1, r.2.pools)) := by
  cases hp : s.pools[pool]? with
  | none => simp only [handOut, hpools, hp]
  | some p =>
    have hp' : t.pools[pool]? = some p := by rw [hpools, hp]
    cases hfree : p.free with
    | nil => rw [handOut_of_nil hp hfree, handOut_of_nil hp' hfree]
    | cons id' rest =>
      obtain ⟨f, hf, hconfigure⟩ := h.consumer?_eq_map id'
      cases hd : s.world.consumer? id' with
      | none =>
        rw [hd] at hf
        rw [handOut_of_no_consumer hp hfree hd, handOut_of_no_consumer hp' hfree hf]
      | some d =>
        rw [hd] at hf
        rw [handOut_of_head hp hfree hd, handOut_of_head hp' hfree hf, hconfigure, hpools]
        cases d.configure options <;> rfl

theorem ahead_after (h : s.world.Ahead id commit c t.world) (hpools : t.pools = s.pools)
    {d : Deed ℓ κ} (hd : s.Unheeding id commit [d]) :
    t.seen d = s.seen d ∧ (t.after d).pools = (s.after d).pools ∧
      ∃ c', c'.commits.faults = c.commits.faults ∧
        (s.after d).world.Ahead id commit c' (t.after d).world := by
  cases d with
  | move m =>
    obtain ⟨hseen, hahead⟩ := h.step hd.1
    exact ⟨congrArg (fun x => [x]) hseen, hpools, hahead⟩
  | makePool free => exact ⟨rfl, congrArg (· ++ [Pool.ofFree free]) hpools, c, rfl, h⟩
  | addToPool pool id' => exact ⟨rfl, congrArg (·.modify pool (.add id')) hpools, c, rfl, h⟩
  | handOut pool options =>
    have hsame := handOut_of_ahead h hpools pool options
    cases hs : s.handOut pool options with
    | error e =>
      cases ht : t.handOut pool options with
      | error e' =>
        rw [hs, ht] at hsame
        cases hsame
        rw [after_of_handOut_error hs, after_of_handOut_error ht, seen, seen, hs, ht]
        exact ⟨rfl, hpools, c, rfl, h⟩
      | ok result =>
        rw [hs, ht] at hsame
        cases hsame
    | ok result =>
      obtain ⟨id', s'⟩ := result
      cases ht : t.handOut pool options with
      | error e =>
        rw [hs, ht] at hsame
        cases hsame
      | ok result' =>
        obtain ⟨id'', t'⟩ := result'
        rw [hs, ht] at hsame
        obtain ⟨rfl, hpools'⟩ : id'' = id' ∧ t'.pools = s'.pools := by
          simpa [Except.map] using hsame
        have hmoves : s.trace [.handOut pool options] =
            [.act id'' (.request (.configure options))] := by simp [trace, moves, hs]
        rw [Unheeding, hmoves] at hd
        rw [after_of_handOut_ok hs, after_of_handOut_ok ht, seen, seen, hs, ht, (handOut_eq_ok hs).2,
          (handOut_eq_ok ht).2]
        exact ⟨rfl, hpools', (h.step hd.1).2⟩

theorem unheeding_cons {d : Deed ℓ κ} {ds : List (Deed ℓ κ)} :
    s.Unheeding id commit (d :: ds) ↔
      s.Unheeding id commit [d] ∧ (s.after d).Unheeding id commit ds := by
  simp only [Unheeding, trace, gather_cons, gather_nil, List.append_nil, World.throughout_append,
    world_after]

theorem ahead_run (h : s.world.Ahead id commit c t.world) (hpools : t.pools = s.pools)
    {ds : List (Deed ℓ κ)} (hds : s.Unheeding id commit ds) :
    gather seen t ds = gather seen s ds ∧ (t.run ds).pools = (s.run ds).pools ∧
      ∃ c', c'.commits.faults = c.commits.faults ∧
        (s.run ds).world.Ahead id commit c' (t.run ds).world := by
  induction ds generalizing s t c with
  | nil => exact ⟨rfl, hpools, c, rfl, h⟩
  | cons d ds ih =>
    obtain ⟨hd, hds⟩ := unheeding_cons.1 hds
    obtain ⟨hseen, hpools', c₁, hfaults, hahead⟩ := ahead_after h hpools hd
    obtain ⟨hseen', hpools'', c₂, hfaults', hahead'⟩ := ih hahead hpools' hds
    exact ⟨by rw [gather_cons, gather_cons, hseen, hseen'], hpools'', c₂, hfaults'.trans hfaults,
      hahead'⟩

def execution (id : ConsumerId) : List (Deed ℓ κ) := (World.execution id).map .move

theorem run_execution (id : ConsumerId) (s : PooledWorld ℓ κ) :
    s.run (execution id) = { s with world := s.world.run (World.execution id) } := rfl

/-- A commit may run before an operation or after it, with the same answers and the same end, if
nothing that is done until the operation is over heeds whether it has run. -/
theorem commit_order_immaterial {s : PooledWorld ℓ κ} {id : ConsumerId} {c : Consumer ℓ κ}
    {commit : Commit κ} (hc : s.world.consumer? id = some c) (h : c.commits.Awaits commit)
    {r : Request ℓ κ} (hr : r.asksCommitted c.subscription.pending = false) {ds : List (Deed ℓ κ)}
    (hds : (s.after (.move (.act id (.request r)))).Unheeding id commit ds)
    {operation : List (Deed ℓ κ)} (hoperation : operation = .move (.act id (.request r)) :: ds) :
    gather seen (s.run (execution id)) operation = gather seen s operation ∧
      (∀ t, t = s ∨ t = s.run operation →
        t.world.outcome (.act id .startCommit) = .committed commit c.commits.result) ∧
      ((s.run (execution id)).run operation).pools = ((s.run operation).run (execution id)).pools ∧
      ((s.run (execution id)).run operation).world.SameState
        ((s.run operation).run (execution id)).world := by
  subst hoperation
  have hrequest : s.Unheeding id commit [.move (.act id (.request r))] :=
    ⟨World.heeds_request hc hr, trivial⟩
  have hstart {t : PooledWorld ℓ κ} {d : Consumer ℓ κ} (hd : t.world.consumer? id = some d)
      (hnext : d.commits.Awaits commit) (hfaults : d.commits.faults = c.commits.faults) :
      t.world.outcome (.act id .startCommit) = .committed commit c.commits.result := by
    rw [World.outcome_act hd, Consumer.outcome_startCommit (hnext.start?_eq _), Commits.result,
      Commits.result, hfaults]
  obtain ⟨hseen, hpools, c', hfaults, hahead⟩ :=
    ahead_run (t := s.run (execution id)) (World.ahead_execution hc h) rfl
      (unheeding_cons.2 ⟨hrequest, hds⟩)
  refine ⟨hseen, ?_, hpools, hahead.sameState⟩
  rintro t (rfl | rfl)
  · exact hstart hc h rfl
  · exact hstart hahead.consumer hahead.awaits hfaults

def sampleRacing : PooledWorld Unit Unit :=
  initial.run [.move (.cluster (.createTopic "t" 1)), .move (.create .standard),
    .move (.act 0 (.request (.subscribe (.setOf ["t"]) (some ())))),
    .move (.act 0 (.request .poll)), .move (.act 0 .proceed),
    .move (.act 0 (.request (.commitOffsets (.ofList [(⟨"t", 0⟩, 3)]) none))),
    .move (.advance 10000000)]

def sampleRacer : Commit Unit := ⟨"", .ofList [(⟨"t", 0⟩, 3)], none⟩

def sampleUnsubscribe (does : Move Unit Unit) : List (Deed Unit Unit) :=
  [.move (.act 0 (.request .unsubscribe)), .move does, .move (.act 0 .proceed)]

theorem awaits_sampleRacer :
    ∃ c, sampleRacing.world.consumer? 0 = some c ∧ c.commits.Awaits sampleRacer :=
  ⟨_, rfl, rfl, rfl⟩

theorem commit_order_immaterial_sample :
    sampleRacing.world.nextDue? sampleRacing.world.clock = some (0, 10000000) ∧
      sampleRacer.callback = none ∧
      ∀ operation, operation = sampleUnsubscribe (.cluster (.appendMany ⟨"t", 0⟩ 1)) →
        gather seen (sampleRacing.run (execution 0)) operation =
            [.outcome (.progress (.tell () .revoked)), .answer (.ok (.number 0)),
              .outcome (.progress (.answered (.ok .done)))] ∧
          ((sampleRacing.run (execution 0)).run operation).world.SameState
            ((sampleRacing.run operation).run (execution 0)).world := by
  refine ⟨by decide, rfl, fun operation hoperation => ?_⟩
  obtain ⟨c, hc, hnext⟩ := awaits_sampleRacer
  have hunheeding : (sampleRacing.after (.move (.act 0 (.request .unsubscribe)))).Unheeding 0
      sampleRacer [.move (.cluster (.appendMany ⟨"t", 0⟩ 1)), .move (.act 0 .proceed)] := by decide
  obtain ⟨hseen, -, -, hsame⟩ := commit_order_immaterial hc hnext rfl hunheeding hoperation
  rw [hoperation] at hseen ⊢
  exact ⟨hseen.trans rfl, hoperation ▸ hsame⟩

/-- A listener that writes the offset which the commit writes has the last word if the commit runs
before, and has not if the commit runs after. -/
theorem commit_order_matters_to_writers :
    (∃ c, sampleRacing.world.consumer? 0 = some c ∧ c.commits.Awaits sampleRacer) ∧
      sampleRacing.world.nextDue? sampleRacing.world.clock = some (0, 10000000) ∧
      sampleRacer.callback = none ∧
      sampleRacing.world.outcome (.act 0 (.request .unsubscribe)) = .progress (.tell () .revoked) ∧
      ∀ operation, operation = sampleUnsubscribe (.cluster (.commit "" ⟨"t", 0⟩ 5)) →
        ((sampleRacing.run (execution 0)).run operation).world.cluster.committedOffset? "" ⟨"t", 0⟩ =
            some 5 ∧
          ((sampleRacing.run operation).run (execution 0)).world.cluster.committedOffset? ""
            ⟨"t", 0⟩ = some 3 := by
  refine ⟨awaits_sampleRacer, by decide, rfl, rfl, ?_⟩
  rintro operation rfl
  exact ⟨by decide, by decide⟩

end PooledWorld

end LogConsumer
