import LogConsumer.Proofs.Part
import LogConsumer.Pool

/-! Other listeners and callbacks in the places of those there are. Consumers keep listeners and
callbacks and give them back, and never look into them, so that a world with others in their places goes
on in the same way. The same holds of the paused partitions, as long as nobody pauses or resumes any. -/
namespace LogConsumer

/-- What listeners, callbacks and sets of paused partitions become. -/
structure Recast (ℓ κ ℓ' κ' : Type) where
  listener : ℓ → ℓ'
  callback : κ → κ'
  paused : SortedSet Partition → SortedSet Partition
  paused_empty : paused .empty = .empty

variable {ℓ κ ℓ' κ' : Type}

def Mode.map (f : ℓ → ℓ') : Mode ℓ → Mode ℓ'
  | unassigned => unassigned
  | subscribed topics listener => subscribed topics (listener.map f)
  | assigned => assigned

def Change.map (f : ℓ → ℓ') : Change ℓ → Change ℓ'
  | subscribe topics listener => subscribe topics (listener.map f)
  | assign partitions => assign partitions
  | unsubscribe => unsubscribe

def Activity.map (f : ℓ → ℓ') : Activity ℓ → Activity ℓ'
  | changing change => changing (change.map f)
  | expiring => expiring
  | activating => activating
  | fetching => fetching
  | closing => closing

def Progress.map (f : ℓ → ℓ') : Progress ℓ → Progress ℓ'
  | answered result => answered result
  | tell listener call => tell (f listener) call
  | waitUntil time => waitUntil time
  | drainUntil deadline => drainUntil deadline

def Request.map (f : ℓ → ℓ') (g : κ → κ') : Request ℓ κ → Request ℓ' κ'
  | configure options => configure options
  | subscribe topics listener => subscribe topics (listener.map f)
  | subscribePattern pattern listener => subscribePattern pattern (listener.map f)
  | assign partitions => assign partitions
  | unsubscribe => unsubscribe
  | poll => poll
  | commit callback => commit (callback.map g)
  | commitOffsets offsets callback => commitOffsets offsets (callback.map g)
  | seek partition offset => seek partition offset
  | seekToBeginning partitions => seekToBeginning partitions
  | seekToEnd partitions => seekToEnd partitions
  | position partition => position partition
  | committed partition => committed partition
  | partitionsFor topic => partitionsFor topic
  | listTopics => listTopics
  | pause partitions => pause partitions
  | resume partitions => resume partitions
  | close timeout => close timeout

namespace Request

def pauses : Request ℓ κ → Bool
  | pause _ | resume _ => true
  | _ => false

def listener? : Request ℓ κ → Option ℓ
  | subscribe _ listener | subscribePattern _ listener => listener
  | _ => none

def callback? : Request ℓ κ → Option κ
  | commit callback | commitOffsets _ callback => callback
  | _ => none

def attachWith (P : ℓ → Prop) (Q : κ → Prop) : (r : Request ℓ κ) →
    (∀ listener, r.listener? = some listener → P listener) →
    (∀ callback, r.callback? = some callback → Q callback) →
    Request { listener // P listener } { callback // Q callback }
  | configure options, _, _ => configure options
  | subscribe topics listener, h, _ => subscribe topics (listener.attachWith P h)
  | subscribePattern pattern listener, h, _ => subscribePattern pattern (listener.attachWith P h)
  | assign partitions, _, _ => assign partitions
  | unsubscribe, _, _ => unsubscribe
  | poll, _, _ => poll
  | commit callback, _, h => commit (callback.attachWith Q h)
  | commitOffsets offsets callback, _, h => commitOffsets offsets (callback.attachWith Q h)
  | seek partition offset, _, _ => seek partition offset
  | seekToBeginning partitions, _, _ => seekToBeginning partitions
  | seekToEnd partitions, _, _ => seekToEnd partitions
  | position partition, _, _ => position partition
  | committed partition, _, _ => committed partition
  | partitionsFor topic, _, _ => partitionsFor topic
  | listTopics, _, _ => listTopics
  | pause partitions, _, _ => pause partitions
  | resume partitions, _, _ => resume partitions
  | close timeout, _, _ => close timeout

theorem map_attachWith {P : ℓ → Prop} {Q : κ → Prop} (f : ℓ → ℓ') (g : κ → κ') (r : Request ℓ κ)
    (hlistener : ∀ listener, r.listener? = some listener → P listener)
    (hcallback : ∀ callback, r.callback? = some callback → Q callback) :
    (r.attachWith P Q hlistener hcallback).map (f ∘ Subtype.val) (g ∘ Subtype.val) = r.map f g := by
  cases r with
  | subscribe topics listener =>
    exact congrArg (subscribe topics) (Option.attachWith_map_val f listener hlistener)
  | subscribePattern pattern listener =>
    exact congrArg (subscribePattern pattern) (Option.attachWith_map_val f listener hlistener)
  | commit callback => exact congrArg commit (Option.attachWith_map_val g callback hcallback)
  | commitOffsets offsets callback =>
    exact congrArg (commitOffsets offsets) (Option.attachWith_map_val g callback hcallback)
  | _ => rfl

theorem pauses_attachWith {P : ℓ → Prop} {Q : κ → Prop} (r : Request ℓ κ)
    (hlistener : ∀ listener, r.listener? = some listener → P listener)
    (hcallback : ∀ callback, r.callback? = some callback → Q callback) :
    (r.attachWith P Q hlistener hcallback).pauses = r.pauses := by
  cases r <;> rfl

theorem map_id_id (r : Request ℓ κ) : r.map id id = r := by
  cases r <;> simp [map]

end Request

def Commit.map (g : κ → κ') (commit : Commit κ) : Commit κ' :=
  ⟨commit.group, commit.offsets, commit.callback.map g⟩

def Running.map (g : κ → κ') (running : Running κ) : Running κ' :=
  ⟨running.commit.map g, running.unseen.map (.map g)⟩

def Commits.map (g : κ → κ') (q : Commits κ) : Commits κ' :=
  ⟨q.delay, q.accepting, q.faults, q.running.map (.map g), q.timetable.map fun (commit, due) =>
    (commit.map g, due)⟩

def Execution.map (g : κ → κ') (e : Execution κ) : Execution κ' :=
  ⟨e.commit.map g, e.result, e.commits.map g, e.cluster, e.counts⟩

def Guard.map {α β : Type} (f : α → β) (guard : Guard α) : Guard β := ⟨guard.holder.map f⟩

def Subscription.recast (R : Recast ℓ κ ℓ' κ') (s : Subscription ℓ) : Subscription ℓ' :=
  ⟨s.mode.map R.listener, s.assignment, R.paused s.paused, s.pending⟩

def Consumer.recast (R : Recast ℓ κ ℓ' κ') (c : Consumer ℓ κ) : Consumer ℓ' κ' where
  behaviour := c.behaviour
  guard := c.guard.map (.map R.listener)
  options := c.options
  subscription := c.subscription.recast R
  positions := c.positions
  session := c.session
  pollFaults := c.pollFaults
  commits := c.commits.map R.callback
  closed := c.closed

def Turn.recast (R : Recast ℓ κ ℓ' κ') (t : Turn ℓ κ) : Turn ℓ' κ' :=
  ⟨t.consumer.recast R, t.progress.map R.listener, t.counts⟩

def World.recast (R : Recast ℓ κ ℓ' κ') (w : World ℓ κ) : World ℓ' κ' :=
  ⟨w.clock, w.cluster, w.consumers.map (.recast R), w.counters⟩

namespace Commits

variable (g : κ → κ') (q : Commits κ)

theorem add_map (now : Time) (commit : Commit κ) :
    (q.map g).add now (commit.map g) = (q.add now commit).map g := by
  cases h : q.running <;> simp [add, map, h, Running.map]

theorem finish_map (now : Time) : (q.map g).finish now = (q.finish now).map g := by
  cases h : q.running <;> simp [finish, unseen, map, h, Running.map]

theorem schedule_map (now : Time) (group : String) (offsets : OffsetMap) (callback : Option κ) :
    (q.map g).schedule now group offsets (callback.map g) =
      (q.schedule now group offsets callback).map (.map g) := by
  have haccepting : (q.map g).accepting = q.accepting := rfl
  cases h : q.accepting <;> simp only [schedule, haccepting, h]
  · rfl
  · exact congrArg Except.ok (add_map g q now ⟨group, offsets, callback⟩)

theorem inFlight_map : (q.map g).inFlight = q.inFlight := by
  cases h : q.running <;> simp [inFlight, waiting, unseen, executing, map, h, Running.map]

theorem nextDue?_map : (q.map g).nextDue? = q.nextDue? := by
  cases h : q.running with
  | some running => simp [nextDue?, map, h]
  | none => cases ht : q.timetable <;> simp [nextDue?, map, h, ht]

theorem start?_map (cluster : Cluster) :
    (q.map g).start? cluster = (q.start? cluster).map (.map g) := by
  cases h : q.running with
  | some running => simp [start?, map, h]
  | none =>
    cases ht : q.timetable with
    | nil => simp [start?, map, h, ht]
    | cons entry rest =>
      cases hpop : q.faults.pop? <;>
        simp [start?, map, h, ht, hpop, Execution.map, Commit.map, Running.map]

theorem debugText_map : (q.map g).debugText = q.debugText := by
  have hdelay : (q.map g).delay = q.delay := rfl
  have haccepting : (q.map g).accepting = q.accepting := rfl
  unfold debugText
  rw [hdelay, haccepting, inFlight_map]

end Commits

namespace Subscription

variable (R : Recast ℓ κ ℓ' κ') (s : Subscription ℓ)

theorem topics_recast : (s.recast R).topics = s.topics := by
  cases h : s.mode <;> simp [topics, recast, Mode.map, h]

theorem listener?_recast : (s.recast R).listener? = s.listener?.map R.listener := by
  cases h : s.mode <;> simp [listener?, recast, Mode.map, h]

theorem notice?_recast : (s.recast R).notice? = s.notice?.map R.listener := by
  have hassignment : (s.recast R).assignment = s.assignment := rfl
  simp only [notice?, hassignment, listener?_recast]
  split <;> rfl

theorem clearAssignment_recast : (s.recast R).clearAssignment = s.clearAssignment.recast R := by
  simp only [clearAssignment, recast, R.paused_empty]

end Subscription

namespace Consumer

variable (R : Recast ℓ κ ℓ' κ') (cluster : Cluster) (now : Time) (c : Consumer ℓ κ)

theorem enter_recast : (c.recast R).enter = c.enter := by
  have hheld : (c.recast R).guard.isHeld = c.guard.isHeld := Option.isSome_map
  have hclosed : (c.recast R).closed = c.closed := rfl
  simp only [enter, Guard.check, hheld, hclosed]

theorem configure_recast (options : Options) :
    (c.recast R).configure options = (c.configure options).map (.recast R) := by
  have hauto : (c.recast R).behaviour = c.behaviour := rfl
  simp only [configure, enter_recast, hauto]
  cases c.enter with
  | error e => rfl
  | ok =>
    cases c.behaviour.autoHeartbeat with
    | true => rfl
    | false => cases options.sessionTimeout <;> rfl

theorem revoke_recast (reason : String) :
    (c.recast R).revoke reason = ((c.revoke reason).1.recast R, (c.revoke reason).2) := by
  simp only [revoke, recast, Subscription.clearAssignment_recast]
  rfl

theorem makeChange_recast (change : Change ℓ) :
    (c.recast R).makeChange cluster now (change.map R.listener) =
      (c.makeChange cluster now change).recast R := by
  cases change <;>
    simp only [makeChange, Change.map, Change.reason, revoke_recast] <;>
    simp [answer, Turn.recast, recast, revoke, Subscription.recast, Subscription.clearAssignment,
      Subscription.subscribe, Subscription.assign, Subscription.unsubscribe, Mode.map, Guard.map,
      Guard.free, Progress.map, R.paused_empty]

theorem beginChange_recast (change : Change ℓ) :
    (c.recast R).beginChange cluster now (change.map R.listener) =
      (c.beginChange cluster now change).recast R := by
  have htold : (change.map R.listener).isTold = change.isTold := by cases change <;> rfl
  have hnotice : (c.recast R).subscription.notice? = c.subscription.notice?.map R.listener :=
    Subscription.notice?_recast ..
  simp only [beginChange, htold, hnotice]
  cases change.isTold with
  | false => exact makeChange_recast ..
  | true =>
    cases c.subscription.notice? with
    | none => exact makeChange_recast ..
    | some listener => rfl

theorem activate_recast : (c.recast R).activate cluster now = (c.activate cluster now).recast R := by
  have hassignment : (c.recast R).subscription.assignment = c.subscription.assignment := rfl
  have hpositions : (c.recast R).positions = c.positions := rfl
  have hoptions : (c.recast R).options = c.options := rfl
  simp only [activate, hassignment, hpositions, hoptions]
  cases (Positions.fillGaps cluster c.options c.subscription.assignment.keys c.positions).2 <;> rfl

theorem expire_recast : (c.recast R).expire now = (c.expire now).recast R := by
  simp only [expire, revoke_recast]
  rfl

theorem beginPoll_recast :
    (c.recast R).beginPoll cluster now = (c.beginPoll cluster now).recast R := by
  have hpending : (c.recast R).subscription.pending = c.subscription.pending := rfl
  have hsession : (c.recast R).session = c.session := rfl
  have hnotice : (c.recast R).subscription.notice? = c.subscription.notice?.map R.listener :=
    Subscription.notice?_recast ..
  simp only [beginPoll, hpending, hsession, hnotice]
  split
  · cases c.subscription.notice? with
    | none => exact activate_recast ..
    | some listener => rfl
  · split
    · cases c.subscription.notice? with
      | none => exact expire_recast ..
      | some listener => rfl
    · rfl

theorem fetch_recast : (c.recast R).fetch cluster now = (c.fetch cluster now).recast R := by
  simp only [fetch, recast]
  cases c.pollFaults.pop? <;> rfl

theorem schedule_recast (offsets : OffsetMap) (callback : Option κ) :
    (c.recast R).schedule now offsets (callback.map R.callback) =
      (c.schedule now offsets callback).recast R := by
  have hcommits : (c.recast R).commits = c.commits.map R.callback := rfl
  have hoptions : (c.recast R).options = c.options := rfl
  simp only [schedule, hcommits, hoptions, Commits.schedule_map]
  cases c.commits.schedule now c.options.group offsets callback <;> rfl

theorem begin_recast {r : Request ℓ κ} (h : r.pauses = false ∨ ∀ ps, R.paused ps = ps) :
    (c.recast R).begin cluster now (r.map R.listener R.callback) = (c.begin cluster now r).recast R := by
  cases r with
  | configure options =>
    simp only [begin, Request.map, configure_recast]
    cases c.configure options <;> rfl
  | subscribe topics listener => exact beginChange_recast R cluster now c (.subscribe topics listener)
  | subscribePattern pattern listener =>
    exact beginChange_recast R cluster now c (.subscribe (cluster.topicsMatching pattern) listener)
  | assign partitions => exact beginChange_recast R cluster now c (.assign partitions)
  | unsubscribe => exact beginChange_recast R cluster now c .unsubscribe
  | poll => exact beginPoll_recast ..
  | commit | commitOffsets => exact schedule_recast ..
  | seek p offset =>
    simp only [begin, Request.map, recast]
    cases c.positions.seek p offset (cluster.logLength p) <;> rfl
  | pause ps | resume ps =>
    have hpaused := h.resolve_left (by simp [Request.pauses])
    simp [begin, Request.map, recast, Subscription.recast, Subscription.pause, Subscription.resume,
      hpaused, answer, Turn.recast, Guard.map, Guard.free, Progress.map]
  | _ => rfl

theorem request_recast {r : Request ℓ κ} (h : r.pauses = false ∨ ∀ ps, R.paused ps = ps) :
    (c.recast R).request cluster now (r.map R.listener R.callback) =
      (c.request cluster now r).recast R := by
  simp only [request, enter_recast]
  cases c.enter with
  | ok => exact begin_recast R cluster now c h
  | error e => cases e <;> cases r <;> rfl

theorem proceed_recast : (c.recast R).proceed cluster now = (c.proceed cluster now).recast R := by
  have hholder : (c.recast R).guard.holder = c.guard.holder.map (.map R.listener) := rfl
  simp only [proceed, hholder]
  cases c.guard.holder with
  | none => rfl
  | some activity =>
    cases activity with
    | changing change => exact makeChange_recast ..
    | expiring => exact expire_recast ..
    | activating => exact activate_recast ..
    | fetching => exact fetch_recast ..
    | closing => rfl

theorem debugText_recast : (c.recast R).debugText = c.debugText := by
  have hbehaviour : (c.recast R).behaviour = c.behaviour := rfl
  have hclosed : (c.recast R).closed = c.closed := rfl
  have hcommits : (c.recast R).commits = c.commits.map R.callback := rfl
  unfold debugText
  rw [hbehaviour, hclosed, hcommits, Commits.debugText_map]

theorem request_of_pauses {r : Request ℓ κ} (h : r.pauses = true) :
    ∃ result paused, c.request cluster now r =
      ⟨{ c with subscription := { c.subscription with paused } }, .answered result, []⟩ := by
  cases henter : c.enter with
  | error e =>
    refine ⟨.error e, c.subscription.paused, ?_⟩
    cases r with
    | pause | resume => cases e <;> simp only [request, henter]
    | _ => cases h
  | ok =>
    have hfree := guard_of_enter henter
    cases r with
    | pause ps =>
      exact ⟨.ok .done, (c.subscription.pause ps).paused, by
        simp only [request, henter, begin, answer, ← hfree]
        rfl⟩
    | resume ps =>
      exact ⟨.ok .done, (c.subscription.resume ps).paused, by
        simp only [request, henter, begin, answer, ← hfree]
        rfl⟩
    | _ => cases h

end Consumer

namespace World

variable (R : Recast ℓ κ ℓ' κ') (w : World ℓ κ) (id : ConsumerId)

theorem consumer?_recast : (w.recast R).consumer? id = (w.consumer? id).map (.recast R) := by
  simp [consumer?, recast]

theorem setConsumer_recast (c : Consumer ℓ κ) :
    (w.setConsumer id c).recast R = (w.recast R).setConsumer id (c.recast R) := by
  simp [setConsumer, recast]

theorem modifyConsumer_recast {f : Consumer ℓ κ → Consumer ℓ κ} {f' : Consumer ℓ' κ' → Consumer ℓ' κ'}
    (h : ∀ c, f' (c.recast R) = (f c).recast R) :
    (w.recast R).modifyConsumer id f' = (w.modifyConsumer id f).recast R := by
  have hmodify : (w.consumers.map (.recast R)).modify id f' =
      (w.consumers.modify id f).map (.recast R) := by
    refine List.ext_getElem? fun i => ?_
    simp only [List.getElem?_modify, List.getElem?_map]
    cases w.consumers[i]? with
    | none => simp
    | some c => by_cases hi : id = i <;> simp [hi, h]
  simp only [modifyConsumer, recast, hmodify]

theorem takeTurn_recast {f : Consumer ℓ κ → Turn ℓ κ} {f' : Consumer ℓ' κ' → Turn ℓ' κ'}
    (h : ∀ c, f' (c.recast R) = (f c).recast R) :
    (w.recast R).takeTurn f' id =
      ((w.takeTurn f id).1.map R.listener, (w.takeTurn f id).2.recast R) := by
  simp only [takeTurn, consumer?_recast]
  cases w.consumer? id with
  | none => rfl
  | some c =>
    simp only [Option.map_some, h]
    simp [Turn.recast, recast, setConsumer]

theorem request_recast {r : Request ℓ κ} (h : r.pauses = false ∨ ∀ ps, R.paused ps = ps) :
    (w.recast R).request id (r.map R.listener R.callback) =
      ((w.request id r).1.map R.listener, (w.request id r).2.recast R) :=
  takeTurn_recast R w id fun c => c.request_recast R w.cluster w.clock h

theorem proceed_recast :
    (w.recast R).proceed id = ((w.proceed id).1.map R.listener, (w.proceed id).2.recast R) :=
  takeTurn_recast R w id fun c => c.proceed_recast R w.cluster w.clock

theorem abandon_recast : (w.recast R).abandon id = (w.abandon id).recast R :=
  modifyConsumer_recast R w id fun _ => rfl

theorem finishCommit_recast : (w.recast R).finishCommit id = (w.finishCommit id).recast R :=
  modifyConsumer_recast R w id fun c =>
    congrArg ({ c.recast R with commits := · }) (c.commits.finish_map R.callback w.clock)

theorem addFault_recast (kind : FaultKind) (fault : Fault) (count : Nat) :
    (w.recast R).addFault kind fault count id = (w.addFault kind fault count id).recast R :=
  modifyConsumer_recast R w id fun _ => by cases kind <;> rfl

theorem create_recast (b : Behaviour) :
    (w.recast R).create b = ((w.create b).1, (w.create b).2.recast R) := by
  have hnew : (Consumer.ofBehaviour b : Consumer ℓ κ).recast R = .ofBehaviour b := by
    simp [Consumer.recast, Consumer.ofBehaviour, Subscription.recast, Subscription.none, Mode.map,
      R.paused_empty, Guard.map, Guard.free, Commits.map, Commits.ofDelay]
  simp [create, recast, hnew]

theorem startCommit_recast :
    (w.recast R).startCommit id =
      ((w.startCommit id).1.map fun (commit, result) => (commit.map R.callback, result),
        (w.startCommit id).2.recast R) := by
  have hcommits (c : Consumer ℓ κ) : (c.recast R).commits = c.commits.map R.callback := rfl
  have hcluster : (w.recast R).cluster = w.cluster := rfl
  simp only [startCommit, consumer?_recast]
  cases w.consumer? id with
  | none => rfl
  | some c =>
    simp only [Option.map_some, hcommits, hcluster, Commits.start?_map]
    cases c.commits.start? w.cluster with
    | none => rfl
    | some e =>
      simp [recast, setConsumer, Execution.map]
      rfl

theorem inFlight_recast : (w.recast R).inFlight id = w.inFlight id := by
  have hcommits (c : Consumer ℓ κ) : (c.recast R).commits = c.commits.map R.callback := rfl
  simp only [inFlight, consumer?_recast]
  cases w.consumer? id with
  | none => rfl
  | some c => simp [hcommits, Commits.inFlight_map]

theorem nextDue?_recast (time : Time) : (w.recast R).nextDue? time = w.nextDue? time := by
  have hdue (c : Consumer ℓ κ) : (c.recast R).commits.nextDue? = c.commits.nextDue? :=
    Commits.nextDue?_map ..
  simp only [nextDue?, recast, List.zipIdx_map, List.filterMap_map]
  simp only [Function.comp_def, Prod.map, hdue, id]

/-- If all that is kept of paused partitions is that there are none, then to pause them or to resume them
changes nothing. -/
theorem request_of_pauses (hR : ∀ ps, R.paused ps = .empty) {r : Request ℓ κ} (h : r.pauses = true) :
    ∃ result, (w.request id r).1 = .answered result ∧ (w.request id r).2.recast R = w.recast R := by
  simp only [request, takeTurn]
  cases hc : w.consumer? id with
  | none => exact ⟨_, rfl, rfl⟩
  | some c =>
    obtain ⟨result, paused, heq⟩ := c.request_of_pauses w.cluster w.clock h
    have hsame : Consumer.recast R { c with subscription := { c.subscription with paused } } =
        c.recast R := by
      simp only [Consumer.recast, Subscription.recast, hR]
    have hset := setConsumer_recast R w id { c with subscription := { c.subscription with paused } }
    have hself : (w.recast R).setConsumer id (c.recast R) = w.recast R :=
      setConsumer_self (by rw [consumer?_recast, hc, Option.map_some])
    rw [hsame, hself] at hset
    refine ⟨result, by simp only [heq], ?_⟩
    simp only [heq]
    exact hset

end World

theorem Pool.handOut_recast (R : Recast ℓ κ ℓ' κ') (options : Options) (p : Pool) (w : World ℓ κ) :
    p.handOut options (w.recast R) =
      (p.handOut options w).map fun (id, p, w) => (id, p, w.recast R) := by
  unfold handOut
  cases p.free with
  | nil => rfl
  | cons id rest =>
    simp only [World.consumer?_recast]
    cases w.consumer? id with
    | none => rfl
    | some c =>
      simp only [Option.map_some, Consumer.configure_recast]
      cases c.configure options with
      | error e => rfl
      | ok c' =>
        simp only [Except.map, bind, Except.bind, pure, Except.pure, World.setConsumer_recast]

end LogConsumer
