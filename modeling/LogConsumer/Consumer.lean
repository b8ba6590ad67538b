import LogConsumer.Behaviour
import LogConsumer.Commits
import LogConsumer.Operation
import LogConsumer.Session

/-! A simulated consumer. An operation that calls a listener or waits stops there, holding the
guard, and is carried on by `proceed` or, if the listener panics, given up by `abandon`. -/
namespace LogConsumer

/-- `ℓ` is the type of listeners, `κ` that of commit callbacks. -/
structure Consumer (ℓ κ : Type) where
  behaviour : Behaviour
  guard : Guard (Activity ℓ)
  options : Options
  subscription : Subscription ℓ
  positions : Positions
  session : Session
  pollFaults : FaultQueue
  commits : Commits κ
  closed : Bool

/-- A consumer after a part of an operation, and what was counted. -/
structure Turn (ℓ κ : Type) where
  consumer : Consumer ℓ κ
  progress : Progress ℓ
  counts : List (Counter × Nat)

namespace Consumer

variable {ℓ κ : Type}

def ofBehaviour (b : Behaviour) : Consumer ℓ κ where
  behaviour := b
  guard := .free
  options := .standard
  subscription := .none
  positions := .empty
  session := .inactive
  pollFaults := .empty
  commits := .ofDelay b.commitDelay
  closed := false

/-- Ends the operation in progress with a result. -/
def answer (result : Except Failure Reply) (counts : List (Counter × Nat)) (c : Consumer ℓ κ) :
    Turn ℓ κ :=
  ⟨{ c with guard := .free }, .answered result, counts⟩

def hold (activity : Activity ℓ) (c : Consumer ℓ κ) : Consumer ℓ κ :=
  { c with guard := ⟨some activity⟩ }

/-- Most operations need a guard that nobody holds, and then a consumer that is not closed. -/
def enter (c : Consumer ℓ κ) : Except Failure Unit :=
  match c.guard.check with
  | .ok () => if c.closed then .error .closed else .ok ()
  | .error e => .error e

/-- Takes on options. Only a consumer without automatic heartbeats reads the session timeout. -/
def configure (options : Options) (c : Consumer ℓ κ) : Except Failure (Consumer ℓ κ) := do
  c.enter
  let timeout ← if c.behaviour.autoHeartbeat then pure none else some <$> options.sessionTimeout
  return { c with options, session := .configure timeout }

def revoke (reason : String) (c : Consumer ℓ κ) : Consumer ℓ κ × List (Counter × Nat) :=
  ({ c with subscription := c.subscription.clearAssignment, positions := .empty },
    if c.subscription.assignment.isEmpty then []
    else [(.rebalances c.options.group reason, 1)])

/-- Makes a change after the listener was told. Topics have the partitions that are available now. -/
def makeChange (cluster : Cluster) (now : Time) (change : Change ℓ) (c : Consumer ℓ κ) :
    Turn ℓ κ :=
  let (c, counts) := c.revoke change.reason
  let c := match change with
    | .subscribe topics listener =>
      { c with
        subscription := c.subscription.subscribe topics (cluster.resolve topics) listener
        session := c.session.touch now }
    | .assign partitions =>
      { c with
        subscription := c.subscription.assign partitions
        session := c.session.touch now }
    | .unsubscribe => { c with subscription := c.subscription.unsubscribe }
  c.answer (.ok .done) counts

/-- Tells the listener of a revocation, or makes the change if there is nobody to tell. -/
def beginChange (cluster : Cluster) (now : Time) (change : Change ℓ) (c : Consumer ℓ κ) :
    Turn ℓ κ :=
  match if change.isTold then c.subscription.notice? else none with
  | some listener => ⟨c.hold (.changing change), .tell listener .revoked, []⟩
  | none => c.makeChange cluster now change

/-- Completes a pending assignment. Partitions without a position get their starting offset. -/
def activate (cluster : Cluster) (now : Time) (c : Consumer ℓ κ) : Turn ℓ κ :=
  let (positions, result) :=
    Positions.fillGaps cluster c.options c.subscription.assignment.keys c.positions
  let c := { c with positions }
  match result with
  | .error e => c.answer (.error e) []
  | .ok () =>
    let c := { c with
      subscription := c.subscription.markActive
      session := c.session.touch now }
    c.answer (.ok (.batch .empty)) [(.rebalances c.options.group "assign", 1)]

def beginFetch (now : Time) (counts : List (Counter × Nat)) (c : Consumer ℓ κ) : Turn ℓ κ :=
  ⟨c.hold .fetching, .waitUntil (now + c.behaviour.requestLatency.nanos), counts⟩

def expire (now : Time) (c : Consumer ℓ κ) : Turn ℓ κ :=
  let (c, counts) := c.revoke "session_expired"
  c.beginFetch now counts

def beginPoll (cluster : Cluster) (now : Time) (c : Consumer ℓ κ) : Turn ℓ κ :=
  if c.subscription.pending then
    match c.subscription.notice? with
    | some listener => ⟨c.hold .activating, .tell listener .assigned, []⟩
    | none => c.activate cluster now
  else if c.session.isExpired now then
    match c.subscription.notice? with
    | some listener => ⟨c.hold .expiring, .tell listener .revoked, []⟩
    | none => c.expire now
  else c.beginFetch now []

/-- The answer of a poll: the next fault, if one is queued, else the next batch. -/
def fetch (cluster : Cluster) (now : Time) (c : Consumer ℓ κ) : Turn ℓ κ :=
  match c.pollFaults.pop? with
  | some (fault, pollFaults) =>
    { c with pollFaults }.answer (.error (.injected fault)) [(.faults .poll, 1)]
  | none =>
    let (batch, positions) := Batch.collect cluster c.behaviour.maxPollRecords
      c.subscription.assignment c.positions
    { c with positions, session := c.session.touch now }.answer (.ok (.batch batch))
      [(.polls c.options.group, 1), (.recordsPolled c.options.group, batch.count)]

def schedule (now : Time) (offsets : OffsetMap) (callback : Option κ) (c : Consumer ℓ κ) :
    Turn ℓ κ :=
  match c.commits.schedule now c.options.group offsets callback with
  | .ok commits => { c with commits }.answer (.ok .done) []
  | .error e => c.answer (.error e) []

/-- The part of an operation that follows once the guard is had on an open consumer. -/
def begin (cluster : Cluster) (now : Time) (c : Consumer ℓ κ) : Request ℓ κ → Turn ℓ κ
  | .configure options =>
    match c.configure options with
    | .ok c => c.answer (.ok .done) []
    | .error e => c.answer (.error e) []
  | .subscribe topics listener => c.beginChange cluster now (.subscribe topics listener)
  | .subscribePattern pattern listener =>
    c.beginChange cluster now (.subscribe (cluster.topicsMatching pattern) listener)
  | .assign partitions => c.beginChange cluster now (.assign partitions)
  | .unsubscribe => c.beginChange cluster now .unsubscribe
  | .poll => c.beginPoll cluster now
  | .commit callback =>
    c.schedule now (c.positions.snapshot c.subscription.assignment.keys) callback
  | .commitOffsets offsets callback => c.schedule now offsets callback
  | .seek p offset =>
    match c.positions.seek p offset (cluster.logLength p) with
    | .ok positions => { c with positions }.answer (.ok .done) []
    | .error e => c.answer (.error e) []
  | .seekToBeginning ps =>
    { c with positions := ps.foldl (fun m p => m.insert p 0) c.positions }.answer (.ok .done) []
  | .seekToEnd ps =>
    { c with
      positions := ps.foldl (fun m p => m.insert p (cluster.logLength p)) c.positions }.answer
      (.ok .done) []
  | .position p => c.answer (.ok (.offset (c.positions.get? p))) []
  | .committed p => c.answer (.ok (.offset (cluster.committedOffset? c.options.group p))) []
  | .partitionsFor topic => c.answer (.ok (.partitions (cluster.partitions? topic))) []
  | .listTopics =>
    c.answer (.ok (.topics (cluster.topicNames.map fun t =>
      (t, (cluster.partitions? t).getD [])))) []
  | .pause ps =>
    { c with subscription := c.subscription.pause ps }.answer (.ok .done) []
  | .resume ps =>
    { c with subscription := c.subscription.resume ps }.answer (.ok .done) []
  | .close timeout =>
    ⟨{ c with commits := c.commits.stop }.hold .closing,
      .drainUntil (now + (timeout.getD c.options.closeTimeout).nanos), []⟩

/-- A refused request changes nothing. To close a closed consumer does nothing and succeeds. -/
def request (cluster : Cluster) (now : Time) (c : Consumer ℓ κ) (r : Request ℓ κ) : Turn ℓ κ :=
  match c.enter with
  | .ok () => c.begin cluster now r
  | .error .closed =>
    match r with
    | .close _ => ⟨c, .answered (.ok .done), []⟩
    | _ => ⟨c, .answered (.error .closed), []⟩
  | .error e => ⟨c, .answered (.error e), []⟩

/-- Carries the operation in progress on: the listener has returned or the wait is over. -/
def proceed (cluster : Cluster) (now : Time) (c : Consumer ℓ κ) : Turn ℓ κ :=
  match c.guard.holder with
  | some (.changing change) => c.makeChange cluster now change
  | some .expiring => c.expire now
  | some .activating => c.activate cluster now
  | some .fetching => c.fetch cluster now
  | some .closing => { c with closed := true }.answer (.ok .done) []
  | none => ⟨c, .answered (.ok .done), []⟩

/-- Gives the operation in progress up: the listener has panicked. -/
def abandon (c : Consumer ℓ κ) : Consumer ℓ κ := { c with guard := .free }

/-- Commits that block are not simulated. -/
def commitBlocking : Except Failure Reply := .error (.unsupported "commitSync")

def debugText (c : Consumer ℓ κ) : String :=
  "MockConsumer \x7b config: " ++ c.behaviour.debugText ++ ", closed: " ++
    (if c.closed then "true" else "false") ++ ", commit_engine: " ++ c.commits.debugText ++
    ", .. \x7d"

end Consumer

end LogConsumer
