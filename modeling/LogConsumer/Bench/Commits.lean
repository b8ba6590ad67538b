import LogConsumer.Scenario.Play

/-! Commits by themselves, with callbacks that are mere names. They are those of the only consumer on
a stage, of which nothing else is asked. -/
namespace LogConsumer

inductive CommitStep
  | cluster (step : ClusterStep)
  /-- With `wait` the step goes on until no commit is in flight. -/
  | schedule (group : String) (offsets : OffsetMap) (callback : Option String) (wait : Bool)
  | pushFault (fault : Fault) (count : Nat)
  | shutdown (timeout : Duration)
  | status
  /-- Lets go of the commits; those that are scheduled still run. -/
  | drop
  | sleep (time : Duration)

structure Committed where
  callback : String
  offsets : OffsetMap
  result : Except Failure Unit

def Event.committed? : Event → Option Committed
  | committed callback offsets result _ => some ⟨callback, offsets, result⟩
  | told .. => none

structure CommitBench where
  stage : Stage
  calls : List Committed

namespace CommitBench

def owner : ConsumerId := 0

def ofDelay (delay : Duration) : CommitBench where
  stage := { Stage.initial with
    world := (World.initial.create { Behaviour.standard with commitDelay := delay }).2 }
  calls := []

def commitsOf (s : Stage) : Commits Callback :=
  ((s.world.consumer? owner).map (·.commits)).getD (.ofDelay .zero)

def commits (b : CommitBench) : Commits Callback := commitsOf b.stage

open Play

def setCommits (q : Commits Callback) : Play Unit :=
  modifyWorld (·.modifyConsumer owner fun c => { c with commits := q })

def drainUntil (deadline : Option Time) : Play Unit :=
  Play.drainUntil playLimit (runWithin 1) owner deadline playLimit

def perform : CommitStep → Play Value
  | .cluster step => Play.perform playLimit (runWithin 1) (.cluster step)
  | .schedule group offsets callback wait => do
    let s ← get
    let outcome := (commitsOf s).schedule s.world.clock group offsets (callback.map (⟨·, []⟩))
    if let .ok q := outcome then setCommits q
    if wait then drainUntil none
    let _ ← orFail outcome
    return .unit
  | .pushFault fault count => do
    modifyWorld (·.addFault .commit fault count owner)
    return .number (commitsOf (← get)).faults.size
  | .shutdown timeout => do
    let s ← get
    if (commitsOf s).accepting then
      setCommits (commitsOf s).stop
      drainUntil (some (s.world.clock + timeout.nanos))
      return .flag ((← get).world.inFlight owner = 0)
    else return .flag true
  | .status => return .text (commitsOf (← get)).debugText
  | .drop => do
    let dropped := ((← get).world.consumer? owner).any (·.closed)
    modifyWorld (·.modifyConsumer owner fun c => { c with commits := c.commits.stop, closed := true })
    return .flag !dropped
  | .sleep time => Play.perform playLimit (runWithin 1) (.sleep time)

def step (b : CommitBench) (step : CommitStep) : Except Stop Value × CommitBench :=
  let (outcome, stage) := ((perform step).run).run { b.stage with events := [] }
  (outcome, ⟨stage, b.calls ++ stage.events.filterMap (·.committed?)⟩)

end CommitBench

end LogConsumer
