import LogConsumer.Scenario.Stage

/-! Playing a scenario. Callbacks run their scripts on the same stage, and commits run when the
clock reaches their time. A limit bounds how deep callbacks nest and how many commits run in one
wait; a scenario that goes beyond it is stopped as exhausted. -/
namespace LogConsumer

/-- A part of a scenario that may stop, on the stage as it then is. -/
abbrev Play (α : Type) := ExceptT Stop (StateM Stage) α

/-- How the scripts of callbacks are run. -/
abbrev Runner := List Step → StateM Stage Report

namespace Play

def updateWorld {α : Type} (f : World Listener Callback → α × World Listener Callback) : Play α :=
  modifyGet fun s => let (a, w) := f s.world; (a, { s with world := w })

def modifyWorld (f : World Listener Callback → World Listener Callback) : Play Unit :=
  modify fun s => { s with world := f s.world }

def orFail {α : Type} : Except Failure α → Play α
  | .ok a => pure a
  | .error e => throw (.failure e)

def idOf (name : String) : Play ConsumerId := do
  match (← get).names.get? name with
  | some id => pure id
  | none => throw (.unknownName name)

def consumerOf (name : String) : Play (Consumer Listener Callback) := do
  match (← get).consumer? name with
  | some c => pure c
  | none => throw (.unknownName name)

def poolOf (name : String) : Play Pool := do
  match (← get).pools.get? name with
  | some p => pure p
  | none => throw (.unknownName name)

def behaviourOf (j : Json) : Play Behaviour :=
  match Behaviour.ofJson? j with
  | some b => pure b
  | none => throw .invalidBehaviour

/-- Runs the next commit of a consumer. A panic of its callback ends there. -/
def runCommit (run : Runner) (id : ConsumerId) : Play Unit := do
  match ← updateWorld (·.startCommit id) with
  | none => pure ()
  | some (commit, result) =>
    match commit.callback with
    | none => modifyWorld (·.finishCommit id)
    | some callback =>
      let report ← run callback.script
      modify (·.record (.committed callback.name commit.offsets result report.answers))
      modifyWorld (·.finishCommit id)
      if let some .exhausted := report.stop then throw .exhausted

def passUntil (run : Runner) : Nat → Time → Play Unit
  | 0, _ => throw .exhausted
  | bound + 1, time => do
    let w := (← get).world
    match w.nextDue? (max w.clock time) with
    | none => modifyWorld (·.advance time)
    | some (id, due) =>
      modifyWorld (·.advance due)
      runCommit run id
      passUntil run bound time

/-- Waits until a consumer has no commit in flight, but not beyond the deadline. -/
def drainUntil (limit : Nat) (run : Runner) (id : ConsumerId) (deadline : Option Time) :
    Nat → Play Unit
  | 0 => throw .exhausted
  | bound + 1 => do
    let w := (← get).world
    if w.inFlight id = 0 then pure ()
    else
      match (w.consumer? id).bind (·.commits.nextDue?), deadline with
      | some due, none =>
        passUntil run limit due
        drainUntil limit run id deadline bound
      | some due, some time =>
        if due ≤ time then
          passUntil run limit due
          drainUntil limit run id deadline bound
        else passUntil run limit time
      | none, some time => passUntil run limit time
      | none, none => pure ()

def tell (run : Runner) (listener : Listener) (call : Call) (id : ConsumerId) : Play Unit := do
  let partitions := (((← get).world.consumer? id).map (·.subscription.assignment)).getD .empty
  let report ← run (listener.script call)
  modify (·.record (.told listener.name call partitions report.answers))
  match report.stop with
  | some stop => throw stop
  | none => pure ()

/-- Carries an operation on until it is answered, or to the time that it waits for. -/
def follow (limit : Nat) (run : Runner) (id : ConsumerId) :
    Nat → Progress Listener → Play (Reply ⊕ Time)
  | _, .answered result => .inl <$> orFail result
  | _, .waitUntil time => pure (.inr time)
  | 0, _ => throw .exhausted
  | bound + 1, .tell listener call => do
    tryCatch (tell run listener call id) fun stop => do
      modifyWorld (·.abandon id)
      throw stop
    follow limit run id bound (← updateWorld (·.proceed id))
  | bound + 1, .drainUntil deadline => do
    drainUntil limit run id (some deadline) limit
    follow limit run id bound (← updateWorld (·.proceed id))

def fetchAt (limit : Nat) (run : Runner) (id : ConsumerId) (time : Time) : Play Reply := do
  passUntil run limit time
  match ← follow limit run id limit (← updateWorld (·.proceed id)) with
  | .inl reply => pure reply
  | .inr _ => throw .exhausted

def carryOut (limit : Nat) (run : Runner) (id : ConsumerId)
    (r : Request Listener Callback) : Play Reply := do
  match ← follow limit run id limit (← updateWorld (·.request id r)) with
  | .inl reply => pure reply
  | .inr time => fetchAt limit run id time

/-- Starts a poll. It is over at once if it was refused, completed an assignment or need not wait. -/
def spawn (limit : Nat) (run : Runner) (id : ConsumerId) : Play Spawned :=
  tryCatch (do
    match ← follow limit run id limit (← updateWorld (·.request id .poll)) with
    | .inl reply => return .ended (.ok reply)
    | .inr time =>
      if (← get).world.clock < time then return .waiting id time
      else return .ended (.ok (← fetchAt limit run id time)))
    fun stop => return .ended (.error stop)

def join (limit : Nat) (run : Runner) : Spawned → Play Reply
  | .ended (.ok reply) => pure reply
  | .ended (.error stop) => throw stop
  | .waiting id time => fetchAt limit run id time

/-- Hands a consumer of a pool out, under its own name or, if it has none, under `as`. -/
def handOut (name : String) (options : Options) (as : String) : Play String := do
  let pool ← poolOf name
  let (id, pool, world) ← orFail (pool.handOut options (← get).world)
  modify fun s => { s with world, pools := s.pools.insert name pool }
  match (← get).nameOf? id with
  | some known => pure known
  | none =>
    modify fun s => { s with names := s.names.insert as id }
    pure as

def createMany (b : Behaviour) : Nat → Play (List ConsumerId)
  | 0 => pure []
  | n + 1 => do
    let id ← updateWorld (·.create b)
    return id :: (← createMany b n)

def perform (limit : Nat) (run : Runner) : Step → Play Value
  | .cluster step => do
    match step.run (← get).world.cluster with
    | .ok (value, cluster) =>
      modifyWorld ({ · with cluster })
      pure value
    | .error stop => throw stop
  | .new c behaviour => do
    let b ← behaviourOf behaviour
    let id ← updateWorld (·.create b)
    modify fun s => { s with names := s.names.insert c id }
    pure .unit
  | .drop c => do
    let known := (← get).names.contains c
    modify fun s => { s with names := s.names.erase c }
    pure (.flag known)
  | .configure c options => do
    let options ← orFail (Options.orFailure (Options.ofJson? options))
    .ofReply <$> carryOut limit run (← idOf c) (.configure options)
  | .subscribePattern c pattern listener => do
    match Pattern.read? pattern with
    | some p => .ofReply <$> carryOut limit run (← idOf c) (.subscribePattern p listener)
    | none => throw .invalidPattern
  | .request c r _ => do .ofReply <$> carryOut limit run (← idOf c) r
  | .commitBlocking => .ofReply <$> orFail (Consumer.commitBlocking)
  | .spawnPoll c => do
    let spawned ← spawn limit run (← idOf c)
    modify fun s => { s with polls := s.polls.insert c spawned }
    pure .unit
  | .joinPoll c => do
    match (← get).polls.get? c with
    | some spawned =>
      modify fun s => { s with polls := s.polls.erase c }
      .ofReply <$> join limit run spawned
    | none => throw (.unknownName c)
  | .drain c => do
    let id ← idOf c
    drainUntil limit run id none limit
    return .number ((← get).world.inFlight id)
  | .positions c ps => do
    let id ← idOf c
    let results ← ps.mapM fun p => (tryCatch (do
      match ← carryOut limit run id (.position p) with
      | .offset o => return .ok o
      | _ => return .ok none) fun
      | .failure e => return .error e
      | stop => throw stop : Play (Except Failure (Option Int)))
    return .positions results
  | .addFault c kind fault count => do
    let id ← idOf c
    modifyWorld (·.addFault kind fault count id)
    pure .unit
  | .inFlight c => return .number (← consumerOf c).commits.inFlight
  | .groupId c => return .text (← consumerOf c).options.group
  | .behaviour c => return .behaviour (← consumerOf c).behaviour
  | .inspect c | .wakeup c => do
    let _ ← consumerOf c
    pure .unit
  | .debug c => return .text (← consumerOf c).debugText
  | .sleep time => do
    passUntil run limit ((← get).world.clock + time.nanos)
    pure .unit
  | .metrics => do
    let totals ← updateWorld fun w => (w.counters.report, { w with counters := .zero })
    pure (.totals totals)
  | .poolNew pool consumers => do
    let ids ← consumers.mapM idOf
    modify fun s => { s with pools := s.pools.insert pool (.ofFree ids) }
    pure (.number ids.length)
  | .poolWithCapacity pool behaviour size => do
    let ids ← createMany (← behaviourOf behaviour) size
    modify fun s => { s with pools := s.pools.insert pool (.ofFree ids) }
    pure (.number ids.length)
  | .poolCreate pool options as => do
    let options ← orFail (Options.orFailure (Options.ofJson? options))
    .text <$> handOut pool options as
  | .poolAdd pool c => do
    let p := (← poolOf pool).add (← idOf c)
    modify fun s => { s with pools := s.pools.insert pool p }
    pure (.number p.free.length)
  | .poolState pool => do
    let p ← poolOf pool
    return .pool p.free.length (p.inUse.map (← get).nameOf?)
  | .panic message => throw (.panic message)

end Play

def answerOf (step : Step) (outcome : Except Stop Value) : StateM Stage Answer := do
  let s ← get
  return ⟨outcome, step.shown?.bind s.view?⟩

/-- Runs the steps of a script in turn. A panic ends it and has no answer. -/
def runScript (perform : Step → Play Value) : List Step → StateM Stage Report
  | [] => return ⟨[], none⟩
  | step :: rest => do
    let outcome ← (perform step).run
    match outcome with
    | .error (.panic message) => return ⟨[], some (.panic message)⟩
    | .error .exhausted => return ⟨[], some .exhausted⟩
    | outcome =>
      let answer ← answerOf step outcome
      let report ← runScript perform rest
      return { report with answers := answer :: report.answers }

/-- Runs scripts in which callbacks nest less deep than the limit. -/
def runWithin : Nat → Runner
  | 0 => fun _ => return ⟨[], some .exhausted⟩
  | limit + 1 => runScript (Play.perform limit (runWithin limit))

def awaitCommits (limit : Nat) (run : Runner) (step : Step) : Play Unit := do
  match step.awaited?.bind (← get).names.get? with
  | some id => Play.drainUntil limit run id none limit
  | none => pure ()

/-- Plays one step at the top of a scenario, and gives the callbacks that ended meanwhile. -/
def playStep (limit : Nat) (step : Step) : StateM Stage (Answer × List Event) := do
  modify fun s => { s with events := [] }
  let run := runWithin limit
  let outcome ← (Play.perform limit run step).run
  let waited ← (awaitCommits limit run step).run
  let answer ← answerOf step (waited.bind fun _ => outcome)
  return (answer, (← get).events)

def playWithin (limit : Nat) (steps : List Step) : List (Answer × List Event) :=
  ((steps.mapM (playStep limit)).run .initial).1

/-- Far beyond what a scenario may need that ends at all. -/
def playLimit : Nat := 1000000

def play (steps : List Step) : List (Answer × List Event) := playWithin playLimit steps

end LogConsumer
