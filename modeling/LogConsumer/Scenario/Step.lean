import LogConsumer.Pool
import LogConsumer.Scenario.ClusterStep

/-! Scenarios as data. A listener and a commit callback carry the steps that they run when they
are called. -/
namespace LogConsumer

structure ListenerOf (σ : Type) where
  name : String
  revoked : List σ
  assigned : List σ

namespace ListenerOf

def script {σ : Type} (l : ListenerOf σ) : Call → List σ
  | .revoked => l.revoked
  | .assigned => l.assigned

end ListenerOf

structure CallbackOf (σ : Type) where
  name : String
  script : List σ

/-- Consumers and pools go by names. -/
inductive Step
  | cluster (step : ClusterStep)
  | new (c : String) (behaviour : Json)
  | drop (c : String)
  | configure (c : String) (options : Json)
  | subscribePattern (c : String) (pattern : String) (listener : Option (ListenerOf Step))
  /-- At the top of a scenario a step with `wait` goes on until no commit is in flight. -/
  | request (c : String) (r : Request (ListenerOf Step) (CallbackOf Step)) (wait : Bool)
  | commitBlocking
  /-- Starts a poll that goes on beside the steps that follow. -/
  | spawnPoll (c : String)
  | joinPoll (c : String)
  /-- Waits until no commit is in flight. -/
  | drain (c : String)
  | positions (c : String) (partitions : List Partition)
  | addFault (c : String) (kind : FaultKind) (fault : Fault) (count : Nat)
  | inFlight (c : String)
  | groupId (c : String)
  | behaviour (c : String)
  /-- Does nothing but to show a consumer as it is. -/
  | inspect (c : String)
  | wakeup (c : String)
  | debug (c : String)
  | sleep (time : Duration)
  | metrics
  | poolNew (pool : String) (consumers : List String)
  | poolWithCapacity (pool : String) (behaviour : Json) (size : Nat)
  | poolCreate (pool : String) (options : Json) (as : String)
  | poolAdd (pool : String) (c : String)
  | poolState (pool : String)
  | panic (message : String)

abbrev Listener := ListenerOf Step

abbrev Callback := CallbackOf Step

namespace Step

def shown? : Step → Option String
  | subscribePattern c .. | joinPoll c | inspect c => some c
  | request c r _ =>
    match r with
    | .subscribe .. | .subscribePattern .. | .assign _ | .unsubscribe | .poll | .pause _
    | .resume _ | .close _ => some c
    | _ => none
  | _ => none

def awaited? : Step → Option String
  | request c _ true => some c
  | _ => none

end Step

end LogConsumer
