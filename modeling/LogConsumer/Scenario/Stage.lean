import LogConsumer.Scenario.Step

/-! The stage on which a scenario plays: a world, the names its steps use, and what its callbacks
have reported. -/
namespace LogConsumer

/-- A consumer as anybody may see it at any time. -/
structure View where
  assignment : SortedSet Partition
  topics : SortedSet String
  paused : SortedSet Partition
  closed : Bool
deriving DecidableEq

structure Answer where
  outcome : Except Stop Value
  view : Option View

/-- A callback that has ended, with the answers of its script. -/
inductive Event
  | told (listener : String) (call : Call) (partitions : SortedSet Partition)
    (script : List Answer)
  | committed (callback : String) (offsets : OffsetMap) (result : Except Failure Unit)
    (script : List Answer)

structure Report where
  answers : List Answer
  stop : Option Stop

inductive Spawned
  | ended (result : Except Stop Reply)
  | waiting (consumer : ConsumerId) (time : Time)

structure Stage where
  world : World Listener Callback
  names : SortedMap String ConsumerId
  pools : SortedMap String Pool
  polls : SortedMap String Spawned
  /-- In the order in which the callbacks ended. -/
  events : List Event

namespace Stage

def initial : Stage := ⟨.initial, .empty, .empty, .empty, []⟩

def consumer? (s : Stage) (name : String) : Option (Consumer Listener Callback) :=
  s.names.get? name >>= s.world.consumer?

def view? (s : Stage) (name : String) : Option View :=
  (s.consumer? name).map fun c =>
    ⟨c.subscription.assignment, c.subscription.topics, c.subscription.paused, c.closed⟩

def nameOf? (s : Stage) (id : ConsumerId) : Option String :=
  (s.names.entries.find? (·.2 == id)).map (·.1)

def record (e : Event) (s : Stage) : Stage := { s with events := s.events ++ [e] }

end Stage

end LogConsumer
