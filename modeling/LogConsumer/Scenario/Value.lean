import LogConsumer.Consumer

/-! What a step of a scenario may answer, and why it may have no answer. -/
namespace LogConsumer

inductive Value
  | unit
  | flag (b : Bool)
  | number (n : Int)
  | offset (offset : Option Int)
  | offsets (offsets : OffsetMap)
  | partitions (partitions : Option (SortedSet Partition))
  | text (s : String)
  | names (names : List String)
  | record (r : Option Record)
  | records (rs : List Record)
  | infos (infos : Option (List PartitionInfo))
  | topics (topics : List (String × List PartitionInfo))
  | batch (b : Batch)
  | positions (results : List (Except Failure (Option Int)))
  | behaviour (b : Behaviour)
  | totals (totals : List (Counter × Nat))
  /-- The number of free consumers and the names of those in use. -/
  | pool (free : Nat) (inUse : List (Option String))

inductive Stop
  | failure (e : Failure)
  | invalidPattern
  | invalidBehaviour
  /-- Nothing has the name that the step gives. -/
  | unknownName (name : String)
  /-- A script panicked. -/
  | panic (message : String)
  /-- Callbacks nest deeper, or more commits run in one wait, than the limit of the scenario. -/
  | exhausted

namespace Value

def ofReply : Reply → Value
  | .done => unit
  | .batch b => batch b
  | .offset o => offset o
  | .partitions i => infos i
  | .topics t => topics t

end Value

end LogConsumer
