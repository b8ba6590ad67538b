import LogConsumer.Fault
import LogConsumer.Partition

/-! What can go wrong with a call on a consumer, a cluster or a pool: the causes, their wording,
and the code a client of the wire protocol would see. -/
namespace LogConsumer

inductive Failure
  | concurrentAccess
  | invalidOffset (partition : Partition) (offset logLength : Int)
  | configuration (setting reason : String)
  | unsupported (operation : String)
  | injected (fault : Fault)
  | unknownPartition (partition : Partition)
  | closed
  | poolExhausted
  | system (message : String)
deriving DecidableEq

namespace Failure

def kind : Failure → String
  | concurrentAccess => "ConcurrentAccess"
  | invalidOffset .. => "InvalidOffset"
  | configuration .. => "Configuration"
  | unsupported _ => "Unsupported"
  | injected _ => "Injected"
  | unknownPartition _ => "UnknownTopicOrPartition"
  | closed => "Closed"
  | poolExhausted => "PoolExhausted"
  | system _ => "Io"

def message : Failure → String
  | concurrentAccess => "Consumer is not thread-safe: concurrent or reentrant access rejected"
  | invalidOffset partition offset logLength =>
    "Invalid offset: " ++ partition.name ++ "@" ++ Decimal.ofInt offset ++ " (log length " ++
      Decimal.ofInt logLength ++ ")"
  | configuration setting reason => "Configuration error: " ++ setting ++ ": " ++ reason
  | unsupported operation => "Unsupported operation: " ++ operation
  | injected fault => "Injected fault: " ++ fault.text
  | unknownPartition partition => "Unknown topic or partition: " ++ partition.name
  | closed => "Consumer has been closed"
  | poolExhausted => "Consumer pool exhausted: no free consumers"
  | system message => "IO error: " ++ message

def code : Failure → ErrorCode
  | concurrentAccess => .invalidRequest
  | invalidOffset .. => .offsetOutOfRange
  | configuration .. => .invalidConfig
  | unsupported _ => .unsupportedVersion
  | injected fault => fault.code
  | unknownPartition _ => .unknownTopicOrPartition
  | closed => .networkException
  | poolExhausted | system _ => .unknownServerError

def isRetriable (f : Failure) : Bool := f.code.isRetriable

theorem bind_eq_ok_iff {α β : Type} {x : Except Failure α} {f : α → Except Failure β} {b : β} :
    (x >>= f) = .ok b ↔ ∃ a, x = .ok a ∧ f a = .ok b := by
  cases x with
  | error e => simp [bind, Except.bind]
  | ok a => simp [bind, Except.bind]

end Failure

end LogConsumer
