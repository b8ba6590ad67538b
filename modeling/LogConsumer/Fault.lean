import LogConsumer.ErrorCode

/-! Faults that a test puts in, and their queues: first in, first out. -/
namespace LogConsumer

structure Fault where
  code : ErrorCode
  message : String
deriving DecidableEq

namespace Fault

def text (f : Fault) : String := f.message ++ " (code " ++ f.code.name ++ ")"

def isRetriable (f : Fault) : Bool := f.code.isRetriable

end Fault

inductive FaultKind
  | poll
  | commit
deriving DecidableEq

structure FaultQueue where
  pending : List Fault
deriving DecidableEq

namespace FaultQueue

def empty : FaultQueue := ⟨[]⟩

instance : Inhabited FaultQueue := ⟨empty⟩

def size (q : FaultQueue) : Nat := q.pending.length

def push (fault : Fault) (count : Nat) (q : FaultQueue) : FaultQueue :=
  ⟨q.pending ++ List.replicate count fault⟩

def pop? (q : FaultQueue) : Option (Fault × FaultQueue) :=
  match q.pending with
  | [] => none
  | fault :: rest => some (fault, ⟨rest⟩)

@[simp] theorem pending_push (fault : Fault) (count : Nat) (q : FaultQueue) :
    (q.push fault count).pending = q.pending ++ List.replicate count fault := rfl

@[simp] theorem size_push (fault : Fault) (count : Nat) (q : FaultQueue) :
    (q.push fault count).size = q.size + count := by simp [size]

@[simp] theorem pop?_eq_none_iff {q : FaultQueue} : q.pop? = none ↔ q.pending = [] := by
  unfold pop?; split <;> simp_all

@[simp] theorem pop?_eq_some_iff {q rest : FaultQueue} {fault : Fault} :
    q.pop? = some (fault, rest) ↔ q.pending = fault :: rest.pending := by
  obtain ⟨_ | ⟨f, l⟩⟩ := q <;> obtain ⟨r⟩ := rest <;> simp [pop?]

end FaultQueue

end LogConsumer
