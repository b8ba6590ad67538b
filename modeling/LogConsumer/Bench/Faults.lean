import LogConsumer.Counters

/-! Fault queues by themselves. Several handles may lead to one queue. -/
namespace LogConsumer

inductive FaultStep
  | push (handle : Nat) (fault : Fault) (count : Nat)
  /-- Adds a handle to the queue of another one. -/
  | clone (handle : Nat)
  /-- Adds a handle to a new queue, and answers for the given one. -/
  | new (handle : Nat)
  | pop (handle : Nat)
  | metrics

inductive FaultAnswer
  | size (n : Nat)
  | popped (fault : Option Fault) (left : Nat)
  | totals (totals : List (Counter × Nat))

structure FaultBench where
  kind : FaultKind
  queues : List FaultQueue
  /-- The queue that each handle leads to. -/
  handles : List Nat
  counters : Counters

namespace FaultBench

def ofKind (kind : FaultKind) : FaultBench := ⟨kind, [.empty], [0], .zero⟩

def queueOf (b : FaultBench) (handle : Nat) : Nat := b.handles.getD handle 0

def queue (b : FaultBench) (handle : Nat) : FaultQueue := b.queues.getD (b.queueOf handle) .empty

def step (b : FaultBench) : FaultStep → FaultAnswer × FaultBench
  | .push handle fault count =>
    let b := { b with queues := b.queues.modify (b.queueOf handle) (·.push fault count) }
    (.size (b.queue handle).size, b)
  | .clone handle =>
    (.size (b.queue handle).size, { b with handles := b.handles ++ [b.queueOf handle] })
  | .new handle =>
    (.size (b.queue handle).size,
      { b with queues := b.queues ++ [.empty], handles := b.handles ++ [b.queues.length] })
  | .pop handle =>
    match (b.queue handle).pop? with
    | some (fault, rest) =>
      (.popped (some fault) rest.size,
        { b with
          queues := b.queues.set (b.queueOf handle) rest
          counters := b.counters.count (.faults b.kind) 1 })
    | none => (.popped none 0, b)
  | .metrics => (.totals b.counters.report, { b with counters := .zero })

end FaultBench

end LogConsumer
