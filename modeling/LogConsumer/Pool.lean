import LogConsumer.World

/-! A fixed set of consumers that is handed out one by one, in the order of a queue. -/
namespace LogConsumer

structure Pool where
  free : List ConsumerId
  inUse : List ConsumerId
deriving DecidableEq

namespace Pool

def ofFree (free : List ConsumerId) : Pool := ⟨free, []⟩

def add (id : ConsumerId) (p : Pool) : Pool := { p with free := p.free ++ [id] }

/-- Configures the consumer at the head of the queue and hands it out; if that fails it stays. -/
def handOut {ℓ κ : Type} (options : Options) (p : Pool) (w : World ℓ κ) :
    Except Failure (ConsumerId × Pool × World ℓ κ) :=
  match p.free with
  | [] => .error .poolExhausted
  | id :: rest =>
    match w.consumer? id with
    | some c => do
      let c ← c.configure options
      return (id, ⟨rest, p.inUse ++ [id]⟩, w.setConsumer id c)
    | none => .error .closed

end Pool

end LogConsumer
