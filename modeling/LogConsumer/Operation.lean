import LogConsumer.Batch
import LogConsumer.Duration
import LogConsumer.Subscription

/-! Operations on a consumer: what may be asked, what is answered, and the places where an operation
stops to be carried on later. While it is stopped it holds the guard, which one holder at a time may
have and nobody waits for. -/
namespace LogConsumer

inductive Request (ℓ κ : Type)
  | configure (options : Options)
  | subscribe (topics : SortedSet String) (listener : Option ℓ)
  | subscribePattern (pattern : Pattern) (listener : Option ℓ)
  | assign (partitions : SortedSet Partition)
  | unsubscribe
  | poll
  | commit (callback : Option κ)
  | commitOffsets (offsets : OffsetMap) (callback : Option κ)
  | seek (partition : Partition) (offset : Int)
  | seekToBeginning (partitions : List Partition)
  | seekToEnd (partitions : List Partition)
  | position (partition : Partition)
  | committed (partition : Partition)
  | partitionsFor (topic : String)
  | listTopics
  | pause (partitions : List Partition)
  | resume (partitions : List Partition)
  /-- Without a timeout, the one of the options. -/
  | close (timeout : Option Duration)

inductive Reply
  | done
  | batch (batch : Batch)
  | offset (offset : Option Int)
  | partitions (infos : Option (List PartitionInfo))
  | topics (topics : List (String × List PartitionInfo))
deriving DecidableEq

inductive Change (ℓ : Type)
  | subscribe (topics : SortedSet String) (listener : Option ℓ)
  | assign (partitions : SortedSet Partition)
  | unsubscribe

namespace Change

variable {ℓ : Type}

def reason : Change ℓ → String
  | subscribe .. => "subscribe"
  | assign _ => "assign"
  | unsubscribe => "unsubscribe"

/-- Naming partitions outright tells no listener. -/
def isTold : Change ℓ → Bool
  | assign _ => false
  | _ => true

end Change

inductive Activity (ℓ : Type)
  /-- The listener is told of the revocation that a change brings. -/
  | changing (change : Change ℓ)
  /-- The listener is told of the revocation of an assignment whose session has lapsed. -/
  | expiring
  /-- The listener is told of its new assignment. -/
  | activating
  /-- A poll waits for its answer. -/
  | fetching
  /-- Closing waits for the commits in flight. -/
  | closing

inductive Progress (ℓ : Type)
  | answered (result : Except Failure Reply)
  /-- The listener is to be told of the assignment. -/
  | tell (listener : ℓ) (call : Call)
  | waitUntil (time : Time)
  /-- To wait until no commit is in flight, but not longer than this. -/
  | drainUntil (deadline : Time)

structure Guard (α : Type) where
  holder : Option α
deriving DecidableEq

namespace Guard

variable {α : Type}

def free : Guard α := ⟨none⟩

def isHeld (g : Guard α) : Bool := g.holder.isSome

/-- Fails at once if somebody holds the guard, be it the caller. -/
def check (g : Guard α) : Except Failure Unit :=
  if g.isHeld then .error .concurrentAccess else .ok ()

@[simp] theorem isHeld_free : (free : Guard α).isHeld = false := rfl

theorem eq_of_holder_eq {g : Guard α} {holder : Option α} (h : g.holder = holder) : g = ⟨holder⟩ := by
  cases h
  rfl

theorem eq_free_of_isHeld {g : Guard α} (h : g.isHeld = false) : g = free := by
  rw [isHeld, Option.isSome_eq_false_iff, Option.isNone_iff_eq_none] at h
  exact eq_of_holder_eq h

end Guard

end LogConsumer
