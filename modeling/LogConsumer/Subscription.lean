import LogConsumer.Cluster
import LogConsumer.Text.Quoted

/-! What a consumer is subscribed to or assigned. A change is pending until a poll completes it,
and the listener of a subscription is told before an assignment is taken away and when it begins. -/
namespace LogConsumer

inductive Mode (ℓ : Type)
  | unassigned
  | subscribed (topics : SortedSet String) (listener : Option ℓ)
  /-- Partitions that were named outright. Nobody is told of them. -/
  | assigned
deriving DecidableEq

inductive Call
  | revoked
  | assigned
deriving DecidableEq

namespace Call

def name : Call → String
  | revoked => "revoked"
  | assigned => "assigned"

end Call

structure Subscription (ℓ : Type) where
  mode : Mode ℓ
  assignment : SortedSet Partition
  paused : SortedSet Partition
  pending : Bool
deriving DecidableEq

namespace Subscription

variable {ℓ : Type}

def none : Subscription ℓ := ⟨.unassigned, .empty, .empty, false⟩

instance : Inhabited (Subscription ℓ) := ⟨none⟩

/-- Subscribes to topics that have the partitions `assignment` now. -/
def subscribe (topics : SortedSet String) (assignment : SortedSet Partition) (listener : Option ℓ)
    (s : Subscription ℓ) : Subscription ℓ :=
  { s with mode := .subscribed topics listener, assignment, pending := true }

def assign (assignment : SortedSet Partition) (s : Subscription ℓ) : Subscription ℓ :=
  { s with mode := .assigned, assignment, pending := true }

/-- Takes the assignment away; the mode stays, and so does whether a change is pending. -/
def clearAssignment (s : Subscription ℓ) : Subscription ℓ :=
  { s with assignment := .empty, paused := .empty }

def unsubscribe (s : Subscription ℓ) : Subscription ℓ :=
  { s.clearAssignment with mode := .unassigned, pending := false }

def markActive (s : Subscription ℓ) : Subscription ℓ := { s with pending := false }

def listener? (s : Subscription ℓ) : Option ℓ :=
  match s.mode with
  | .subscribed _ listener => listener
  | _ => Option.none

def topics (s : Subscription ℓ) : SortedSet String :=
  match s.mode with
  | .subscribed topics _ => topics
  | _ => .empty

/-- The listener to be told of the assignment: none if the assignment is empty. -/
def notice? (s : Subscription ℓ) : Option ℓ :=
  if s.assignment.isEmpty then Option.none else s.listener?

@[simp] theorem topics_clearAssignment (s : Subscription ℓ) :
    s.clearAssignment.topics = s.topics := rfl

@[simp] theorem notice?_clearAssignment (s : Subscription ℓ) :
    s.clearAssignment.notice? = Option.none := rfl

/-- Pauses those of the partitions that are assigned. -/
def pause (ps : List Partition) (s : Subscription ℓ) : Subscription ℓ :=
  { s with paused := (ps.filter s.assignment.contains).foldl .add s.paused }

def resume (ps : List Partition) (s : Subscription ℓ) : Subscription ℓ :=
  { s with paused := ps.foldl .erase s.paused }

theorem contains_pause {ps : List Partition} {s : Subscription ℓ} {p : Partition} :
    (s.pause ps).paused.contains p = true ↔
      p ∈ ps ∧ s.assignment.contains p = true ∨ s.paused.contains p = true := by
  rw [pause, SortedMap.contains_foldl_add, List.mem_filter]

theorem contains_resume {ps : List Partition} {s : Subscription ℓ} {p : Partition} :
    (s.resume ps).paused.contains p = true ↔ p ∉ ps ∧ s.paused.contains p = true :=
  SortedMap.contains_foldl_erase ps s.paused p

end Subscription

namespace Mode

variable {ℓ : Type}

def name : Mode ℓ → String
  | unassigned => "unassigned"
  | subscribed .. => "subscribed"
  | assigned => "assigned"

def debugText : Mode ℓ → String
  | unassigned => "Unassigned"
  | subscribed topics listener =>
    "Subscribed \x7b topics: \x7b" ++ String.intercalate ", " (topics.keys.map Text.quoted) ++
      "\x7d, listener: " ++ (if listener.isSome then "true" else "false") ++ " \x7d"
  | assigned => "Assigned"

end Mode

end LogConsumer
