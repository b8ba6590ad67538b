import LogConsumer.Json.Writer
import LogConsumer.Json.Reader
import LogConsumer.Sorted

/-! Partitions of topics, ordered by topic and then by index, and what a cluster tells of them. -/
namespace LogConsumer

structure Partition where
  topic : String
  index : Int
deriving DecidableEq, Inhabited

namespace Partition

instance : Ord Partition := ⟨compareLex (compareOn (·.topic)) (compareOn (·.index))⟩

instance : Std.TransOrd Partition :=
  inferInstanceAs (Std.TransCmp (compareLex (compareOn Partition.topic) (compareOn Partition.index)))

instance : Std.LawfulEqOrd Partition where
  eq_of_compare {a b} h := by
    have ⟨h₁, h₂⟩ := Ordering.then_eq_eq.1 (h : (compareLex _ _ a b) = .eq)
    obtain ⟨t, i⟩ := a
    obtain ⟨t', i'⟩ := b
    have ht : t = t' := Std.LawfulEqCmp.eq_of_compare (show compare t t' = .eq from h₁)
    have hi : i = i' := Std.LawfulEqCmp.eq_of_compare (show compare i i' = .eq from h₂)
    rw [ht, hi]

def name (p : Partition) : String := p.topic ++ "-" ++ Decimal.ofInt p.index

def sort (ps : List Partition) : List Partition := ps.mergeSort fun a b => (compare a b).isLE

def toJson (p : Partition) : Json :=
  .record [("topic", .text p.topic), ("partition", .integer p.index)]

/-- Both fields are required, and the index must have 32 bits. -/
def ofJson? (j : Json) : Option Partition :=
  match j.fields? ["topic", "partition"] with
  | some [some topic, some index] => return ⟨← topic.text?, ← index.int32?⟩
  | _ => none

def read? (s : String) : Option Partition := Json.read? s >>= ofJson?

end Partition

/-- What a cluster tells of a partition; one without a leader is offline. -/
structure PartitionInfo where
  partition : Partition
  leader : Option Int
deriving DecidableEq

namespace PartitionInfo

def isAvailable (i : PartitionInfo) : Bool := i.leader.isSome

def toJson (i : PartitionInfo) : Json :=
  .record [("topic", .text i.partition.topic), ("partition", .integer i.partition.index),
    ("leader", match i.leader with
      | some leader => .integer leader
      | none => .null)]

end PartitionInfo

instance decidableEqBytes : DecidableEq ByteArray := ByteArray.decEq

/-- A record as it is read from a partition. The wall-clock time at which it was added is left out:
nothing but the reader of the record looks at it. -/
structure Record where
  partition : Partition
  offset : Nat
  key : Option ByteArray
  value : ByteArray
deriving DecidableEq

end LogConsumer
