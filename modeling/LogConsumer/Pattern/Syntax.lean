import LogConsumer.Text.Blank
import LogConsumer.Text.CaseFold
import LogConsumer.Text.Word

/-! Patterns over topic names, and the sets of characters they are made of. -/
namespace LogConsumer

inductive NamedSet
  | digit
  | word
  | blank
deriving DecidableEq

namespace NamedSet

def contains : NamedSet → Char → Bool
  | digit, c => Text.isDecimalDigit c
  | word, c => Text.isWord c
  | blank, c => Text.isBlank c

end NamedSet

inductive SetItem
  | range (first last : Char)
  | named (set : NamedSet)
  | outside (set : NamedSet)
deriving DecidableEq

namespace SetItem

def contains : SetItem → Char → Bool
  | range first last, c => first ≤ c && c ≤ last
  | named set, c => set.contains c
  | outside set, c => !set.contains c

end SetItem

/-- A set of characters. Case is ignored before the set is negated. -/
structure CharSet where
  items : List SetItem
  negated : Bool
  ignoreCase : Bool
deriving DecidableEq

namespace CharSet

def single (c : Char) (ignoreCase : Bool) : CharSet := ⟨[.range c c], false, ignoreCase⟩

def dot : CharSet := ⟨[.range '\n' '\n'], true, false⟩

def contains (s : CharSet) (c : Char) : Bool :=
  let listed := fun c => s.items.any (·.contains c)
  (if s.ignoreCase then (Text.caseVariants c).any listed else listed c) != s.negated

end CharSet

inductive Pattern
  | empty
  | chars (set : CharSet)
  /-- The place before the first character. -/
  | start
  /-- The place after the last character. -/
  | finish
  | seq (p q : Pattern)
  /-- Either of two patterns, by preference the first. -/
  | alt (p q : Pattern)
  /-- A greedy repetition prefers to go on, a lazy one to stop. -/
  | repeated (p : Pattern) (least : Nat) (most : Option Nat) (greedy : Bool)
deriving DecidableEq

end LogConsumer
