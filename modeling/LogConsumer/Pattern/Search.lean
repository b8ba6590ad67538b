import LogConsumer.Pattern.Syntax

/-! Leftmost-first search: of all matches the one that starts first, and of those the one that
the order of alternatives and the greed of repetitions prefer. What a search has still to read is a
list of tasks. It follows no thread twice, which ends repetitions whose rounds read nothing. -/
namespace LogConsumer

namespace Pattern

/-- Whether the least that a match can read is nothing. -/
def mayBeEmpty : Pattern → Bool
  | empty | start | finish => true
  | chars _ => false
  | seq p q => p.mayBeEmpty && q.mayBeEmpty
  | alt p q => p.mayBeEmpty || q.mayBeEmpty
  | repeated p least _ _ => least == 0 || p.mayBeEmpty

/-- More than the lists of tasks that a search for the pattern comes to. -/
def taskBound : Pattern → Nat
  | seq p q | alt p q => p.taskBound + q.taskBound + 1
  | repeated p least most _ => (max least (most.getD 0) + 2) * (p.taskBound + 1)
  | _ => 1

end Pattern

/-- `branch` tells apart what reads alike in different alternatives. -/
inductive Task
  | read (branch : List Bool) (p : Pattern)
  /-- Any number of further rounds. -/
  | again (branch : List Bool) (p : Pattern) (greedy : Bool)
deriving DecidableEq

structure Thread where
  rest : List Char
  tasks : List Task
deriving DecidableEq

/-- What a repetition leaves after a round. Rounds that may be empty are not followed by the
repetition itself, but by one that has a round behind it. -/
def Task.afterRound (branch : List Bool) (p : Pattern) (least : Nat) (most : Option Nat)
    (greedy : Bool) : Task :=
  match least, most with
  | 0, none =>
    if p.mayBeEmpty then .again branch p greedy else .read branch (.repeated p 0 none greedy)
  | 1, none => .again branch p greedy
  | least, most => .read branch (.repeated p (least - 1) (most.map (· - 1)) greedy)

def Thread.prefer (greedy : Bool) (round leave : Thread) : List Thread :=
  if greedy then [round, leave] else [leave, round]

/-- The ways to take the first step of a task in front of `cs`, the preferred ones first. The whole
text has `size` characters. -/
def Task.next (size : Nat) (cs : List Char) : Task → List Thread
  | again branch p greedy =>
    Thread.prefer greedy ⟨cs, [.read branch p, .again branch p greedy]⟩ ⟨cs, []⟩
  | read branch p =>
    match p with
    | .empty => [⟨cs, []⟩]
    | .chars set =>
      match cs with
      | c :: rest => if set.contains c then [⟨rest, []⟩] else []
      | [] => []
    | .start => if cs.length = size then [⟨cs, []⟩] else []
    | .finish => if cs.isEmpty then [⟨cs, []⟩] else []
    | .seq p q => [⟨cs, [.read branch p, .read branch q]⟩]
    | .alt p q => [⟨cs, [.read (false :: branch) p]⟩, ⟨cs, [.read (true :: branch) q]⟩]
    | .repeated p least most greedy =>
      let round : Thread := ⟨cs, [.read branch p, .afterRound branch p least most greedy]⟩
      if 0 < least then [round]
      else if most = some 0 then [⟨cs, []⟩]
      else Thread.prefer greedy round ⟨cs, []⟩

def Thread.next (size : Nat) (t : Thread) : List Thread :=
  match t.tasks with
  | [] => []
  | task :: tasks => (task.next size t.rest).map fun u => ⟨u.rest, u.tasks ++ tasks⟩

theorem Thread.mem_prefer_iff {greedy : Bool} {t round leave : Thread} :
    t ∈ prefer greedy round leave ↔ t = round ∨ t = leave := by
  cases greedy <;> simp [prefer, or_comm]

theorem Task.mem_next_repeated_iff {size least : Nat} {cs : List Char} {branch : List Bool}
    {p : Pattern} {most : Option Nat} {greedy : Bool} {t : Thread} :
    t ∈ (read branch (.repeated p least most greedy)).next size cs ↔
      ((0 < least ∨ most ≠ some 0) ∧
        t = ⟨cs, [.read branch p, .afterRound branch p least most greedy]⟩) ∨
      (least = 0 ∧ t = ⟨cs, []⟩) := by
  rcases Nat.eq_zero_or_pos least with rfl | hleast
  · by_cases hmost : most = some 0
    · simp [next, hmost]
    · simp [next, hmost, Thread.mem_prefer_iff]
  · simp [next, hleast, Nat.ne_of_gt hleast]

theorem Thread.mem_next_cons_iff {size : Nat} {cs : List Char} {task : Task} {tasks : List Task}
    {t : Thread} : t ∈ next size ⟨cs, task :: tasks⟩ ↔
      ∃ u ∈ task.next size cs, ⟨u.rest, u.tasks ++ tasks⟩ = t :=
  List.mem_map

/-- What the first thread that ends leaves of the text, depth first from `stack` on. `fuel` bounds
the number of threads that are taken from the stack. -/
def explore (size : Nat) : Nat → List Thread → List Thread → Option (List Char)
  | 0, _, _ => none
  | _ + 1, _, [] => none
  | fuel + 1, seen, t :: stack =>
    if t ∈ seen then explore size fuel seen stack
    else if t.tasks = [] then some t.rest
    else explore size fuel (t :: seen) (t.next size ++ stack)

namespace Pattern

def leaves (size : Nat) (p : Pattern) (cs : List Char) : Option (List Char) :=
  explore size (2 * ((cs.length + 1) * p.taskBound) + 1) [] [⟨cs, [.read [] p]⟩]

/-- The first match at or after the front of `cs`: the text from its start and the text after it. -/
def findFrom (size : Nat) (p : Pattern) : List Char → Option (List Char × List Char)
  | [] => (p.leaves size []).map ([], ·)
  | c :: cs =>
    match p.leaves size (c :: cs) with
    | some rest => some (c :: cs, rest)
    | none => findFrom size p cs

def find? (p : Pattern) (cs : List Char) : Option (List Char × List Char) :=
  findFrom cs.length p cs

def spans (p : Pattern) (s : String) : Bool :=
  match p.find? s.toList with
  | some (fromStart, after) => fromStart.length == s.toList.length && after.isEmpty
  | none => false

end Pattern

end LogConsumer
