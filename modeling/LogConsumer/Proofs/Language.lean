import LogConsumer.Pattern.Syntax

/-! What a pattern matches, told without a search: which texts may remain after a match. Neither the
order of alternatives nor the greed of repetitions changes which they are. -/
namespace LogConsumer.Pattern

inductive Chain (R : List Char → List Char → Prop) : Nat → List Char → List Char → Prop
  | nil (cs : List Char) : Chain R 0 cs cs
  | cons {n : Nat} {cs mid rest : List Char} (h : R cs mid) (hrest : Chain R n mid rest) :
    Chain R (n + 1) cs rest

/-- `p` matches the front of `cs` and leaves `rest`, in a text of `size` characters. Where the
bounds of a repetition are out of order, it is repeated the least number of times. -/
def Matches (size : Nat) : Pattern → List Char → List Char → Prop
  | empty, cs, rest => rest = cs
  | chars set, cs, rest => ∃ c, cs = c :: rest ∧ set.contains c = true
  | start, cs, rest => rest = cs ∧ cs.length = size
  | finish, cs, rest => rest = cs ∧ cs = []
  | seq p q, cs, rest => ∃ mid, Matches size p cs mid ∧ Matches size q mid rest
  | alt p q, cs, rest => Matches size p cs rest ∨ Matches size q cs rest
  | repeated p least most _, cs, rest =>
    ∃ n, least ≤ n ∧ (∀ m ∈ most, n ≤ max least m) ∧ Chain (Matches size p) n cs rest

def MatchesWhole (p : Pattern) (s : String) : Prop := p.Matches s.toList.length s.toList []

namespace Chain

variable {R R' : List Char → List Char → Prop} {n : Nat} {cs rest : List Char}

theorem mono (hR : ∀ cs rest, R cs rest → R' cs rest) (h : Chain R n cs rest) :
    Chain R' n cs rest := by
  induction h with
  | nil => exact .nil _
  | cons h _ ih => exact .cons (hR _ _ h) ih

theorem congr (hR : ∀ cs rest, R cs rest ↔ R' cs rest) : Chain R n cs rest ↔ Chain R' n cs rest :=
  ⟨mono fun _ _ => (hR _ _).1, mono fun _ _ => (hR _ _).2⟩

end Chain

/-- A repetition either is left at once, or it has a round and its bounds are one less. -/
theorem matches_repeated_iff {size least : Nat} {p : Pattern} {most : Option Nat} {greedy : Bool}
    {cs rest : List Char} : (repeated p least most greedy).Matches size cs rest ↔
      (least = 0 ∧ rest = cs) ∨ ((0 < least ∨ most ≠ some 0) ∧ ∃ mid, p.Matches size cs mid ∧
        (repeated p (least - 1) (most.map (· - 1)) greedy).Matches size mid rest) := by
  constructor
  · rintro ⟨n, hleast, hmost, hchain⟩
    cases hchain with
    | nil => exact .inl ⟨Nat.le_zero.1 hleast, rfl⟩
    | @cons n _ mid _ h hrest =>
      refine .inr ⟨?_, mid, h, n, by omega, ?_, hrest⟩
      · refine (Nat.eq_zero_or_pos least).elim (fun hzero => .inr fun heq => ?_) .inl
        have := hmost 0 heq
        omega
      · intro m hm
        obtain ⟨k, hk, rfl⟩ := Option.map_eq_some_iff.1 hm
        have := hmost k hk
        omega
  · rintro (⟨rfl, rfl⟩ | ⟨hround, mid, h, n, hleast, hmost, hrest⟩)
    · exact ⟨0, Nat.le_refl 0, fun _ _ => Nat.zero_le _, .nil _⟩
    · refine ⟨n + 1, by omega, fun m hm => ?_, .cons h hrest⟩
      have hn := hmost (m - 1) (Option.map_eq_some_iff.2 ⟨m, hm, rfl⟩)
      have hpos : 0 < least ∨ m ≠ 0 := hround.imp_right fun hne hzero => hne (hzero ▸ hm)
      omega

/-- The same pattern but for the order of alternatives and the greed of repetitions. -/
inductive Rearranged : Pattern → Pattern → Prop
  | refl (p : Pattern) : Rearranged p p
  | trans {p q r : Pattern} (h : Rearranged p q) (h' : Rearranged q r) : Rearranged p r
  | swap (p q : Pattern) : Rearranged (.alt p q) (.alt q p)
  | exchange (p q r : Pattern) : Rearranged (.alt p (.alt q r)) (.alt q (.alt p r))
  | alt {p p' q q' : Pattern} (h : Rearranged p p') (h' : Rearranged q q') :
    Rearranged (.alt p q) (.alt p' q')
  | seq {p p' q q' : Pattern} (h : Rearranged p p') (h' : Rearranged q q') :
    Rearranged (.seq p q) (.seq p' q')
  | repeated {p p' : Pattern} (h : Rearranged p p') (least : Nat) (most : Option Nat)
    (greedy greedy' : Bool) :
    Rearranged (.repeated p least most greedy) (.repeated p' least most greedy')

theorem Rearranged.matches_iff {p q : Pattern} (h : Rearranged p q) {size : Nat}
    {cs rest : List Char} : p.Matches size cs rest ↔ q.Matches size cs rest := by
  induction h generalizing cs rest with
  | refl => exact Iff.rfl
  | trans _ _ ih ih' => exact ih.trans ih'
  | swap p q => exact or_comm
  | exchange p q r => exact or_left_comm
  | alt _ _ ih ih' => exact or_congr ih ih'
  | seq _ _ ih ih' => exact exists_congr fun _ => and_congr ih ih'
  | repeated _ _ _ _ _ ih =>
    exact exists_congr fun _ => and_congr_right' (and_congr_right' (Chain.congr fun _ _ => ih))

theorem Rearranged.matchesWhole_iff {p q : Pattern} (h : Rearranged p q) {s : String} :
    p.MatchesWhole s ↔ q.MatchesWhole s := h.matches_iff

end LogConsumer.Pattern
