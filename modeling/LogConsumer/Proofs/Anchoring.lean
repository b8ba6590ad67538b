import LogConsumer.Proofs.Reading
import LogConsumer.Proofs.Selection

/-! Patterns between both anchors. A search that must end at the end of a name cannot settle for a
shorter match, so what it prefers no longer matters. Main statement: `topicsMatching_anchored`. -/
namespace LogConsumer

namespace Pattern

variable {p : Pattern} {cs rest : List Char}

theorem read?_eq_some_iff {text : String} : read? text = some p ↔
    ∃ context, readAlternatives (3 * text.toList.length + 3) ⟨false, []⟩ text.toList =
      some (p, context, []) := by
  unfold read?
  constructor
  · intro h
    obtain ⟨⟨q, context, rest⟩, hread, h⟩ := Option.bind_eq_some_iff.1 h
    obtain ⟨_, hrest, h⟩ := Option.bind_eq_some_iff.1 h
    cases h
    rcases rest with _ | ⟨c, rest⟩
    · exact ⟨context, hread⟩
    · cases hrest
  · rintro ⟨context, hread⟩
    simp only [hread, Option.bind_eq_bind, Option.bind_some]
    rfl

/-- The pattern of `p`'s text in a group between both anchors. -/
def anchored (p : Pattern) : Pattern :=
  .seq .start (.seq p (.seq .finish .empty))

section Anchored

variable {bound : Nat} {context inner : Context}

theorem readSequence_piece {c : Char} {q : Pattern} {context' : Context} {rest' : List Char}
    (hbar : c ≠ '|') (hclose : c ≠ ')')
    (hpiece : readPiece bound context (c :: cs) = some (some p, inner, rest))
    (hbounds : readBounds rest = some (none, rest))
    (hseq : readSequence bound inner rest = some (q, context', rest')) :
    readSequence (bound + 1) context (c :: cs) = some (.seq p q, context', rest') := by
  rw [readSequence, hpiece]
  · simp only [Option.bind_eq_bind, Option.bind_some, readRepetitions, hbounds, Option.pure_def,
      hseq]
  · rintro ⟨⟩
  · rintro _ ⟨⟩
    exact hbar rfl
  · rintro _ ⟨⟩
    exact hclose rfl

theorem readPiece_group {tail : List Char}
    (h : readAlternatives bound context cs = some (p, inner, ')' :: tail)) :
    readPiece (bound + 1) context ('(' :: '?' :: ':' :: cs) =
      some (some p, { inner with ignoreCase := context.ignoreCase }, tail) := by
  simp [readPiece, readGroupHead, h]

theorem readSequence_anchored
    (h : readAlternatives (bound + 1) context cs = some (p, inner, ')' :: ['$'])) :
    readSequence (bound + 4) context ('^' :: '(' :: '?' :: ':' :: cs) =
      some (p.anchored, { inner with ignoreCase := context.ignoreCase }, []) := by
  have hgroup : readSequence (bound + 3) context ('(' :: '?' :: ':' :: cs) =
      some (.seq p (.seq .finish .empty), { inner with ignoreCase := context.ignoreCase }, []) :=
    readSequence_piece (by decide) (by decide) (readPiece_group h) rfl rfl
  exact readSequence_piece (by decide) (by decide) rfl rfl hgroup

end Anchored

theorem read?_anchored {text : String} (h : read? text = some p) :
    read? ("^(?:" ++ text ++ ")$") = some p.anchored := by
  obtain ⟨context, hread⟩ := read?_eq_some_iff.1 h
  refine read?_eq_some_iff.2 ⟨⟨false, context.names⟩, ?_⟩
  have hlist : ("^(?:" ++ text ++ ")$").toList =
      '^' :: '(' :: '?' :: ':' :: (text.toList ++ ')' :: ['$']) := by
    simp [String.toList_append]
  obtain ⟨m, hm, hle⟩ : ∃ m, 3 * ("^(?:" ++ text ++ ")$").toList.length + 3 = m + 5 ∧
      3 * text.toList.length + 3 ≤ m + 1 := by
    refine ⟨3 * ("^(?:" ++ text ++ ")$").toList.length - 2, ?_⟩
    rw [hlist, List.length_cons]
    simp only [List.length_cons, List.length_append]
    omega
  have hgroup := (Extends.of_le hle).alternatives hread ['$']
  rw [hm, hlist, readAlternatives, readSequence_anchored hgroup]
  rfl

theorem matches_anchored_iff {size : Nat} :
    p.anchored.Matches size cs rest ↔ cs.length = size ∧ rest = [] ∧ p.Matches size cs [] := by
  constructor
  · rintro ⟨_, ⟨rfl, hsize⟩, mid, hp, _, ⟨rfl, rfl⟩, rfl⟩
    exact ⟨hsize, rfl, hp⟩
  · rintro ⟨hsize, rfl, hp⟩
    exact ⟨cs, ⟨rfl, hsize⟩, [], hp, [], ⟨rfl, rfl⟩, rfl⟩

theorem matchesWhole_anchored_iff {s : String} : p.anchored.MatchesWhole s ↔ p.MatchesWhole s := by
  simp [MatchesWhole, matches_anchored_iff]

theorem not_prefersShorter_anchored (p : Pattern) (s : String) :
    ¬ p.anchored.PrefersShorter s := by
  rintro ⟨rest, hfind, hrest⟩
  exact hrest (matches_anchored_iff.1 (matches_of_find? hfind)).2.1

end Pattern

namespace Cluster

open Pattern

theorem contains_topicsMatching_anchored_iff {c : Cluster} {p : Pattern} {t : String} :
    (c.topicsMatching p.anchored).contains t = true ↔ t ∈ c.topicNames ∧ p.MatchesWhole t := by
  rw [contains_topicsMatching_iff, matchesWhole_anchored_iff]
  exact and_congr_right fun _ => and_iff_left (not_prefersShorter_anchored p t)

/-- Between both anchors a pattern selects the known topics whose whole name it matches, in whatever
order its alternatives stand and whatever its repetitions prefer. -/
theorem topicsMatching_anchored (c : Cluster) (p : Pattern) :
    (∀ t, (c.topicsMatching p.anchored).contains t = true ↔
      t ∈ c.topicNames ∧ p.MatchesWhole t) ∧
      (∀ q, Rearranged p q → c.topicsMatching q.anchored = c.topicsMatching p.anchored) ∧
      ∀ text, Pattern.read? text = some p →
        Pattern.read? ("^(?:" ++ text ++ ")$") = some p.anchored := by
  refine ⟨fun t => contains_topicsMatching_anchored_iff, fun q hpq => ?_,
    fun text => read?_anchored⟩
  refine SortedMap.ext_contains fun t => ?_
  rw [contains_topicsMatching_anchored_iff, contains_topicsMatching_anchored_iff,
    hpq.matchesWhole_iff]

example : ∃ c p, empty.createTopic "ab" 1 = .ok c ∧ Pattern.read? "a|ab" = some p ∧
    (c.topicsMatching p).contains "ab" = false ∧
    (c.topicsMatching p.anchored).contains "ab" = true :=
  ⟨_, _, rfl, rfl, by decide, by decide⟩

end Cluster

end LogConsumer
