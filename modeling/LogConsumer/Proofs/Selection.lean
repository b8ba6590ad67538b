import LogConsumer.Cluster
import LogConsumer.Pattern.Parser
import LogConsumer.Proofs.Search

/-! The topics that a pattern selects, and those whose whole name it matches. The search settles
for the match that it prefers, even if that is a shorter one. Main statement:
`topicsMatching_eq_language_iff`. -/
namespace LogConsumer

namespace Pattern

variable {p q : Pattern} {s : String}

theorem spans_iff_find? : p.spans s = true ↔ p.find? s.toList = some (s.toList, []) := by
  unfold spans
  cases h : p.find? s.toList with
  | none => simp
  | some found =>
    obtain ⟨fromStart, rest⟩ := found
    simp only [Bool.and_eq_true, beq_iff_eq, List.isEmpty_iff, Option.some.injEq, Prod.mk.injEq]
    refine and_congr_left' ⟨fun hlength => ?_, fun heq => heq ▸ rfl⟩
    exact (findFrom_eq_some h).1.eq_of_length hlength

/-- The search finds a match at the front of `s` that ends before `s` does. -/
def PrefersShorter (p : Pattern) (s : String) : Prop :=
  ∃ rest, p.find? s.toList = some (s.toList, rest) ∧ rest ≠ []

theorem MatchesWhole.find? (h : p.MatchesWhole s) :
    ∃ rest, p.find? s.toList = some (s.toList, rest) := by
  obtain ⟨⟨fromStart, rest⟩, hfind⟩ :=
    Option.ne_none_iff_exists'.1 (findFrom_ne_none List.suffix_rfl h)
  obtain ⟨hsuffix, -, hfirst⟩ := findFrom_eq_some hfind
  have hlength : s.toList.length ≤ fromStart.length := Nat.not_lt.1 fun hlt =>
    hfirst s.toList List.suffix_rfl hlt [] h
  obtain rfl := hsuffix.eq_of_length_le hlength
  exact ⟨rest, hfind⟩

theorem matches_of_find? {rest : List Char} (h : p.find? s.toList = some (s.toList, rest)) :
    p.Matches s.toList.length s.toList rest :=
  (findFrom_eq_some h).2.1

-- The second round would begin where the first one has been, so the search leaves the repetition.
example : (read? "(?:a?b??)*").bind (·.find? "ab".toList) = some (['a', 'b'], ['b']) := by
  decide +kernel

theorem spans_iff : p.spans s = true ↔ p.MatchesWhole s ∧ ¬ p.PrefersShorter s := by
  rw [spans_iff_find?]
  refine ⟨fun h => ⟨matches_of_find? h, ?_⟩, ?_⟩
  · rintro ⟨rest, hfind, hrest⟩
    cases h.symm.trans hfind
    exact hrest rfl
  · rintro ⟨hwhole, hshorter⟩
    obtain ⟨rest, hfind⟩ := hwhole.find?
    have hrest : rest = [] := Decidable.not_not.1 fun hne => hshorter ⟨rest, hfind, hne⟩
    rw [hfind, hrest]

/-- Where no match from the front ends early, no arrangement of the pattern prefers one. -/
theorem Rearranged.not_prefersShorter (h : Rearranged p q)
    (hwhole : ∀ rest, p.Matches s.toList.length s.toList rest → rest = []) :
    ¬ q.PrefersShorter s := by
  rintro ⟨rest, hfind, hrest⟩
  exact hrest (hwhole rest (h.matches_iff.2 (matches_of_find? hfind)))

end Pattern

namespace Cluster

open Pattern

variable {c : Cluster} {p q : Pattern}

theorem contains_topicsMatching_iff {t : String} :
    (c.topicsMatching p).contains t = true ↔
      t ∈ c.topicNames ∧ p.MatchesWhole t ∧ ¬ p.PrefersShorter t := by
  rw [topicsMatching, SortedMap.contains_setOf, List.mem_filter, spans_iff]

/-- A pattern selects topics whose whole name it matches, and all of these exactly if for none of
them the search prefers a shorter match. -/
theorem topicsMatching_eq_language_iff (c : Cluster) (p : Pattern) :
    (∀ t, (c.topicsMatching p).contains t = true → t ∈ c.topicNames ∧ p.MatchesWhole t) ∧
      ((∀ t, (c.topicsMatching p).contains t = true ↔ t ∈ c.topicNames ∧ p.MatchesWhole t) ↔
        ∀ t ∈ c.topicNames, p.MatchesWhole t → ¬ p.PrefersShorter t) ∧
      (∀ q, Rearranged p q →
        (∀ t ∈ c.topicNames, p.MatchesWhole t → ¬ p.PrefersShorter t ∧ ¬ q.PrefersShorter t) →
          c.topicsMatching q = c.topicsMatching p) ∧
      ∀ t, (∀ rest, p.Matches t.toList.length t.toList rest → rest = []) →
        ∀ q, Rearranged p q → ¬ q.PrefersShorter t := by
  refine ⟨?_, ?_, ?_, fun t hwhole q h => h.not_prefersShorter hwhole⟩
  · intro t h
    have ⟨hknown, hwhole, _⟩ := contains_topicsMatching_iff.1 h
    exact ⟨hknown, hwhole⟩
  · refine ⟨fun h t hknown hwhole => ?_, fun h t => ?_⟩
    · exact (contains_topicsMatching_iff.1 ((h t).2 ⟨hknown, hwhole⟩)).2.2
    · rw [contains_topicsMatching_iff]
      exact and_congr_right fun hknown => and_iff_left_of_imp (h t hknown)
  · intro q hpq h
    refine SortedMap.ext_contains fun t => ?_
    rw [contains_topicsMatching_iff, contains_topicsMatching_iff, ← hpq.matchesWhole_iff]
    refine and_congr_right fun hknown => and_congr_right fun hwhole => ?_
    exact iff_of_true (h t hknown hwhole).2 (h t hknown hwhole).1

/-- Both patterns match the whole of `ab`, but the first prefers to stop after `a`. -/
theorem topicsMatching_order_matters :
    ∃ c p q, empty.createTopic "ab" 1 = .ok c ∧
      Pattern.read? "a|ab" = some p ∧ Pattern.read? "ab|a" = some q ∧ Rearranged p q ∧
      "ab" ∈ c.topicNames ∧ p.MatchesWhole "ab" ∧ q.MatchesWhole "ab" ∧
      (c.topicsMatching p).contains "ab" = false ∧ (c.topicsMatching q).contains "ab" = true := by
  refine ⟨_, _, _, rfl, rfl, rfl, .swap _ _, by decide, ?_, ?_, by decide, by decide⟩
  · exact (Rearranged.swap _ _).matchesWhole_iff.2 (spans_iff.1 (by decide)).1
  · exact (spans_iff.1 (by decide)).1

end Cluster

end LogConsumer
