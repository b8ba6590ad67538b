import LogConsumer.Pattern.Parser
import Mathlib.Data.Option.Basic

/-! Where reading a pattern stops. What a reader reads does not depend on what comes after it, once
it has read its piece: for sets and names whatever comes, for all else a closing parenthesis and
anything after it. Nor does it depend on the bound, once the bound is enough. Main statement:
`Extends.of_le`. -/
namespace LogConsumer.Pattern

variable {cs rest : List Char}

theorem readSetItem_append {i : SetItem} (h : readSetItem cs = some (i, rest))
    (tail : List Char) : readSetItem (cs ++ tail) = some (i, rest ++ tail) := by
  rcases cs with _ | ⟨c, _ | ⟨d, cs⟩⟩
  · cases h
  · by_cases hc : c = '\\'
    · subst hc
      cases h
    · simp_all [readSetItem]
  · by_cases hc : c = '\\'
    · subst hc
      simp only [readSetItem, List.cons_append] at h ⊢
      split at h <;> simp_all
    · simp_all [readSetItem]

theorem readSetItems_nil (bound : Nat) : readSetItems bound [] = none := by
  cases bound <;> rfl

theorem readSetItems_singleton {c : Char} (hc : c ≠ ']') (bound : Nat) :
    readSetItems bound [c] = none := by
  cases bound with
  | zero => rfl
  | succ bound =>
    by_cases hopen : c = '['
    · rw [hopen]
      rfl
    · rw [readSetItems]
      · by_cases hslash : c = '\\'
        · rw [hslash]
          rfl
        · simp [readSetItem, hslash, readSetItems_nil]
      all_goals simp [hc, hopen]

/-- How a set goes on after an item: a hyphen makes a range of it and the next, unless it is the
last character or another hyphen follows. -/
def readAfterItem (more : List Char → Option (List SetItem × List Char)) (i : SetItem)
    (rest : List Char) : Option (List SetItem × List Char) :=
  match rest with
  | '-' :: ']' :: _ | '-' :: '-' :: _ => (more rest).bind fun a => some (i :: a.1, a.2)
  | '-' :: rest => (readSetItem rest).bind fun a => (more a.2).bind fun b =>
    (joinRange i a.1).bind fun range => some (range :: b.1, b.2)
  | rest => (more rest).bind fun a => some (i :: a.1, a.2)

theorem readAfterItem_append {more more' : List Char → Option (List SetItem × List Char)}
    {tail : List Char} (hnil : more [] = none)
    (hmore : ∀ cs items, more cs = some (items, rest) →
      more' (cs ++ tail) = some (items, rest ++ tail))
    {i : SetItem} {items : List SetItem} (h : readAfterItem more i cs = some (items, rest)) :
    readAfterItem more' i (cs ++ tail) = some (items, rest ++ tail) := by
  have cons_append (cs : List Char)
      (h : (more cs).bind (fun a => some (i :: a.1, a.2)) = some (items, rest)) :
      (more' (cs ++ tail)).bind (fun a => some (i :: a.1, a.2)) = some (items, rest ++ tail) := by
    obtain ⟨⟨items', rest'⟩, hitems, heq⟩ := Option.bind_eq_some_iff.1 h
    cases heq
    rw [hmore _ _ hitems]
    rfl
  unfold readAfterItem at h ⊢
  rcases cs with _ | ⟨c, _ | ⟨d, cs⟩⟩
  · simp [hnil] at h
  · by_cases hc : c = '-'
    · simp [hc, readSetItem] at h
    · have := cons_append [c] (by simpa [hc] using h)
      simpa [hc] using this
  · by_cases hc : c = '-'
    · subst hc
      by_cases hd : d = ']' ∨ d = '-'
      · rcases hd with rfl | rfl <;> exact cons_append _ h
      · simp only [not_or] at hd
        have h : (readSetItem (d :: cs)).bind (fun a => (more a.2).bind fun b =>
            (joinRange i a.1).bind fun range => some (range :: b.1, b.2)) = some (items, rest) := by
          simpa [hd] using h
        obtain ⟨⟨j, rest₁⟩, hj, h⟩ := Option.bind_eq_some_iff.1 h
        obtain ⟨⟨items', rest₂⟩, hitems, h⟩ := Option.bind_eq_some_iff.1 h
        obtain ⟨range, hrange, heq⟩ := Option.bind_eq_some_iff.1 h
        cases heq
        have hj' := readSetItem_append hj tail
        rw [List.cons_append] at hj'
        simp [hd, hj', hmore _ _ hitems, hrange]
    · have := cons_append (c :: d :: cs) (by simpa [hc] using h)
      simpa [hc] using this

theorem readSetItems_append {bound bound' : Nat} (hle : bound ≤ bound') {items : List SetItem}
    (h : readSetItems bound cs = some (items, rest)) (tail : List Char) :
    readSetItems bound' (cs ++ tail) = some (items, rest ++ tail) := by
  induction bound generalizing bound' cs items with
  | zero => cases h
  | succ bound ih =>
    obtain ⟨m, rfl⟩ := Nat.exists_eq_add_one_of_ne_zero (by omega : bound' ≠ 0)
    have hle : bound ≤ m := by omega
    rcases cs with _ | ⟨c, _ | ⟨d, cs⟩⟩
    · cases h
    · by_cases hc : c = ']'
      · subst hc
        cases h
        rfl
      · rw [readSetItems_singleton hc] at h
        cases h
    · unfold readSetItems at h
      split at h
      next heq =>
        cases h
        cases heq
        rfl
      iterate 4 cases h
      next h₁ h₂ h₃ h₄ h₅ =>
        obtain ⟨⟨i, rest₁⟩, hitem, h⟩ := Option.bind_eq_some_iff.1 h
        have hafter : readAfterItem (readSetItems m) i (rest₁ ++ tail) =
            some (items, rest ++ tail) :=
          readAfterItem_append (readSetItems_nil bound) (fun _ _ hitems => ih hle hitems) h
        have hitem' := readSetItem_append hitem tail
        rw [List.cons_append, List.cons_append] at hitem'
        rw [List.cons_append, List.cons_append, readSetItems]
        · exact Option.bind_eq_some_iff.2 ⟨_, hitem', hafter⟩
        all_goals
          rintro _ ⟨⟩
          simp_all

theorem takeWhile_append_of_dropWhile {p : Char → Bool} (h : cs.dropWhile p ≠ [])
    (tail : List Char) : (cs ++ tail).takeWhile p = cs.takeWhile p := by
  rw [List.takeWhile_append, if_neg]
  intro hlen
  have := congrArg List.length (List.takeWhile_append_dropWhile (p := p) (l := cs))
  rw [List.length_append] at this
  exact h (List.length_eq_zero_iff.1 (by omega))

theorem dropWhile_append_of_ne_nil {p : Char → Bool} (h : cs.dropWhile p ≠ []) (tail : List Char) :
    (cs ++ tail).dropWhile p = cs.dropWhile p ++ tail := by
  rw [List.dropWhile_append, if_neg (by simpa using h)]

theorem takeWhile_append_cons {p : Char → Bool} {c : Char} (hc : p c = false)
    (cs tail : List Char) :
    (cs ++ c :: tail).takeWhile p = cs.takeWhile p := by
  rw [List.takeWhile_append]
  split
  next h =>
    rw [List.takeWhile_cons_of_neg (by simp [hc]), List.append_nil]
    exact ((List.takeWhile_prefix p).eq_of_length h).symm
  next => rfl

theorem dropWhile_append_cons {p : Char → Bool} {c : Char} (hc : p c = false)
    (cs tail : List Char) :
    (cs ++ c :: tail).dropWhile p = cs.dropWhile p ++ c :: tail := by
  rw [List.dropWhile_append, List.dropWhile_cons_of_neg (by simp [hc])]
  split
  next h => rw [List.isEmpty_iff.1 h, List.nil_append]
  next => rfl

theorem readSetFront_append (h : (readSetFront cs).2 ≠ []) (tail : List Char) :
    readSetFront (cs ++ tail) = ((readSetFront cs).1, (readSetFront cs).2 ++ tail) := by
  unfold readSetFront at h ⊢
  dsimp only at h ⊢
  have hdrop : cs.dropWhile (· == '-') ≠ [] := by
    intro hnil
    rw [hnil] at h
    split at h
    next heq => cases heq
    next => exact h rfl
  rw [takeWhile_append_of_dropWhile hdrop, dropWhile_append_of_ne_nil hdrop]
  obtain ⟨c, rest, hcons⟩ := List.exists_cons_of_ne_nil hdrop
  rw [hcons, List.cons_append]
  generalize (cs.takeWhile (· == '-')).map (fun c => SetItem.range c c) = hyphens
  rcases hyphens with _ | ⟨i, hyphens⟩
  · by_cases hc : c = ']'
    · subst hc
      rfl
    · simp [hc]
  · rfl

theorem readSet_append {ignoreCase : Bool} {set : CharSet}
    (h : readSet ignoreCase cs = some (set, rest)) (tail : List Char) :
    readSet ignoreCase (cs ++ tail) = some (set, rest ++ tail) := by
  have items_append (cs : List Char) (negated : Bool)
      (h : (readSetItems ((readSetFront cs).2.length + 1) (readSetFront cs).2).bind
        (fun a => some (⟨(readSetFront cs).1 ++ a.1, negated, ignoreCase⟩, a.2)) =
          some (set, rest)) :
      (readSetItems ((readSetFront (cs ++ tail)).2.length + 1) (readSetFront (cs ++ tail)).2).bind
        (fun a => some (⟨(readSetFront (cs ++ tail)).1 ++ a.1, negated, ignoreCase⟩, a.2)) =
          some (set, rest ++ tail) := by
    obtain ⟨⟨items, rest₁⟩, hitems, heq⟩ := Option.bind_eq_some_iff.1 h
    cases heq
    have hrest : (readSetFront cs).2 ≠ [] := by
      intro hnil
      rw [hnil, readSetItems_nil] at hitems
      cases hitems
    rw [readSetFront_append hrest, readSetItems_append (by simp) hitems tail]
    rfl
  unfold readSet at h ⊢
  rcases cs with _ | ⟨c, cs⟩
  · cases h
  · by_cases hc : c = '^'
    · subst hc
      exact items_append cs true h
    · have := items_append (c :: cs) false (by simpa [hc] using h)
      simpa [hc] using this

theorem readCount_append {n : Nat} (h : readCount cs = some (n, rest)) (tail : List Char) :
    readCount (cs ++ ')' :: tail) = some (n, rest ++ ')' :: tail) := by
  -- a closing parenthesis ends both the digits and the blanks around them
  have hblank : Text.isBlank ')' = false := by decide
  have hdigit : Decimal.isDigit ')' = false := by decide
  unfold readCount at h ⊢
  dsimp only at h ⊢
  rw [dropWhile_append_cons hblank, takeWhile_append_cons hdigit]
  split at h
  next => cases h
  next digits hne =>
    split at h
    next hlt =>
      cases h
      rw [if_pos hlt, dropWhile_append_cons hdigit, dropWhile_append_cons hblank]
    next => cases h

theorem readCounts_append {least : Nat} {most : Option Nat}
    (h : readCounts cs = some (least, most, rest)) (tail : List Char) :
    readCounts (cs ++ ')' :: tail) = some (least, most, rest ++ ')' :: tail) := by
  obtain ⟨⟨n, rest₁⟩, hn, h⟩ := Option.bind_eq_some_iff.1 h
  refine Option.bind_eq_some_iff.2 ⟨_, readCount_append hn tail, ?_⟩
  dsimp only at h ⊢
  split at h
  next =>
    cases h
    rfl
  next =>
    cases h
    rfl
  next rest₂ hbrace =>
    obtain ⟨⟨m, rest₃⟩, hm, h⟩ := Option.bind_eq_some_iff.1 h
    obtain ⟨_, hle, h⟩ := Option.bind_eq_some_iff.1 h
    split at h
    next heq =>
      cases heq
      cases h
      rcases rest₂ with _ | ⟨c, rest₂⟩
      · cases hm
      · have hc : c ≠ '\x7d' := by
          rintro rfl
          exact hbrace _ rfl
        have hm' := readCount_append hm tail
        rw [List.cons_append] at hm'
        simp [hc, hm', hle]
    next => cases h
  next => cases h

theorem readBounds_append {bounds : Option (Nat × Option Nat)}
    (h : readBounds cs = some (bounds, rest)) (tail : List Char) :
    readBounds (cs ++ ')' :: tail) = some (bounds, rest ++ ')' :: tail) := by
  unfold readBounds at h
  split at h
  iterate 3
    next =>
      cases h
      rfl
  next rest₁ =>
    obtain ⟨⟨least, most, rest₂⟩, hcounts, h⟩ := Option.bind_eq_some_iff.1 h
    cases h
    rw [List.cons_append, readBounds, readCounts_append hcounts]
    rfl
  next h₁ h₂ h₃ h₄ =>
    cases h
    rcases cs with _ | ⟨c, cs⟩
    · rfl
    · rw [List.cons_append, readBounds]
      all_goals
        rintro _ ⟨⟩
        simp_all

theorem readGreed_append (cs tail : List Char) :
    readGreed (cs ++ ')' :: tail) = ((readGreed cs).1, (readGreed cs).2 ++ ')' :: tail) := by
  unfold readGreed
  rcases cs with _ | ⟨c, cs⟩
  · rfl
  · by_cases hc : c = '?'
    · subst hc
      rfl
    · simp [hc]

theorem readRepetitions_append {bound bound' : Nat} (hle : bound ≤ bound') {p q : Pattern}
    (h : readRepetitions bound p cs = some (q, rest)) (tail : List Char) :
    readRepetitions bound' p (cs ++ ')' :: tail) = some (q, rest ++ ')' :: tail) := by
  induction bound generalizing bound' p cs with
  | zero => cases h
  | succ bound ih =>
    obtain ⟨m, rfl⟩ := Nat.exists_eq_add_one_of_ne_zero (by omega : bound' ≠ 0)
    obtain ⟨⟨bounds, rest₁⟩, hbounds, h⟩ := Option.bind_eq_some_iff.1 h
    rw [readRepetitions, readBounds_append hbounds]
    rcases bounds with _ | ⟨least, most⟩
    · cases h
      rfl
    · simp only [Option.bind_eq_bind, Option.bind_some]
      rw [readGreed_append]
      exact ih (by omega) h

theorem readName_append {context : Context} {head : GroupHead}
    (h : readName context cs = some (head, rest)) (tail : List Char) :
    readName context (cs ++ tail) = some (head, rest ++ tail) := by
  have hdrop : cs.dropWhile (· != '>') ≠ [] := by
    intro hnil
    rw [readName, hnil] at h
    split at h
    next heq => cases heq
    next => cases h
  unfold readName at h ⊢
  rw [takeWhile_append_of_dropWhile hdrop, dropWhile_append_of_ne_nil hdrop]
  obtain ⟨c, rest', hcons⟩ := List.exists_cons_of_ne_nil hdrop
  rw [hcons] at h ⊢
  rw [List.cons_append]
  split at h
  next heq =>
    cases heq
    split at h
    next hname =>
      cases h
      simp_all
    next => cases h
  next => cases h

theorem readGroupHead_append {context : Context} {head : GroupHead}
    (h : readGroupHead context cs = some (head, rest)) (tail : List Char) :
    readGroupHead context (cs ++ ')' :: tail) = some (head, rest ++ ')' :: tail) := by
  unfold readGroupHead at h
  split at h
  iterate 5
    next =>
      cases h
      rfl
  iterate 2
    next => exact readName_append h _
  next => cases h
  next =>
    cases h
    rcases cs with _ | ⟨c, cs⟩
    · rfl
    · have hc : c ≠ '?' := by
        rintro rfl
        simp_all
      simp [readGroupHead, hc]

/-- What the readers within `bound` read of a text, those within `bound'` read of it in front of a
closing parenthesis. -/
structure Extends (bound bound' : Nat) : Prop where
  alternatives {context context' : Context} {cs rest : List Char} {p : Pattern} :
    readAlternatives bound context cs = some (p, context', rest) → ∀ tail,
      readAlternatives bound' context (cs ++ ')' :: tail) = some (p, context', rest ++ ')' :: tail)
  sequence {context context' : Context} {cs rest : List Char} {p : Pattern} :
    readSequence bound context cs = some (p, context', rest) → ∀ tail,
      readSequence bound' context (cs ++ ')' :: tail) = some (p, context', rest ++ ')' :: tail)
  piece {context context' : Context} {cs rest : List Char} {p : Option Pattern} :
    readPiece bound context cs = some (p, context', rest) → ∀ tail,
      readPiece bound' context (cs ++ ')' :: tail) = some (p, context', rest ++ ')' :: tail)

namespace Extends

variable {bound bound' : Nat} {context context' : Context}

theorem alternatives_succ (hext : Extends bound bound') {p : Pattern}
    (h : readAlternatives (bound + 1) context cs = some (p, context', rest)) (tail : List Char) :
    readAlternatives (bound' + 1) context (cs ++ ')' :: tail) =
      some (p, context', rest ++ ')' :: tail) := by
  unfold readAlternatives at h ⊢
  obtain ⟨⟨first, context₁, rest₁⟩, hfirst, h⟩ := Option.bind_eq_some_iff.1 h
  simp only [hext.sequence hfirst, Option.bind_eq_bind, Option.bind_some]
  dsimp only at h
  split at h
  next =>
    obtain ⟨⟨q, context₂, rest₂⟩, hq, h⟩ := Option.bind_eq_some_iff.1 h
    cases h
    simp [hext.alternatives hq]
  next hbar =>
    cases h
    rcases rest with _ | ⟨c, rest⟩
    · rfl
    · have hc : c ≠ '|' := by
        rintro rfl
        exact hbar _ rfl
      simp [hc]

theorem sequence_succ (hext : Extends bound bound') {p : Pattern}
    (h : readSequence (bound + 1) context cs = some (p, context', rest)) (tail : List Char) :
    readSequence (bound' + 1) context (cs ++ ')' :: tail) =
      some (p, context', rest ++ ')' :: tail) := by
  unfold readSequence at h
  split at h
  iterate 3
    next =>
      cases h
      rfl
  next hne hbar hclose =>
    rcases cs with _ | ⟨c, cs⟩
    · exact (hne rfl).elim
    · rw [List.cons_append, readSequence]
      · rw [← List.cons_append]
        obtain ⟨⟨piece, context₁, rest₁⟩, hpiece, h⟩ := Option.bind_eq_some_iff.1 h
        simp only [hext.piece hpiece, Option.bind_eq_bind, Option.bind_some]
        rcases piece with _ | first
        · exact hext.sequence h tail
        · obtain ⟨⟨p', rest₂⟩, hrep, h⟩ := Option.bind_eq_some_iff.1 h
          obtain ⟨⟨q, context₂, rest₃⟩, hq, h⟩ := Option.bind_eq_some_iff.1 h
          cases h
          have hle : rest₁.length + 1 ≤ (rest₁ ++ ')' :: tail).length + 1 := by simp
          simp only [readRepetitions_append hle hrep, hext.sequence hq, Option.bind_some]
          rfl
      · rintro ⟨⟩
      · rintro _ ⟨⟩
        exact hbar _ rfl
      · rintro _ ⟨⟩
        exact hclose _ rfl

theorem piece_succ (hext : Extends bound bound') {p : Option Pattern}
    (h : readPiece (bound + 1) context cs = some (p, context', rest)) (tail : List Char) :
    readPiece (bound' + 1) context (cs ++ ')' :: tail) =
      some (p, context', rest ++ ')' :: tail) := by
  unfold readPiece at h
  split at h
  next cs =>
    obtain ⟨⟨head, rest₁⟩, hhead, h⟩ := Option.bind_eq_some_iff.1 h
    rw [List.cons_append, readPiece, readGroupHead_append hhead]
    rcases head with inner | flags
    · obtain ⟨⟨q, inner', rest₂⟩, hq, h⟩ := Option.bind_eq_some_iff.1 h
      dsimp only at h
      split at h
      next =>
        cases h
        simp [hext.alternatives hq]
      next => cases h
    · cases h
      rfl
  next cs =>
    obtain ⟨⟨set, rest₁⟩, hset, h⟩ := Option.bind_eq_some_iff.1 h
    cases h
    rw [List.cons_append, readPiece, readSet_append hset]
    rfl
  next c cs =>
    rw [List.cons_append, List.cons_append, readPiece]
    split at h
    iterate 3
      next =>
        cases h
        simp
    next => cases h
  iterate 3
    next =>
      cases h
      rfl
  next c cs h₁ h₂ h₃ h₄ h₅ h₆ =>
    split at h
    next => cases h
    next hc =>
      cases h
      rw [List.cons_append, readPiece, if_neg hc]
      all_goals simp_all
  next => cases h

theorem succ (hext : Extends bound bound') : Extends (bound + 1) (bound' + 1) where
  alternatives := hext.alternatives_succ
  sequence := hext.sequence_succ
  piece := hext.piece_succ

theorem of_le (hle : bound ≤ bound') : Extends bound bound' := by
  induction bound generalizing bound' with
  | zero => constructor <;> rintro _ _ _ _ _ ⟨⟩
  | succ bound ih =>
    obtain ⟨m, rfl⟩ := Nat.exists_eq_add_one_of_ne_zero (by omega : bound' ≠ 0)
    exact (ih (by omega)).succ

end Extends

end LogConsumer.Pattern
