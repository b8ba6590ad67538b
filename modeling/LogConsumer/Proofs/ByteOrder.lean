import LogConsumer.Partition
import Mathlib.Tactic.SplitIfs

/-! The order of texts and partitions. It is that of the bytes of texts in UTF-8, and of partitions of
one topic by their numbers. -/
namespace LogConsumer
namespace Text

def bytes (s : String) : List UInt8 := s.toUTF8.data.toList

theorem bytes_eq (s : String) : bytes s = s.toList.flatMap String.utf8EncodeChar := by
  rw [bytes, String.toUTF8, ← String.utf8Encode_toList, List.utf8Encode, List.data_toByteArray]

/-- The bytes of a lesser character are less before either ends. -/
theorem utf8EncodeChar_lt {c d : Char} (h : c < d) (l l' : List UInt8) :
    String.utf8EncodeChar c ++ l < String.utf8EncodeChar d ++ l' := by
  have hlt : c.val.toNat < d.val.toNat := h
  have hbound : d.val.toNat < 1114112 := by
    have hvalid := d.valid
    simp only [UInt32.isValidChar, Nat.isValidChar] at hvalid
    omega
  -- The digits of a number to base 64 are the remainders of one division after the other.
  have hsecond (k : Nat) : k / 4096 = k / 64 / 64 := (Nat.div_div_eq_div_mul k 64 64).symm
  have hthird (k : Nat) : k / 262144 = k / 64 / 64 / 64 := by
    rw [Nat.div_div_eq_div_mul, Nat.div_div_eq_div_mul]
  simp only [String.utf8EncodeChar, hsecond, hthird]
  generalize c.val.toNat = m at hlt ⊢
  generalize d.val.toNat = n at hlt hbound ⊢
  split_ifs <;>
    simp only [List.cons_append, List.nil_append, List.cons_lt_cons_iff, UInt8.lt_iff_toNat_lt,
      ← UInt8.toNat_inj, UInt8.toNat_ofNat'] <;>
    omega

theorem flatMap_utf8EncodeChar_lt {cs ds : List Char} (h : cs < ds) :
    cs.flatMap String.utf8EncodeChar < ds.flatMap String.utf8EncodeChar := by
  induction cs generalizing ds with
  | nil =>
    cases ds with
    | nil => cases h
    | cons d ds =>
      obtain ⟨b, l, hd⟩ := List.exists_cons_of_ne_nil (String.utf8EncodeChar_ne_nil (c := d))
      rw [List.flatMap_cons, hd]
      exact List.nil_lt_cons b _
  | cons c cs ih =>
    cases ds with
    | nil => cases h
    | cons d ds =>
      rw [List.flatMap_cons, List.flatMap_cons]
      rcases List.cons_lt_cons_iff.1 h with hlt | ⟨rfl, hlt⟩
      · exact utf8EncodeChar_lt hlt _ _
      · exact List.append_left_lt (ih hlt)

theorem compare_eq_lt_iff {s t : String} : compare s t = .lt ↔ bytes s < bytes t := by
  have hlt {s t : String} (h : compare s t = .lt) : bytes s < bytes t := by
    have hchars : s < t := compareOfLessAndEq_eq_lt.1 h
    rw [bytes_eq, bytes_eq]
    exact flatMap_utf8EncodeChar_lt hchars
  refine ⟨hlt, fun h => ?_⟩
  cases hcompare : compare s t with
  | lt => rfl
  | eq =>
    cases Std.LawfulEqCmp.eq_of_compare hcompare
    exact absurd h (List.lt_irrefl _)
  | gt => exact absurd (hlt (Std.OrientedCmp.lt_of_gt hcompare)) (List.lt_asymm h)

end Text

namespace Partition

variable {p q : Partition}

/-- Partitions are in the order of their topics' bytes, and within a topic in that of their numbers. -/
def Before (p q : Partition) : Prop :=
  Text.bytes p.topic < Text.bytes q.topic ∨ p.topic = q.topic ∧ p.index < q.index

theorem before_iff : p.Before q ↔ compare p q = .lt := by
  have hlex : compare p q = (compare p.topic q.topic).then (compare p.index q.index) := rfl
  rw [hlex, Ordering.then_eq_lt, Text.compare_eq_lt_iff, Int.compare_eq_lt,
    Std.LawfulEqOrd.compare_eq_iff_eq, Before]

theorem Before.asymm (h : p.Before q) : ¬ q.Before p := by
  intro h'
  cases (before_iff.1 h').symm.trans (Std.OrientedCmp.gt_of_lt (before_iff.1 h))

theorem Before.ne (h : p.Before q) : p ≠ q := by
  rintro rfl
  exact h.asymm h

theorem pairwise_keys (ps : SortedSet Partition) : ps.keys.Pairwise Before :=
  List.pairwise_map.2 (ps.sorted.imp before_iff.2)

theorem mem_iff_before {ps : SortedSet Partition} {before after : List Partition}
    (h : ps.keys = before ++ p :: after) : q ∈ before ↔ ps.contains q = true ∧ q.Before p := by
  have hpairwise := pairwise_keys ps
  rw [h, List.pairwise_append, List.pairwise_cons] at hpairwise
  obtain ⟨-, ⟨hafter, -⟩, hbefore⟩ := hpairwise
  rw [← SortedMap.mem_keys_iff, h, List.mem_append, List.mem_cons]
  constructor
  · intro hq
    exact ⟨.inl hq, hbefore q hq p (List.mem_cons_self ..)⟩
  · rintro ⟨hq | rfl | hq, hlt⟩
    · exact hq
    · exact absurd rfl hlt.ne
    · exact absurd (hafter q hq) hlt.asymm

end Partition

end LogConsumer
