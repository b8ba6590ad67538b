/-! Decimal text of whole numbers, and the reader of 64-bit counts: an optional plus sign and
ASCII digits. The reader goes from left to right and stops at the first fault. -/
namespace LogConsumer.Decimal

def ofNat (n : Nat) : String := n.repr

def ofInt : Int → String
  | .ofNat n => ofNat n
  | .negSucc n => "-" ++ ofNat (n + 1)

def padded (width n : Nat) : List Char :=
  let digits := Nat.toDigits 10 n
  List.replicate (width - digits.length) '0' ++ digits

def isDigit (c : Char) : Bool := '0' ≤ c && c ≤ '9'

def digitValue (c : Char) : Nat := c.toNat - '0'.toNat

inductive Fault
  | empty
  | invalidDigit
  | tooLarge
deriving DecidableEq

namespace Fault

def message : Fault → String
  | empty => "cannot parse integer from empty string"
  | invalidDigit => "invalid digit found in string"
  | tooLarge => "number too large to fit in target type"

end Fault

/-- Reads the digits that follow the number `acc`. -/
def digits64 (acc : Nat) : List Char → Except Fault Nat
  | [] => .ok acc
  | c :: rest =>
    if isDigit c then
      let next := acc * 10 + digitValue c
      if next < UInt64.size then digits64 next rest else .error .tooLarge
    else .error .invalidDigit

/-- Reads a count below `2 ^ 64`; one plus sign may precede the digits. -/
def read64 : List Char → Except Fault Nat
  | [] => .error .empty
  | ['+'] | ['-'] => .error .invalidDigit
  | '+' :: rest => digits64 0 rest
  | cs => digits64 0 cs

def withoutPlus : List Char → List Char
  | '+' :: rest => rest
  | cs => cs

def leading (cs : List Char) : Nat := Nat.ofDigitChars 10 (cs.takeWhile isDigit) 0

theorem isDigit_of_mem_toDigits {n : Nat} {c : Char} (h : c ∈ Nat.toDigits 10 n) :
    isDigit c = true :=
  Nat.isDigit_of_mem_toDigits (by decide) (by decide) h

theorem hyphen_notMem_ofNat (n : Nat) : '-' ∉ (ofNat n).toList := by
  rw [ofNat, Nat.toList_repr]
  exact fun h => absurd (isDigit_of_mem_toDigits h) (by decide)

theorem ofNat_inj {m n : Nat} (h : ofNat m = ofNat n) : m = n := by
  have hdigits : Nat.toDigits 10 m = Nat.toDigits 10 n := by
    rw [← Nat.toList_repr, ← Nat.toList_repr]
    exact congrArg String.toList h
  calc
    m = Nat.ofDigitChars 10 (Nat.toDigits 10 m) 0 := Nat.ofDigitChars_ten_toDigits.symm
    _ = n := by rw [hdigits, Nat.ofDigitChars_ten_toDigits]

theorem eq_zero_of_toDigits {n : Nat} {cs : List Char} (h : Nat.toDigits 10 n = '0' :: cs) :
    n = 0 := by
  induction n using Nat.strongRecOn generalizing cs with
  | ind n ih =>
    by_cases hn : n < 10
    · rw [Nat.toDigits_of_lt_base hn, List.cons.injEq] at h
      have hzero : ∀ d < 10, Nat.digitChar d = '0' → d = 0 := by decide
      exact hzero n hn h.1
    · rw [Nat.toDigits_of_base_le (by decide) (by omega)] at h
      obtain ⟨c, front, hfront⟩ := List.exists_cons_of_ne_nil (@Nat.toDigits_ne_nil (n / 10) 10)
      rw [hfront, List.cons_append, List.cons.injEq] at h
      have := ih (n / 10) (by omega) (h.1 ▸ hfront)
      omega

theorem ofDigitChars_cons (c : Char) (cs : List Char) (acc : Nat) :
    Nat.ofDigitChars 10 (c :: cs) acc = Nat.ofDigitChars 10 cs (acc * 10 + digitValue c) := by
  rw [Nat.ofDigitChars_cons, Nat.mul_comm, digitValue]

theorem le_ofDigitChars (cs : List Char) (acc : Nat) : acc ≤ Nat.ofDigitChars 10 cs acc := by
  induction cs generalizing acc with
  | nil => exact Nat.le_refl _
  | cons c cs ih =>
    rw [ofDigitChars_cons]
    exact Nat.le_trans (by omega) (ih _)

theorem leading_of_isDigit {cs : List Char} (h : ∀ c ∈ cs, isDigit c = true) :
    leading cs = Nat.ofDigitChars 10 cs 0 := by
  have htake : (cs ++ []).takeWhile isDigit = cs ++ [] := List.takeWhile_append_of_pos h
  rw [List.append_nil] at htake
  rw [leading, htake]

theorem withoutPlus_of_ne {cs : List Char} (h : ∀ rest, cs ≠ '+' :: rest) :
    withoutPlus cs = cs := by
  unfold withoutPlus
  split
  next rest => exact absurd rfl (h rest)
  next => rfl

/-- The digit with which a number grows too large is met before anything that follows the digits. -/
theorem digits64_eq (cs : List Char) {acc : Nat} (hacc : acc < UInt64.size) :
    digits64 acc cs =
      if UInt64.size ≤ Nat.ofDigitChars 10 (cs.takeWhile isDigit) acc then .error .tooLarge
      else if cs.all isDigit then .ok (Nat.ofDigitChars 10 cs acc)
      else .error .invalidDigit := by
  induction cs generalizing acc with
  | nil => simp [digits64, hacc]
  | cons c cs ih =>
    by_cases hc : isDigit c = true
    · simp only [digits64, hc, if_true, List.takeWhile_cons_of_pos, ofDigitChars_cons,
        List.all_cons, Bool.true_and]
      by_cases hnext : acc * 10 + digitValue c < UInt64.size
      · rw [if_pos hnext, ih hnext]
      · have := le_ofDigitChars (cs.takeWhile isDigit) (acc * 10 + digitValue c)
        rw [if_neg hnext, if_pos (by omega)]
    · simp [digits64, List.takeWhile_cons_of_neg hc, hc, hacc]

theorem read64_eq_digits64 {cs : List Char} (h : withoutPlus cs ≠ []) :
    read64 cs = digits64 0 (withoutPlus cs) := by
  unfold read64
  split
  next => exact absurd rfl h
  next => exact absurd rfl h
  next => rfl
  next => rfl
  next hplus => rw [withoutPlus_of_ne hplus]

theorem eq_of_withoutPlus_eq_nil {cs : List Char} (h : withoutPlus cs = []) :
    cs = [] ∨ cs = ['+'] := by
  unfold withoutPlus at h
  split at h
  next => exact .inr (by rw [h])
  next => exact .inl h

theorem read64_eq (cs : List Char) :
    read64 cs =
      if cs = [] then .error .empty
      else if UInt64.size ≤ leading (withoutPlus cs) then .error .tooLarge
      else if withoutPlus cs ≠ [] ∧ (withoutPlus cs).all isDigit then
        .ok (Nat.ofDigitChars 10 (withoutPlus cs) 0)
      else .error .invalidDigit := by
  by_cases hnil : withoutPlus cs = []
  · have hsmall : ¬ UInt64.size ≤ leading [] := by decide
    rcases eq_of_withoutPlus_eq_nil hnil with rfl | rfl
    · rfl
    · rw [if_neg (List.cons_ne_nil _ _), hnil, if_neg hsmall, if_neg fun h => h.1 rfl]
      rfl
  · have hne : cs ≠ [] := by
      rintro rfl
      exact hnil rfl
    rw [read64_eq_digits64 hnil, digits64_eq _ (by decide), if_neg hne]
    simp only [leading, ne_eq, hnil, not_false_eq_true, true_and]

theorem read64_toDigits (n : Nat) :
    read64 (Nat.toDigits 10 n) = if n < UInt64.size then .ok n else .error .tooLarge := by
  have hdigits : ∀ c ∈ Nat.toDigits 10 n, isDigit c = true := fun _ => isDigit_of_mem_toDigits
  have hplus : withoutPlus (Nat.toDigits 10 n) = Nat.toDigits 10 n := by
    refine withoutPlus_of_ne fun rest h => ?_
    exact absurd (hdigits '+' (h ▸ List.mem_cons_self ..)) (by decide)
  rw [read64_eq, hplus, leading_of_isDigit hdigits,
    Nat.ofDigitChars_toDigits (by decide) (by decide), if_neg Nat.toDigits_ne_nil]
  by_cases h : n < UInt64.size
  · rw [if_neg (Nat.not_le.2 h), if_pos ⟨Nat.toDigits_ne_nil, List.all_eq_true.2 hdigits⟩,
      if_pos h]
  · rw [if_pos (Nat.not_lt.1 h), if_neg h]

end LogConsumer.Decimal
