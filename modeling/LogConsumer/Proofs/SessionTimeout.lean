import LogConsumer.Options

/-! Which texts are session timeouts, and what is said of the others. Blanks around the text are left
out, then one plus sign; what remains must be digits that name a number below `2 ^ 64`. Main
statement: `sessionTimeout_reads_counts`. -/
namespace LogConsumer

namespace Decimal

variable {cs : List Char} {n : Nat} {fault : Fault}

/-- `cs` consists of digits, one at least, and they name `n`. -/
structure IsCount (cs : List Char) (n : Nat) : Prop where
  nonempty : cs ≠ []
  digits : ∀ c ∈ cs, isDigit c = true
  value : Nat.ofDigitChars 10 cs 0 = n

def faultOf (cs : List Char) : Fault :=
  if cs = [] then .empty
  else if UInt64.size ≤ leading (withoutPlus cs) then .tooLarge
  else .invalidDigit

theorem message_faultOf (cs : List Char) :
    (faultOf cs).message =
      if cs = [] then "cannot parse integer from empty string"
      else if UInt64.size ≤ leading (withoutPlus cs) then "number too large to fit in target type"
      else "invalid digit found in string" := by
  unfold faultOf
  split
  · rfl
  · split <;> rfl

theorem read64_of_isCount (h : IsCount (withoutPlus cs) n) (hn : n < UInt64.size) :
    read64 cs = .ok n := by
  have hne : cs ≠ [] := by
    rintro rfl
    exact h.nonempty rfl
  have hleading : leading (withoutPlus cs) = n := (leading_of_isDigit h.digits).trans h.value
  rw [read64_eq, if_neg hne, hleading, if_neg (Nat.not_le.2 hn),
    if_pos ⟨h.nonempty, List.all_eq_true.2 h.digits⟩, h.value]

theorem read64_of_not_isCount (h : ∀ n < UInt64.size, ¬ IsCount (withoutPlus cs) n) :
    read64 cs = .error (faultOf cs) := by
  rw [read64_eq, faultOf]
  split
  · rfl
  split
  · rfl
  next hlt =>
    rw [if_neg]
    rintro ⟨hne, hall⟩
    have hdigits := List.all_eq_true.1 hall
    exact h _ (Nat.not_le.1 hlt) ⟨hne, hdigits, (leading_of_isDigit hdigits).symm⟩

theorem read64_eq_ok_iff : read64 cs = .ok n ↔ n < UInt64.size ∧ IsCount (withoutPlus cs) n := by
  refine ⟨fun h => ?_, fun ⟨hn, hcount⟩ => read64_of_isCount hcount hn⟩
  by_cases hcount : ∃ m < UInt64.size, IsCount (withoutPlus cs) m
  · obtain ⟨m, hm, hcount⟩ := hcount
    cases (read64_of_isCount hcount hm).symm.trans h
    exact ⟨hm, hcount⟩
  · have hnone : ∀ m < UInt64.size, ¬ IsCount (withoutPlus cs) m :=
      fun m hm hm' => hcount ⟨m, hm, hm'⟩
    cases (read64_of_not_isCount hnone).symm.trans h

theorem read64_eq_error_iff :
    read64 cs = .error fault ↔
      (∀ n < UInt64.size, ¬ IsCount (withoutPlus cs) n) ∧ fault = faultOf cs := by
  refine ⟨fun h => ?_, fun ⟨hnone, hfault⟩ => hfault ▸ read64_of_not_isCount hnone⟩
  have hnone : ∀ n < UInt64.size, ¬ IsCount (withoutPlus cs) n := by
    intro n hn hcount
    cases (read64_of_isCount hcount hn).symm.trans h
  cases (read64_of_not_isCount hnone).symm.trans h
  exact ⟨hnone, rfl⟩

end Decimal

namespace Options

variable {o : Options} {s : String} {d : Duration}

theorem sessionTimeout_eq_ok_iff (hs : o.properties.get? sessionSetting = some s) :
    o.sessionTimeout = .ok d ↔
      ∃ n, Decimal.read64 (Text.trim s.toList) = .ok n ∧ d = .ofMillis (.ofNat n) := by
  rw [sessionTimeout, hs]
  cases hread : Decimal.read64 (Text.trim s.toList) <;> simp [hread, eq_comm]

/-- A session timeout is a number below `2 ^ 64`, written in digits after at most one plus sign and
between blanks. Any other text fails in the way in which it is no such number. -/
theorem sessionTimeout_reads_counts (hs : o.properties.get? "session.timeout.ms" = some s) :
    ∃ w, (∀ w', Text.IsTrimmed s.toList w' ↔ w' = w) ∧
      (∀ d, o.sessionTimeout = .ok d ↔ ∃ n < UInt64.size,
        Decimal.IsCount (Decimal.withoutPlus w) n ∧ d = .ofMillis (.ofNat n)) ∧
      ∀ e, o.sessionTimeout = .error e ↔
        (∀ n < UInt64.size, ¬ Decimal.IsCount (Decimal.withoutPlus w) n) ∧
          e = .configuration "session.timeout.ms"
            (if w = [] then "cannot parse integer from empty string"
            else if UInt64.size ≤ Decimal.leading (Decimal.withoutPlus w) then
              "number too large to fit in target type"
            else "invalid digit found in string") := by
  refine ⟨Text.trim s.toList, fun w' => Text.isTrimmed_iff, fun d => ?_, fun e => ?_⟩
  · rw [sessionTimeout_eq_ok_iff hs]
    constructor
    · rintro ⟨n, hread, rfl⟩
      obtain ⟨hn, hcount⟩ := Decimal.read64_eq_ok_iff.1 hread
      exact ⟨n, hn, hcount, rfl⟩
    · rintro ⟨n, hn, hcount, rfl⟩
      exact ⟨n, Decimal.read64_eq_ok_iff.2 ⟨hn, hcount⟩, rfl⟩
  · rw [sessionTimeout_eq_error_iff]
    constructor
    · rintro ⟨s', fault, hs', hread, rfl⟩
      cases hs.symm.trans hs'
      obtain ⟨hnone, rfl⟩ := Decimal.read64_eq_error_iff.1 hread
      exact ⟨hnone, congrArg _ (Decimal.message_faultOf _)⟩
    · rintro ⟨hnone, rfl⟩
      exact ⟨s, _, hs, Decimal.read64_eq_error_iff.2 ⟨hnone, rfl⟩,
        congrArg _ (Decimal.message_faultOf _).symm⟩

/-- Blanks, a plus sign and zeros may stand before a count. -/
theorem sessionTimeout_reads_counts_sample :
    (standard.withProperty sessionSetting "\u3000+007 ").sessionTimeout = .ok (.ofMillis 7) ∧
      (standard.withProperty sessionSetting "\t18446744073709551616x").sessionTimeout =
        .error (.configuration "session.timeout.ms" "number too large to fit in target type") := by
  have hget (s : String) :
      (standard.withProperty sessionSetting s).properties.get? "session.timeout.ms" = some s :=
    SortedMap.get?_insert_self _ _ _
  constructor
  · obtain ⟨w, hw, hok, -⟩ := sessionTimeout_reads_counts (hget "\u3000+007 ")
    have htrimmed : ['+', '0', '0', '7'] = w := (hw _).1 (Text.isTrimmed_iff.2 rfl)
    subst htrimmed
    have hcount : Decimal.IsCount ['0', '0', '7'] 7 :=
      ⟨by decide, List.all_eq_true.1 (by decide), by decide⟩
    exact (hok _).2 ⟨7, by decide, hcount, rfl⟩
  · obtain ⟨w, hw, -, herror⟩ := sessionTimeout_reads_counts (hget "\t18446744073709551616x")
    have htrimmed : "18446744073709551616x".toList = w := (hw _).1 (Text.isTrimmed_iff.2 rfl)
    subst htrimmed
    refine (herror _).2 ⟨fun n _ hcount => ?_, by decide⟩
    exact absurd (hcount.digits 'x' (by decide)) (by decide)

end Options

end LogConsumer
