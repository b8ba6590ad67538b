import LogConsumer.Json.Reader
import LogConsumer.Json.Writer
import Mathlib.Data.Option.Basic

/-! Reading back what was written: every JSON value is read from its own text, with quotes,
backslashes, control characters and numbers of any size in it. Main statement: `read?_write`. -/
namespace LogConsumer.Json

variable {rest : List Char}

/-- Text that may stand after a value: none, or what ends an item or a field. -/
def Delimited (rest : List Char) : Prop :=
  ∀ c ∈ rest.head?, c = ',' ∨ c = ']' ∨ c = '\x7d'

theorem delimited_nil : Delimited [] := by
  rintro _ ⟨⟩

theorem takeDigits_append {digits : List Char} (hne : digits ≠ [])
    (hdigits : ∀ c ∈ digits, Decimal.isDigit c = true) (hrest : Delimited rest) :
    takeDigits (digits ++ rest) = some (digits, rest) := by
  have htake : rest.takeWhile Decimal.isDigit = [] ∧ rest.dropWhile Decimal.isDigit = rest := by
    rcases rest with _ | ⟨c, rest⟩
    · exact ⟨rfl, rfl⟩
    · rcases hrest c rfl with rfl | rfl | rfl <;> exact ⟨rfl, rfl⟩
  unfold takeDigits
  rw [List.takeWhile_append_of_pos hdigits, List.dropWhile_append_of_pos hdigits, htake.1, htake.2,
    List.append_nil]
  split
  next => exact absurd rfl hne
  next => rfl

theorem readWhole_toDigits (n : Nat) (hrest : Delimited rest) :
    readWhole (Nat.toDigits 10 n ++ rest) = some (n, rest) := by
  by_cases hn : n = 0
  · subst hn
    rfl
  · obtain ⟨c, digits, hcons⟩ := List.exists_cons_of_ne_nil (@Nat.toDigits_ne_nil n 10)
    have hc : c ≠ '0' := by
      rintro rfl
      exact hn (Decimal.eq_zero_of_toDigits hcons)
    have htake := takeDigits_append (@Nat.toDigits_ne_nil n 10)
      (fun _ => Decimal.isDigit_of_mem_toDigits) hrest
    rw [hcons, List.cons_append] at htake ⊢
    rw [readWhole]
    · simp only [htake, Option.bind_eq_bind, Option.bind_some]
      rw [← hcons, Nat.ofDigitChars_toDigits (by decide) (by decide)]
      rfl
    · rintro _ ⟨⟩
      exact hc rfl

theorem readFraction_of_delimited (hrest : Delimited rest) :
    readFraction rest = some (false, rest) := by
  rcases rest with _ | ⟨c, rest⟩
  · rfl
  · rcases hrest c rfl with rfl | rfl | rfl <;> rfl

theorem readExponent_of_delimited (hrest : Delimited rest) :
    readExponent rest = some (false, rest) := by
  rcases rest with _ | ⟨c, rest⟩
  · rfl
  · rcases hrest c rfl with rfl | rfl | rfl <;> rfl

def StartsNumber (c : Char) : Prop := Decimal.isDigit c = true ∨ c = '-'

instance : DecidablePred StartsNumber := fun _ => inferInstanceAs (Decidable (_ ∨ _))

theorem StartsNumber.ne {c d : Char} (h : StartsNumber c) (hd : ¬ StartsNumber d) : c ≠ d :=
  fun heq => hd (heq ▸ h)

theorem writeInt_cons (n : Int) : ∃ c digits, writeInt n = c :: digits ∧ StartsNumber c := by
  cases n with
  | ofNat n =>
    obtain ⟨c, digits, hcons⟩ := List.exists_cons_of_ne_nil (@Nat.toDigits_ne_nil n 10)
    exact ⟨c, digits, hcons, .inl (Decimal.isDigit_of_mem_toDigits (hcons ▸ List.mem_cons_self ..))⟩
  | negSucc n => exact ⟨'-', _, rfl, .inr rfl⟩

theorem readNumber_writeInt (n : Int) (hrest : Delimited rest) :
    readNumber (writeInt n ++ rest) = some (.integer n, rest) := by
  have hend := readFraction_of_delimited hrest
  have hend' := readExponent_of_delimited hrest
  cases n with
  | ofNat n =>
    have hwhole := readWhole_toDigits n hrest
    obtain ⟨c, digits, hcons⟩ := List.exists_cons_of_ne_nil (@Nat.toDigits_ne_nil n 10)
    have hc : c ≠ '-' := by
      rintro rfl
      have : Decimal.isDigit '-' = true :=
        Decimal.isDigit_of_mem_toDigits (hcons ▸ List.mem_cons_self ..)
      cases this
    rw [hcons, List.cons_append] at hwhole
    rw [writeInt, hcons, List.cons_append]
    simp [readNumber, hc, hwhole, hend, hend']
  | negSucc n =>
    simp [readNumber, writeInt, readWhole_toDigits (n + 1) hrest, hend, hend', Int.negSucc_eq]

theorem readNumber_fraction (hrest : Delimited rest) :
    readNumber ('-' :: '0' :: rest) = some (.fraction, rest) := by
  simp [readNumber, readWhole, readFraction_of_delimited hrest, readExponent_of_delimited hrest]

/-- How a character is read back: the control characters without a letter by their number. -/
def pieceOf (c : Char) : Piece :=
  if c.toNat < 0x20 ∧ c ∉ ['\x08', '\t', '\n', '\x0c', '\r'] then .unit c.toNat else .char c

theorem unit_hexDigit (n : Nat) (h : n < 0x20) :
    unit '0' '0' (hexDigit (n / 16)) (hexDigit n) = some n := by
  revert n
  decide

theorem readPieces_writeChar (c : Char) (cs : List Char) :
    readPieces (writeChar c ++ cs) =
      (readPieces cs).bind fun a => some (pieceOf c :: a.1, a.2) := by
  unfold writeChar
  split
  iterate 7
    next => rfl
  next h₁ h₂ h₃ h₄ h₅ h₆ h₇ =>
    split
    next hlt =>
      have hpiece : pieceOf c = .unit c.toNat := if_pos ⟨hlt, by simpa using ⟨h₃, h₄, h₅, h₆, h₇⟩⟩
      simp only [List.cons_append, List.nil_append, readPieces, unit_hexDigit _ hlt, hpiece]
      rfl
    next hge =>
      have hpiece : pieceOf c = .char c := if_neg fun h => hge h.1
      rw [List.cons_append, List.nil_append, readPieces, hpiece]
      · have hguard : (0x20 ≤ c.toNat && c != '\\') = true := by
          simpa using ⟨Nat.le_of_not_lt hge, h₂⟩
        rw [hguard]
        rfl
      · exact h₁
      · exact fun _ _ _ _ _ hc _ => h₂ hc
      · exact fun _ _ hc _ => h₂ hc

theorem readPieces_flatMap (cs rest : List Char) :
    readPieces (cs.flatMap writeChar ++ '"' :: rest) = some (cs.map pieceOf, rest) := by
  induction cs with
  | nil => rfl
  | cons c cs ih =>
    rw [List.flatMap_cons, List.append_assoc, readPieces_writeChar, ih]
    rfl

theorem join_unit {n : Nat} (h : n < 0x20) (pieces : List Piece) :
    join (.unit n :: pieces) = (join pieces).map (Char.ofNat n :: ·) := by
  have hhigh : isHighSurrogate n = false := by
    rw [isHighSurrogate, decide_eq_false (by omega), Bool.false_and]
  have hlow : isLowSurrogate n = false := by
    rw [isLowSurrogate, decide_eq_false (by omega), Bool.false_and]
  rcases pieces with _ | ⟨c | m, pieces⟩ <;> simp [join, hhigh, hlow]

theorem join_pieceOf (cs : List Char) : join (cs.map pieceOf) = some cs := by
  induction cs with
  | nil => rfl
  | cons c cs ih =>
    rw [List.map_cons, pieceOf]
    split
    next hc => rw [join_unit hc.1, ih, Option.map_some, Char.ofNat_toNat]
    next => rw [join, ih, Option.map_eq_map, Option.map_some]

theorem readText_writeText (s : Option String) (rest : List Char) :
    readText (writeText s ++ rest) = some (s, rest) := by
  cases s with
  | none => rfl
  | some s =>
    rw [writeText, List.cons_append, List.append_assoc, List.singleton_append, readText,
      readPieces_flatMap]
    simp [join_pieceOf]

theorem writeText_cons (s : Option String) : ∃ cs, writeText s = '"' :: cs := by
  cases s <;> exact ⟨_, rfl⟩

theorem writeValue_cons (j : Json) :
    ∃ c cs, j.writeValue = c :: cs ∧ isSpace c = false ∧ c ≠ ']' := by
  rcases j with _ | b | n | _ | s | items | fields
  · exact ⟨'n', _, rfl, rfl, by decide⟩
  · cases b
    · exact ⟨'f', _, rfl, rfl, by decide⟩
    · exact ⟨'t', _, rfl, rfl, by decide⟩
  · obtain ⟨c, digits, hcons, hc⟩ := writeInt_cons n
    refine ⟨c, digits, hcons, ?_, hc.ne (by decide)⟩
    rw [isSpace, beq_false_of_ne (hc.ne (by decide)), beq_false_of_ne (hc.ne (by decide)),
      beq_false_of_ne (hc.ne (by decide)), beq_false_of_ne (hc.ne (by decide))]
    rfl
  · exact ⟨'-', _, rfl, rfl, by decide⟩
  · obtain ⟨cs, hcs⟩ := writeText_cons s
    exact ⟨'"', cs, hcs, rfl, by decide⟩
  · cases items
    · exact ⟨'[', _, rfl, rfl, by decide⟩
    · exact ⟨'[', _, rfl, rfl, by decide⟩
  · rcases fields with _ | ⟨⟨k, v⟩, fields⟩
    · exact ⟨'\x7b', _, rfl, rfl, by decide⟩
    · exact ⟨'\x7b', _, rfl, rfl, by decide⟩

theorem skipSpace_cons {c : Char} (hc : isSpace c = false) (cs : List Char) :
    skipSpace (c :: cs) = c :: cs :=
  List.dropWhile_cons_of_neg (by simp [hc])

theorem skipSpace_writeValue (j : Json) (rest : List Char) :
    skipSpace (j.writeValue ++ rest) = j.writeValue ++ rest := by
  obtain ⟨c, cs, hcons, hspace, -⟩ := writeValue_cons j
  rw [hcons, List.cons_append, skipSpace_cons hspace]

theorem skipSpace_writeText (s : Option String) (rest : List Char) :
    skipSpace (writeText s ++ rest) = writeText s ++ rest := by
  obtain ⟨cs, hcs⟩ := writeText_cons s
  rw [hcs, List.cons_append, skipSpace_cons rfl]

theorem delimited_writeItems (items : List Json) : Delimited (writeItems items ++ rest) := by
  cases items with
  | nil => rintro c ⟨⟩; exact .inr (.inl rfl)
  | cons => rintro c ⟨⟩; exact .inl rfl

theorem delimited_writeFields (fields : List (Option String × Json)) :
    Delimited (writeFields fields ++ rest) := by
  cases fields with
  | nil => rintro c ⟨⟩; exact .inr (.inr rfl)
  | cons => rintro c ⟨⟩; exact .inl rfl

/-- `j` is read from its own text, in front of whatever may stand after it. -/
def ReadsBack (j : Json) : Prop :=
  ∀ (depth : Nat) (rest : List Char), j.writeValue.length ≤ depth → Delimited rest →
    readValue depth (j.writeValue ++ rest) = some (j, rest)

theorem readItems_of_readsBack {v : Json} {items : List Json} (h : ∀ j ∈ v :: items, j.ReadsBack)
    {depth : Nat} (hdepth : (v.writeValue ++ writeItems items).length ≤ depth) (rest : List Char) :
    readItems depth (v.writeValue ++ (writeItems items ++ rest)) = some (v :: items, rest) := by
  induction items generalizing v depth with
  | nil =>
    rw [writeItems, List.length_append, List.length_singleton] at hdepth
    obtain ⟨depth, rfl⟩ := Nat.exists_eq_add_one_of_ne_zero (by omega : depth ≠ 0)
    have hv : readValue depth (v.writeValue ++ (writeItems [] ++ rest)) =
        some (v, writeItems [] ++ rest) :=
      h v (List.mem_cons_self ..) _ _ (by omega) (delimited_writeItems _)
    rw [readItems, hv]
    rfl
  | cons w items ih =>
    simp only [writeItems, List.length_append, List.length_cons] at hdepth
    obtain ⟨depth, rfl⟩ := Nat.exists_eq_add_one_of_ne_zero (by omega : depth ≠ 0)
    have hv : readValue depth (v.writeValue ++ (writeItems (w :: items) ++ rest)) =
        some (v, writeItems (w :: items) ++ rest) :=
      h v (List.mem_cons_self ..) _ _ (by omega) (delimited_writeItems _)
    have hitems : readItems depth (w.writeValue ++ (writeItems items ++ rest)) =
        some (w :: items, rest) :=
      ih (fun j hj => h j (List.mem_cons_of_mem _ hj)) (by rw [List.length_append]; omega)
    have hcomma : skipSpace (writeItems (w :: items) ++ rest) =
        ',' :: (w.writeValue ++ (writeItems items ++ rest)) := by
      rw [writeItems, List.cons_append, List.append_assoc, skipSpace_cons rfl]
    rw [readItems, hv]
    simp only [Option.bind_eq_bind, Option.bind_some, hcomma, skipSpace_writeValue, hitems,
      Option.pure_def]

theorem readFields_of_readsBack {k : Option String} {v : Json}
    {fields : List (Option String × Json)} (h : ∀ f ∈ (k, v) :: fields, f.2.ReadsBack)
    {depth : Nat}
    (hdepth : (writeText k ++ ':' :: (v.writeValue ++ writeFields fields)).length ≤ depth)
    (rest : List Char) :
    readFields depth (writeText k ++ ':' :: (v.writeValue ++ (writeFields fields ++ rest))) =
      some ((k, v) :: fields, rest) := by
  induction fields generalizing k v depth with
  | nil =>
    simp only [writeFields, List.length_append, List.length_cons] at hdepth
    obtain ⟨depth, rfl⟩ := Nat.exists_eq_add_one_of_ne_zero (by omega : depth ≠ 0)
    have hcolon := skipSpace_cons (c := ':') rfl
    have hv : readValue depth (v.writeValue ++ (writeFields [] ++ rest)) =
        some (v, writeFields [] ++ rest) :=
      h (k, v) (List.mem_cons_self ..) _ _ (by dsimp only; omega) (delimited_writeFields _)
    rw [readFields, readText_writeText]
    simp only [Option.bind_eq_bind, Option.bind_some, hcolon, skipSpace_writeValue, hv]
    rfl
  | cons f fields ih =>
    obtain ⟨k', w⟩ := f
    simp only [writeFields, List.length_append, List.length_cons] at hdepth
    obtain ⟨depth, rfl⟩ := Nat.exists_eq_add_one_of_ne_zero (by omega : depth ≠ 0)
    have hcolon := skipSpace_cons (c := ':') rfl
    have hv : readValue depth (v.writeValue ++ (writeFields ((k', w) :: fields) ++ rest)) =
        some (v, writeFields ((k', w) :: fields) ++ rest) :=
      h (k, v) (List.mem_cons_self ..) _ _ (by dsimp only; omega) (delimited_writeFields _)
    have hfields : readFields depth
        (writeText k' ++ ':' :: (w.writeValue ++ (writeFields fields ++ rest))) =
          some ((k', w) :: fields, rest) :=
      ih (fun f hf => h f (List.mem_cons_of_mem _ hf)) (by simp; omega)
    have hcomma : skipSpace (writeFields ((k', w) :: fields) ++ rest) =
        ',' :: (writeText k' ++ ':' :: (w.writeValue ++ (writeFields fields ++ rest))) := by
      rw [writeFields, List.cons_append, List.append_assoc, List.cons_append, List.append_assoc,
        skipSpace_cons rfl]
    rw [readFields, readText_writeText]
    simp only [Option.bind_eq_bind, Option.bind_some, hcolon, skipSpace_writeValue, hv, hcomma,
      skipSpace_writeText, hfields, Option.pure_def]

theorem readValue_number {c : Char} (hc : StartsNumber c) (depth : Nat) (cs : List Char) :
    readValue (depth + 1) (c :: cs) = readNumber (c :: cs) := by
  rw [readValue]
  all_goals
    rintro _ ⟨⟩
    exact absurd hc (by decide)

/-- The text of a value is not empty, so the bound is not zero. -/
theorem readsBack_of_succ {j : Json} (h : ∀ (depth : Nat) (rest : List Char),
    j.writeValue.length ≤ depth + 1 → Delimited rest →
      readValue (depth + 1) (j.writeValue ++ rest) = some (j, rest)) : j.ReadsBack := by
  intro depth rest hdepth hrest
  obtain ⟨c, cs, hcons, -, -⟩ := writeValue_cons j
  cases depth with
  | zero =>
    rw [hcons] at hdepth
    cases hdepth
  | succ depth => exact h depth rest hdepth hrest

theorem readsBack_integer (n : Int) : (integer n).ReadsBack := by
  refine readsBack_of_succ fun _ _ _ hrest => ?_
  obtain ⟨c, digits, hcons, hc⟩ := writeInt_cons n
  have hnumber := readNumber_writeInt n hrest
  rw [hcons] at hnumber
  rw [writeValue, hcons]
  exact (readValue_number hc _ _).trans hnumber

theorem readsBack_fraction : fraction.ReadsBack :=
  readsBack_of_succ fun _ _ _ hrest => readNumber_fraction hrest

theorem readsBack_string (s : Option String) : (string s).ReadsBack := by
  refine readsBack_of_succ fun _ rest _ _ => ?_
  have htext := readText_writeText s rest
  obtain ⟨cs, hcs⟩ := writeText_cons s
  rw [hcs, List.cons_append] at htext
  rw [writeValue, hcs, List.cons_append, readValue, htext]
  rfl

theorem readsBack_array {items : List Json} (h : ∀ j ∈ items, j.ReadsBack) :
    (array items).ReadsBack := by
  refine readsBack_of_succ fun _ rest hdepth _ => ?_
  rcases items with _ | ⟨v, items⟩
  · rfl
  · rw [writeValue, List.length_cons] at hdepth
    have hitems := readItems_of_readsBack h (Nat.le_of_succ_le_succ hdepth) rest
    have hskip := skipSpace_writeValue v (writeItems items ++ rest)
    obtain ⟨c, cs, hcons, -, hclose⟩ := writeValue_cons v
    rw [hcons, List.cons_append] at hskip hitems
    rw [writeValue, hcons, List.cons_append, List.append_assoc, List.cons_append, readValue, hskip]
    simp [hclose, hitems]

theorem readsBack_object {fields : List (Option String × Json)}
    (h : ∀ f ∈ fields, f.2.ReadsBack) : (object fields).ReadsBack := by
  refine readsBack_of_succ fun _ rest hdepth _ => ?_
  rcases fields with _ | ⟨⟨k, v⟩, fields⟩
  · rfl
  · rw [writeValue, List.length_cons] at hdepth
    have hfields := readFields_of_readsBack h (Nat.le_of_succ_le_succ hdepth) rest
    have hskip := skipSpace_writeText k (':' :: (v.writeValue ++ (writeFields fields ++ rest)))
    obtain ⟨cs, hcs⟩ := writeText_cons k
    rw [hcs, List.cons_append] at hskip hfields
    rw [writeValue, hcs, List.cons_append, List.append_assoc, List.cons_append, List.cons_append,
      List.append_assoc, readValue, hskip]
    simp [hfields]

theorem readsBack : ∀ j : Json, j.ReadsBack
  | .null => readsBack_of_succ fun _ _ _ _ => rfl
  | .bool true => readsBack_of_succ fun _ _ _ _ => rfl
  | .bool false => readsBack_of_succ fun _ _ _ _ => rfl
  | .integer n => readsBack_integer n
  | .fraction => readsBack_fraction
  | .string s => readsBack_string s
  | .array _ => readsBack_array fun j _ => readsBack j
  | .object _ => readsBack_object fun f _ => readsBack f.2
termination_by j => sizeOf j
decreasing_by
  next hj =>
    have := List.sizeOf_lt_of_mem hj
    simp only [array.sizeOf_spec]
    omega
  next hf =>
    have := List.sizeOf_lt_of_mem hf
    obtain ⟨k, v⟩ := f
    simp only [object.sizeOf_spec, Prod.mk.sizeOf_spec] at *
    omega

theorem read?_write (j : Json) : read? j.write = some j := by
  have hread : readValue (j.writeValue.length + 1) (j.writeValue ++ []) = some (j, []) :=
    readsBack j _ _ (Nat.le_succ _) delimited_nil
  have hskip := skipSpace_writeValue j []
  rw [List.append_nil] at hread hskip
  refine Option.bind_eq_some_iff.2 ⟨(j, []), ?_, rfl⟩
  rw [write, String.toList_ofList, hskip]
  exact hread

end LogConsumer.Json
