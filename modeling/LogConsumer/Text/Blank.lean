import LogConsumer.Text.Ranges

/-! The characters with the Unicode property White_Space. -/
namespace LogConsumer.Text

def blankRanges : List (Nat × Nat) :=
  [(0x9, 0xd), (0x20, 0x20), (0x85, 0x85), (0xa0, 0xa0), (0x1680, 0x1680), (0x2000, 0x200a),
    (0x2028, 0x2029), (0x202f, 0x202f), (0x205f, 0x205f), (0x3000, 0x3000)]

def isBlank (c : Char) : Bool := inRanges c.toNat blankRanges

def trim (cs : List Char) : List Char :=
  ((cs.dropWhile isBlank).reverse.dropWhile isBlank).reverse

/-- `rest` is what blanks at both ends of `cs` leave: it neither begins nor ends with one. -/
structure IsTrimmed (cs rest : List Char) : Prop where
  blanks : ∃ front back, cs = front ++ rest ++ back ∧ ∀ c ∈ front ++ back, isBlank c = true
  first : ∀ c, rest.head? = some c → isBlank c = false
  last : ∀ c, rest.getLast? = some c → isBlank c = false

private theorem isBlank_of_head?_dropWhile {cs : List Char} {c : Char}
    (h : (cs.dropWhile isBlank).head? = some c) : isBlank c = false := by
  have hhead := List.head?_dropWhile_not isBlank cs
  rwa [h] at hhead

private theorem dropWhile_eq_self {cs : List Char}
    (h : ∀ c, cs.head? = some c → isBlank c = false) : cs.dropWhile isBlank = cs := by
  cases cs with
  | nil => rfl
  | cons c cs => exact List.dropWhile_cons_of_neg (by simp [h c rfl])

theorem isTrimmed_trim (cs : List Char) : IsTrimmed cs (trim cs) := by
  obtain ⟨rest, hrest⟩ : ∃ rest, rest = cs.dropWhile isBlank := ⟨_, rfl⟩
  have hfront : cs = cs.takeWhile isBlank ++ rest := by
    rw [hrest, List.takeWhile_append_dropWhile]
  have hback : rest = trim cs ++ (rest.reverse.takeWhile isBlank).reverse := by
    rw [trim, ← hrest, ← List.reverse_append, List.takeWhile_append_dropWhile, List.reverse_reverse]
  refine ⟨⟨cs.takeWhile isBlank, (rest.reverse.takeWhile isBlank).reverse, ?_, fun c hc => ?_⟩,
    fun c hc => ?_, fun c hc => ?_⟩
  · rw [List.append_assoc, ← hback, ← hfront]
  · rcases List.mem_append.1 hc with hc | hc
    · exact List.all_eq_true.1 List.all_takeWhile c hc
    · exact List.all_eq_true.1 List.all_takeWhile c (List.mem_reverse.1 hc)
  · have hhead : rest.head? = some c := by rw [hback, List.head?_append, hc, Option.some_or]
    exact isBlank_of_head?_dropWhile (hrest ▸ hhead)
  · rw [trim, List.getLast?_reverse] at hc
    exact isBlank_of_head?_dropWhile hc

theorem IsTrimmed.eq_trim {cs rest : List Char} (h : IsTrimmed cs rest) : rest = trim cs := by
  obtain ⟨⟨front, back, rfl, hblank⟩, hfirst, hlast⟩ := h
  have hfront : ∀ c ∈ front, isBlank c = true := fun c hc => hblank c (List.mem_append_left _ hc)
  have hback : ∀ c ∈ back, isBlank c = true := fun c hc => hblank c (List.mem_append_right _ hc)
  rw [trim, List.append_assoc, List.dropWhile_append_of_pos hfront]
  cases rest with
  | nil =>
    have hnone : (back ++ []).dropWhile isBlank = [] := List.dropWhile_append_of_pos hback
    rw [List.append_nil] at hnone
    rw [List.nil_append, hnone]
    rfl
  | cons c rest =>
    have hkept : (c :: rest ++ back).dropWhile isBlank = c :: rest ++ back :=
      dropWhile_eq_self hfirst
    have hend : ∀ d ∈ back.reverse, isBlank d = true := fun d hd => hback d (List.mem_reverse.1 hd)
    have hstart (d : Char) (hd : (c :: rest).reverse.head? = some d) : isBlank d = false :=
      hlast d (List.head?_reverse ▸ hd)
    rw [hkept, List.reverse_append, List.dropWhile_append_of_pos hend, dropWhile_eq_self hstart,
      List.reverse_reverse]

theorem isTrimmed_iff {cs rest : List Char} : IsTrimmed cs rest ↔ rest = trim cs :=
  ⟨IsTrimmed.eq_trim, fun h => h ▸ isTrimmed_trim cs⟩

theorem trim_eq_self {cs : List Char} (h : ∀ c ∈ cs, isBlank c = false) : trim cs = cs := by
  have htrimmed : IsTrimmed cs cs :=
    ⟨⟨[], [], by simp, by simp⟩, fun c hc => h c (List.mem_of_head? hc),
      fun c hc => h c (List.mem_of_getLast? hc)⟩
  exact htrimmed.eq_trim.symm

end LogConsumer.Text
