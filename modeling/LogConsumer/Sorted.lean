/-! Finite maps and sets kept in strictly increasing key order. Main statements: what a lookup
sees after an insertion or a removal, and that maps with the same lookups are equal. -/
namespace LogConsumer

/-- A finite map as its entries in strictly increasing key order. -/
structure SortedMap (κ ν : Type) [Ord κ] where
  entries : List (κ × ν)
  sorted : entries.Pairwise fun a b => compare a.1 b.1 = .lt
deriving DecidableEq

abbrev SortedSet (κ : Type) [Ord κ] := SortedMap κ Unit

namespace SortedMap

variable {κ ν μ : Type} [Ord κ]

def lookup (k : κ) : List (κ × ν) → Option ν
  | [] => none
  | (k', v) :: rest => if compare k k' = .eq then some v else lookup k rest

def place (k : κ) (v : ν) : List (κ × ν) → List (κ × ν)
  | [] => [(k, v)]
  | (k', v') :: rest =>
    match compare k k' with
    | .lt => (k, v) :: (k', v') :: rest
    | .eq => (k, v) :: rest
    | .gt => (k', v') :: place k v rest

def get? (m : SortedMap κ ν) (k : κ) : Option ν := lookup k m.entries

def contains (m : SortedMap κ ν) (k : κ) : Bool := (m.get? k).isSome

def keys (m : SortedMap κ ν) : List κ := m.entries.map (·.1)

def values (m : SortedMap κ ν) : List ν := m.entries.map (·.2)

def size (m : SortedMap κ ν) : Nat := m.entries.length

def isEmpty (m : SortedMap κ ν) : Bool := m.entries.isEmpty

def empty : SortedMap κ ν := ⟨[], .nil⟩

instance : Inhabited (SortedMap κ ν) := ⟨empty⟩

theorem mem_place {k : κ} {v : ν} {e : κ × ν} {l : List (κ × ν)} (h : e ∈ place k v l) :
    e = (k, v) ∨ e ∈ l := by
  induction l with
  | nil => simpa [place] using h
  | cons a l ih =>
    simp only [place] at h
    split at h <;> simp only [List.mem_cons] at h ⊢ <;> grind

section Lawful
variable [Std.TransOrd κ] [Std.LawfulEqOrd κ]

theorem pairwise_place (k : κ) (v : ν) {l : List (κ × ν)}
    (h : l.Pairwise fun a b => compare a.1 b.1 = .lt) :
    (place k v l).Pairwise fun a b => compare a.1 b.1 = .lt := by
  induction l with
  | nil => simp [place]
  | cons a l ih =>
    obtain ⟨k', v'⟩ := a
    have ⟨hhead, htail⟩ := List.pairwise_cons.1 h
    simp only [place]
    split
    next hlt =>
      refine List.pairwise_cons.2 ⟨fun e he => ?_, h⟩
      rcases List.mem_cons.1 he with rfl | he
      · exact hlt
      · exact Std.TransCmp.lt_trans hlt (hhead e he)
    next heq =>
      cases Std.LawfulEqCmp.eq_of_compare heq
      exact List.pairwise_cons.2 ⟨hhead, htail⟩
    next hgt =>
      refine List.pairwise_cons.2 ⟨fun e he => ?_, ih htail⟩
      rcases mem_place he with rfl | he
      · exact Std.OrientedCmp.lt_of_gt hgt
      · exact hhead e he

def insert (m : SortedMap κ ν) (k : κ) (v : ν) : SortedMap κ ν :=
  ⟨place k v m.entries, pairwise_place k v m.sorted⟩

def ofList (l : List (κ × ν)) : SortedMap κ ν := l.foldl (fun m e => m.insert e.1 e.2) empty

def add (s : SortedSet κ) (k : κ) : SortedSet κ := s.insert k ()

def setOf (l : List κ) : SortedSet κ := l.foldl add empty

end Lawful

def filter (p : κ → ν → Bool) (m : SortedMap κ ν) : SortedMap κ ν :=
  ⟨m.entries.filter fun e => p e.1 e.2, m.sorted.filter _⟩

def erase (m : SortedMap κ ν) (k : κ) : SortedMap κ ν := m.filter fun k' _ => compare k k' != .eq

def mapValues (f : κ → ν → μ) (m : SortedMap κ ν) : SortedMap κ μ :=
  ⟨m.entries.map fun e => (e.1, f e.1 e.2), List.pairwise_map.2 m.sorted⟩

@[simp] theorem get?_empty (k : κ) : (empty : SortedMap κ ν).get? k = none := rfl

@[simp] theorem entries_empty : (empty : SortedMap κ ν).entries = [] := rfl

theorem contains_iff {m : SortedMap κ ν} {k : κ} : m.contains k ↔ ∃ v, m.get? k = some v :=
  Option.isSome_iff_exists

@[simp] theorem contains_empty (k : κ) : (empty : SortedMap κ ν).contains k = false := rfl

@[simp] theorem keys_mapValues (f : κ → ν → μ) (m : SortedMap κ ν) :
    (m.mapValues f).keys = m.keys := by simp [keys, mapValues]

section Lawful
variable [Std.TransOrd κ] [Std.LawfulEqOrd κ]

omit [Std.TransOrd κ] in
theorem lookup_place (k k' : κ) (v : ν) (l : List (κ × ν)) :
    lookup k' (place k v l) = if compare k' k = .eq then some v else lookup k' l := by
  induction l with
  | nil => simp [place, lookup]
  | cons a l ih =>
    simp only [place]
    split
    next => simp [lookup]
    next h =>
      have := Std.LawfulEqCmp.eq_of_compare h
      simp only [lookup]
      split <;> simp_all
    next h =>
      simp only [lookup, ih]
      split <;> split <;> simp_all

theorem get?_insert (m : SortedMap κ ν) (k k' : κ) (v : ν) :
    (m.insert k v).get? k' = if compare k' k = .eq then some v else m.get? k' :=
  lookup_place k k' v m.entries

@[simp] theorem get?_insert_self (m : SortedMap κ ν) (k : κ) (v : ν) :
    (m.insert k v).get? k = some v := by
  simp [get?_insert, Std.ReflCmp.compare_self]

theorem get?_insert_of_ne (m : SortedMap κ ν) {k k' : κ} (h : k' ≠ k) (v : ν) :
    (m.insert k v).get? k' = m.get? k' := by
  rw [get?_insert, if_neg fun e => h (Std.LawfulEqCmp.eq_of_compare e)]

omit [Std.TransOrd κ] in
theorem lookup_eq_some_iff {k : κ} {v : ν} {l : List (κ × ν)}
    (h : l.Pairwise fun a b => compare a.1 b.1 = .lt) : lookup k l = some v ↔ (k, v) ∈ l := by
  induction l with
  | nil => simp [lookup]
  | cons a l ih =>
    obtain ⟨k', v'⟩ := a
    have ⟨hhead, htail⟩ := List.pairwise_cons.1 h
    simp only [lookup, List.mem_cons, Prod.mk.injEq]
    split
    next he =>
      cases Std.LawfulEqCmp.eq_of_compare he
      constructor
      · rintro ⟨⟩; exact .inl ⟨rfl, rfl⟩
      · rintro (⟨-, rfl⟩ | hm)
        · rfl
        · have := hhead _ hm
          simp [Std.ReflCmp.compare_self] at this
    next hne =>
      rw [ih htail]
      constructor
      · exact .inr
      · rintro (⟨rfl, -⟩ | hm)
        · simp [Std.ReflCmp.compare_self] at hne
        · exact hm

omit [Std.TransOrd κ] in
theorem get?_eq_some_iff {m : SortedMap κ ν} {k : κ} {v : ν} :
    m.get? k = some v ↔ (k, v) ∈ m.entries :=
  lookup_eq_some_iff m.sorted

omit [Std.TransOrd κ] in
theorem mem_keys_iff {m : SortedMap κ ν} {k : κ} : k ∈ m.keys ↔ m.contains k := by
  simp only [keys, List.mem_map, contains, Option.isSome_iff_exists, get?_eq_some_iff]
  exact ⟨fun ⟨e, he, hk⟩ => ⟨e.2, hk ▸ he⟩, fun ⟨v, hv⟩ => ⟨(k, v), hv, rfl⟩⟩

private theorem entries_eq_of_mem_iff {l l' : List (κ × ν)}
    (h : l.Pairwise fun a b => compare a.1 b.1 = .lt)
    (h' : l'.Pairwise fun a b => compare a.1 b.1 = .lt) (hm : ∀ e, e ∈ l ↔ e ∈ l') : l = l' := by
  have irrefl : ∀ e : κ × ν, compare e.1 e.1 ≠ .lt := by simp [Std.ReflCmp.compare_self]
  induction l generalizing l' with
  | nil =>
    cases l' with
    | nil => rfl
    | cons b l' => simpa using hm b
  | cons a l ih =>
    cases l' with
    | nil => simpa using hm a
    | cons b l' =>
      have ⟨ha, hl⟩ := List.pairwise_cons.1 h
      have ⟨hb, hl'⟩ := List.pairwise_cons.1 h'
      have hab : a = b := by
        rcases List.mem_cons.1 ((hm a).1 (List.mem_cons_self ..)) with e | hal
        · exact e
        · rcases List.mem_cons.1 ((hm b).2 (List.mem_cons_self ..)) with e | hbl
          · exact e.symm
          · exact absurd (Std.TransCmp.lt_trans (ha b hbl) (hb a hal)) (irrefl a)
      subst hab
      congr 1
      refine ih hl hl' fun e => ?_
      constructor
      · intro he
        rcases List.mem_cons.1 ((hm e).1 (List.mem_cons_of_mem _ he)) with rfl | h2
        · exact absurd (ha _ he) (irrefl _)
        · exact h2
      · intro he
        rcases List.mem_cons.1 ((hm e).2 (List.mem_cons_of_mem _ he)) with rfl | h2
        · exact absurd (hb _ he) (irrefl _)
        · exact h2

theorem ext_get? {m m' : SortedMap κ ν} (h : ∀ k, m.get? k = m'.get? k) : m = m' := by
  obtain ⟨l, hl⟩ := m
  obtain ⟨l', hl'⟩ := m'
  have : l = l' := entries_eq_of_mem_iff hl hl' fun ⟨k, v⟩ => by
    rw [← lookup_eq_some_iff hl, ← lookup_eq_some_iff hl']
    exact ⟨fun e => (h k).symm.trans e, fun e => (h k).trans e⟩
  subst this
  rfl

theorem ext_contains {s s' : SortedSet κ} (h : ∀ k, s.contains k = true ↔ s'.contains k = true) :
    s = s' := by
  refine ext_get? fun k => ?_
  have hk := h k
  simp only [contains] at hk
  cases hs : s.get? k <;> cases hs' : s'.get? k <;> simp_all

omit [Std.TransOrd κ] in
theorem get?_filter (p : κ → ν → Bool) (m : SortedMap κ ν) (k : κ) :
    (m.filter p).get? k = (m.get? k).filter (p k) := by
  ext v
  rw [get?_eq_some_iff, Option.filter_eq_some_iff, get?_eq_some_iff]
  simp [filter]

omit [Std.TransOrd κ] in
@[simp] theorem get?_erase_self (m : SortedMap κ ν) (k : κ) : (m.erase k).get? k = none := by
  simp [erase, get?_filter, Std.ReflCmp.compare_self]

@[simp] theorem contains_insert (m : SortedMap κ ν) (k k' : κ) (v : ν) :
    (m.insert k v).contains k' ↔ k' = k ∨ m.contains k' := by
  by_cases h : k' = k
  · simp [h, contains]
  · simp [h, contains, get?_insert_of_ne m h]

omit [Std.TransOrd κ] in
theorem nodup_keys (m : SortedMap κ ν) : m.keys.Nodup := by
  refine List.pairwise_map.2 (m.sorted.imp fun {a b} hlt heq => ?_)
  rw [heq] at hlt
  simp [Std.ReflCmp.compare_self] at hlt

omit [Std.TransOrd κ] in
theorem get?_mapValues (f : κ → ν → μ) (m : SortedMap κ ν) (k : κ) :
    (m.mapValues f).get? k = (m.get? k).map (f k) := by
  ext u
  rw [get?_eq_some_iff, Option.map_eq_some_iff]
  simp only [mapValues, List.mem_map, Prod.mk.injEq]
  constructor
  · rintro ⟨⟨k', v⟩, hmem, rfl, rfl⟩
    exact ⟨v, get?_eq_some_iff.2 hmem, rfl⟩
  · rintro ⟨v, hv, rfl⟩
    exact ⟨(k, v), get?_eq_some_iff.1 hv, rfl, rfl⟩

theorem keys_eq_of_contains {m : SortedMap κ ν} {m' : SortedMap κ μ}
    (h : ∀ k, m.contains k ↔ m'.contains k) : m.keys = m'.keys := by
  have hunit : m.mapValues (fun _ _ => ()) = m'.mapValues fun _ _ => () := by
    refine ext_get? fun k => ?_
    have hk := h k
    rw [get?_mapValues, get?_mapValues]
    cases hm : m.get? k <;> cases hm' : m'.get? k <;> simp_all [contains]
  rw [← keys_mapValues (fun _ _ => ()) m, hunit, keys_mapValues]

/-- The map of those keys of a list that `g` gives a value. -/
theorem get?_ofList_filterMap [DecidableEq κ] (g : κ → Option ν) (ks : List κ) (k : κ) :
    (ofList (ks.filterMap fun k' => (g k').map (k', ·))).get? k = if k ∈ ks then g k else none := by
  suffices hfold : ∀ m : SortedMap κ ν,
      (List.foldl (fun m e => m.insert e.1 e.2) m
        (ks.filterMap fun k' => (g k').map (k', ·))).get? k =
        if k ∈ ks then (g k).or (m.get? k) else m.get? k by
    simpa [ofList] using hfold empty
  induction ks with
  | nil => simp
  | cons a ks ih =>
    intro m
    cases ha : g a with
    | none =>
      rw [List.filterMap_cons_none (by simp [ha]), ih m]
      by_cases hk : k = a
      · simp [hk, ha]
      · simp [hk]
    | some v =>
      rw [List.filterMap_cons_some (by rw [ha]; rfl), List.foldl_cons, ih]
      by_cases hk : k = a
      · subst hk
        simp [ha]
      · simp [hk, get?_insert_of_ne m hk]

theorem get?_foldl_insert [DecidableEq κ] (f : κ → ν) (ks : List κ) (m : SortedMap κ ν) (k : κ) :
    (ks.foldl (fun m k' => m.insert k' (f k')) m).get? k =
      if k ∈ ks then some (f k) else m.get? k := by
  induction ks generalizing m with
  | nil => simp
  | cons a ks ih =>
    rw [List.foldl_cons, ih]
    by_cases hk : k = a
    · simp [hk]
    · simp [hk, get?_insert_of_ne m hk]

theorem get?_foldl_of_notMem {k : κ} {l : List (κ × ν)} (h : k ∉ l.map (·.1))
    (m : SortedMap κ ν) : (l.foldl (fun m e => m.insert e.1 e.2) m).get? k = m.get? k := by
  induction l generalizing m with
  | nil => rfl
  | cons e l ih =>
    rw [List.map_cons, List.mem_cons, not_or] at h
    rw [List.foldl_cons, ih h.2, get?_insert_of_ne m h.1]

theorem get?_foldl_of_mem {k : κ} {v : ν} {l : List (κ × ν)} (hnodup : (l.map (·.1)).Nodup)
    (h : (k, v) ∈ l) (m : SortedMap κ ν) :
    (l.foldl (fun m e => m.insert e.1 e.2) m).get? k = some v := by
  induction l generalizing m with
  | nil => cases h
  | cons e l ih =>
    rw [List.map_cons, List.nodup_cons] at hnodup
    rcases List.mem_cons.1 h with rfl | h
    · rw [List.foldl_cons, get?_foldl_of_notMem hnodup.1, get?_insert_self]
    · exact ih hnodup.2 h _

theorem ofList_perm {m : SortedMap κ ν} {l : List (κ × ν)} (h : l.Perm m.entries) :
    ofList l = m := by
  have hkeys : (l.map (·.1)).Perm m.keys := h.map _
  refine ext_get? fun k => ?_
  cases hm : m.get? k with
  | some v =>
    have hmem : (k, v) ∈ l := h.mem_iff.2 (get?_eq_some_iff.1 hm)
    exact get?_foldl_of_mem (hkeys.nodup_iff.2 m.nodup_keys) hmem empty
  | none =>
    have hnot : k ∉ l.map (·.1) := by
      rw [hkeys.mem_iff, mem_keys_iff, contains, hm]
      exact Bool.false_ne_true
    exact get?_foldl_of_notMem hnot empty

theorem contains_foldl_add [DecidableEq κ] (l : List κ) (s : SortedSet κ) (k : κ) :
    (l.foldl add s).contains k = true ↔ k ∈ l ∨ s.contains k = true := by
  have hget : (l.foldl add s).get? k = if k ∈ l then some () else s.get? k :=
    get?_foldl_insert (fun _ => ()) l s k
  rw [contains, hget]
  split <;> simp_all [contains]

theorem contains_setOf [DecidableEq κ] (l : List κ) (k : κ) :
    (setOf l).contains k = true ↔ k ∈ l := by
  rw [setOf, contains_foldl_add, contains_empty]
  simp

omit [Std.TransOrd κ] in
theorem contains_erase (m : SortedMap κ ν) (k k' : κ) :
    (m.erase k).contains k' = true ↔ k' ≠ k ∧ m.contains k' = true := by
  by_cases h : k' = k
  · simp [h, contains]
  · have hne : compare k k' ≠ .eq := fun e => h (Std.LawfulEqCmp.eq_of_compare e).symm
    cases hget : m.get? k' <;> simp [h, contains, erase, get?_filter, hget, hne]

omit [Std.TransOrd κ] in
theorem contains_foldl_erase (l : List κ) (m : SortedMap κ ν) (k : κ) :
    (l.foldl erase m).contains k = true ↔ k ∉ l ∧ m.contains k = true := by
  induction l generalizing m with
  | nil => simp
  | cons a l ih =>
    rw [List.foldl_cons, ih, contains_erase, List.mem_cons, not_or]
    exact and_left_comm.trans and_assoc.symm

end Lawful

end SortedMap

end LogConsumer
