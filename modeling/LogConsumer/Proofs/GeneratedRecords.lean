import LogConsumer.Proofs.OffsetRange
import LogConsumer.Proofs.Topology
import Mathlib.Data.List.Nodup

/-! Generated records. Many of them are added at once, each with a value that names its partition and
its offset. No two of a run have the same value, though the names of topics may have hyphens and
digits: a value is read from its end. Main statement: `generated_values_distinct`. -/
namespace LogConsumer

/-- What stands before the last hyphen and what stands after it are determined by the whole. -/
theorem Text.append_hyphen_inj {cs ds cs' ds' : List Char} (hds : '-' ∉ ds) (hds' : '-' ∉ ds')
    (h : cs ++ '-' :: ds = cs' ++ '-' :: ds') : cs = cs' ∧ ds = ds' := by
  -- If one hyphen stood before the other, the other would be among what follows.
  rcases List.append_eq_append_iff.1 h with ⟨between, rfl, hsplit⟩ | ⟨between, rfl, hsplit⟩
  all_goals
    cases between with
    | nil =>
      cases hsplit
      exact ⟨by simp, rfl⟩
    | cons c between =>
      cases hsplit
      simp at hds hds'

theorem Decimal.append_ofNat_inj {s t : String} {m n : Nat}
    (h : s ++ "-" ++ ofNat m = t ++ "-" ++ ofNat n) : s = t ∧ m = n := by
  have hchars := congrArg String.toList h
  simp only [String.toList_append, List.append_assoc] at hchars
  obtain ⟨hst, hmn⟩ :=
    Text.append_hyphen_inj (hyphen_notMem_ofNat m) (hyphen_notMem_ofNat n) hchars
  exact ⟨String.toList_inj.1 hst, ofNat_inj (String.toList_inj.1 hmn)⟩

/-- The index of a partition that exists is not negative, so it has no hyphen of its own. -/
theorem Partition.name_inj {p q : Partition} (hp : 0 ≤ p.index) (hq : 0 ≤ q.index)
    (h : p.name = q.name) : p = q := by
  obtain ⟨topic, index⟩ := p
  obtain ⟨topic', index'⟩ := q
  obtain ⟨i, rfl⟩ := Int.eq_ofNat_of_zero_le hp
  obtain ⟨j, rfl⟩ := Int.eq_ofNat_of_zero_le hq
  obtain ⟨rfl, rfl⟩ := Decimal.append_ofNat_inj (h : topic ++ "-" ++ Decimal.ofNat i = _)
  rfl

namespace Cluster

variable {c c' : Cluster} {p q : Partition} {count i j : Nat} {last : Int}

theorem generated_value_inj (hp : 0 ≤ p.index) (hq : 0 ≤ q.index)
    (h : (generated p i).value = (generated q j).value) : p = q ∧ i = j := by
  have htext : p.name ++ "-" ++ Decimal.ofNat i = q.name ++ "-" ++ Decimal.ofNat j :=
    String.toByteArray_inj.1 h
  obtain ⟨hname, rfl⟩ := Decimal.append_ofNat_inj htext
  exact ⟨Partition.name_inj hp hq hname, rfl⟩

theorem has_of_appendMany (h : c.appendMany p count = .ok (c', last)) (hcount : count ≠ 0) :
    c.Has p := by
  by_contra hnot
  cases h.symm.trans (appendMany_eq_error_iff.2 ⟨hcount, hnot, rfl⟩)

theorem last_of_appendMany (h : c.appendMany p count = .ok (c', last)) :
    last = if count = 0 then -1 else (c.logLength p : Int) + count - 1 := by
  have hgo (n : Nat) (c : Cluster) (last' : Int) (h : appendMany.go p n c last' = .ok (c', last)) :
      last = if n = 0 then last' else (c.logLength p : Int) + n - 1 := by
    induction n generalizing c last' with
    | zero =>
      cases h
      rfl
    | succ n ih =>
      obtain ⟨⟨c₁, offset⟩, happend, h⟩ := Failure.bind_eq_ok_iff.1 h
      have hlast := ih c₁ offset h
      rw [logLength_append happend, (append_eq_ok happend).1] at hlast
      rw [hlast]
      split <;> omega
  exact hgo count c (-1) h

theorem records_appendMany (h : c.appendMany p count = .ok (c', last)) :
    c'.records p = c.records p ++ (List.range count).map fun i =>
      recordAt p (c.logLength p + i) (generated p (c.logLength p + i)) := by
  rw [records_eq, records_eq, (appendMany_eq_ok h).2, List.mapIdx_append, ← logLength_eq]
  refine congrArg _ (List.ext_getElem (by simp [ClusterStep.added]) fun i hi hi' => ?_)
  simp [ClusterStep.added, Nat.add_comm]

theorem records_appendMany_of_ne (h : c.appendMany p count = .ok (c', last)) (hq : q ≠ p) :
    c'.records q = c.records q := by
  rw [records_eq, records_eq, (appendMany_eq_ok h).2]
  simp [ClusterStep.added, Ne.symm hq]

theorem read?_appendMany (h : c.appendMany p count = .ok (c', last)) (hi : i < count) :
    c'.read? p (c.logLength p + i : Nat) =
      some (recordAt p (c.logLength p + i) (generated p (c.logLength p + i))) := by
  refine read?_eq_some_iff.2 ⟨Int.natCast_nonneg _, ?_⟩
  rw [Int.toNat_natCast, records_appendMany h, List.getElem?_append_right (by simp [length_records]),
    length_records]
  simp [hi]

theorem partitions?_appendMany (h : c.appendMany p count = .ok (c', last)) (topic : String) :
    c'.partitions? topic = c.partitions? topic := by
  obtain ⟨hcount, hlog⟩ := appendMany_eq_ok h
  simp only [partitions?_eq, hcount, hlog]

theorem appendMany_go_add (a b : Nat) (c : Cluster) (last : Int) :
    appendMany.go p (a + b) c last =
      (appendMany.go p a c last).bind fun s => appendMany.go p b s.1 s.2 := by
  induction a generalizing c last with
  | zero =>
    rw [Nat.zero_add]
    rfl
  | succ a ih =>
    rw [Nat.succ_add]
    simp only [appendMany.go]
    cases happend : c.append p (generated p (c.logLength p)) with
    | error e => rfl
    | ok appended => exact ih appended.1 appended.2

/-- To add some entries and then others makes the cluster that adding them all at once makes, or
fails as that does. -/
theorem appendMany_add (c : Cluster) (p : Partition) (a b : Nat) :
    ((c.appendMany p a).bind fun s => s.1.appendMany p b).map (·.1) =
      (c.appendMany p (a + b)).map (·.1) := by
  -- The offset that was told last is told again only if no entry follows.
  have hlast (c : Cluster) (last last' : Int) :
      (appendMany.go p b c last).map (·.1) = (appendMany.go p b c last').map (·.1) := by
    cases b <;> rfl
  unfold appendMany
  rw [appendMany_go_add]
  cases appendMany.go p a c (-1) with
  | error e => rfl
  | ok s => exact hlast s.1 (-1) s.2

end Cluster

structure Record.IsNamed (r : Record) : Prop where
  index_nonneg : 0 ≤ r.partition.index
  named : r = Cluster.recordAt r.partition r.offset (Cluster.generated r.partition r.offset)

theorem Record.IsNamed.eq_of_value {r r' : Record} (h : r.IsNamed) (h' : r'.IsNamed)
    (hvalue : r.value = r'.value) : r = r' := by
  rw [h.named, h'.named] at hvalue
  obtain ⟨hpartition, hoffset⟩ :=
    Cluster.generated_value_inj h.index_nonneg h'.index_nonneg hvalue
  rw [h.named, h'.named, hpartition, hoffset]

namespace World

variable {ℓ κ : Type} {w : World ℓ κ} {m : Move ℓ κ} {p : Partition} {count : Nat} {r : Record}

/-- The records that a move generates: what it adds to the log that it names. -/
def generated (w : World ℓ κ) : Move ℓ κ → List Record
  | m@(.cluster (.appendMany p _)) =>
    ((w.after m).cluster.records p).drop (w.cluster.logLength p)
  | _ => []

theorem cluster_after_appendMany {c' : Cluster} {last : Int}
    (h : w.cluster.appendMany p count = .ok (c', last)) :
    (w.after (.cluster (.appendMany p count))).cluster = c' := by
  simp only [after, World.step, stepCluster, ClusterStep.run, h]

theorem generated_of_ok {c' : Cluster} {last : Int}
    (h : w.cluster.appendMany p count = .ok (c', last)) :
    w.generated (.cluster (.appendMany p count)) = (List.range count).map fun i =>
      Cluster.recordAt p (w.cluster.logLength p + i)
        (Cluster.generated p (w.cluster.logLength p + i)) := by
  rw [generated, cluster_after_appendMany h, Cluster.records_appendMany h,
    ← Cluster.length_records, List.drop_left]

theorem generated_of_error {e : Failure} (h : w.cluster.appendMany p count = .error e) :
    w.generated (.cluster (.appendMany p count)) = [] := by
  have hrun : (ClusterStep.appendMany p count).run w.cluster = .error (.failure e) := by
    simp only [ClusterStep.run, h]
  rw [generated, after_of_error hrun, ← Cluster.length_records, List.drop_length]

theorem generated_cases (w : World ℓ κ) (m : Move ℓ κ) :
    w.generated m = [] ∨ ∃ p count c' last, m = .cluster (.appendMany p count) ∧
      w.cluster.appendMany p count = .ok (c', last) := by
  cases m with
  | cluster step =>
    cases step with
    | appendMany p count =>
      cases happend : w.cluster.appendMany p count with
      | error e => exact .inl (generated_of_error happend)
      | ok s => exact .inr ⟨p, count, s.1, s.2, rfl, happend⟩
    | _ => exact .inl rfl
  | _ => exact .inl rfl

/-- A record that is generated is named after the place where it is from then on, beyond the end of
its log as it was. -/
theorem of_mem_generated (h : r ∈ w.generated m) :
    r.IsNamed ∧ w.cluster.logLength r.partition ≤ r.offset ∧
      (w.after m).cluster.read? r.partition r.offset = some r := by
  rcases w.generated_cases m with hnone | ⟨p, count, c', last, rfl, happend⟩
  · rw [hnone] at h
    cases h
  · rw [generated_of_ok happend] at h
    obtain ⟨i, hi, rfl⟩ := List.mem_map.1 h
    have hlt : i < count := List.mem_range.1 hi
    obtain ⟨_, -, hindex, -⟩ := Cluster.has_of_appendMany happend (by omega)
    refine ⟨⟨hindex, rfl⟩, Nat.le_add_right .., ?_⟩
    rw [cluster_after_appendMany happend]
    exact Cluster.read?_appendMany happend hlt

theorem nodup_generated (w : World ℓ κ) (m : Move ℓ κ) : (w.generated m).Nodup := by
  rcases w.generated_cases m with hnone | ⟨p, count, c', last, rfl, happend⟩
  · rw [hnone]
    exact .nil
  · rw [generated_of_ok happend]
    refine List.Nodup.map (fun i j hij => ?_) List.nodup_range
    exact Nat.add_left_cancel (congrArg Record.offset hij)

theorem of_mem_collect_generated {ms : List (Move ℓ κ)} (h : r ∈ collect generated w ms) :
    r.IsNamed ∧ w.cluster.logLength r.partition ≤ r.offset ∧
      (w.run ms).cluster.read? r.partition r.offset = some r := by
  obtain ⟨before, m, rest, rfl, hr⟩ := mem_collect_iff.1 h
  obtain ⟨hnamed, hle, hread⟩ := of_mem_generated hr
  refine ⟨hnamed, Nat.le_trans ((w.extends_run before).logLength_le _) hle, ?_⟩
  rw [run_append, run_cons]
  exact (extends_run _ rest).read?_eq_some hread

theorem nodup_collect_generated (w : World ℓ κ) (ms : List (Move ℓ κ)) :
    (collect generated w ms).Nodup := by
  induction ms generalizing w with
  | nil => exact .nil
  | cons m ms ih =>
    rw [collect_cons, List.nodup_append]
    refine ⟨nodup_generated w m, ih (w.after m), ?_⟩
    rintro r hr _ hr' rfl
    -- What comes later lies beyond the end of the log that has this record already.
    obtain ⟨-, -, hread⟩ := of_mem_generated hr
    obtain ⟨-, hle, -⟩ := of_mem_collect_generated hr'
    have hlt := (Cluster.read?_isSome_iff.1 (Option.isSome_iff_exists.2 ⟨r, hread⟩)).2
    omega

/-- Generated records are named after the places where they are, so all that a run generates have
different values. -/
theorem generated_values_distinct (w : World ℓ κ) (ms : List (Move ℓ κ)) :
    (∀ (c : Cluster) (p : Partition) (count : Nat), c.Has p →
      ∃ c', c.appendMany p count =
          .ok (c', if count = 0 then -1 else (c.logLength p : Int) + count - 1) ∧
        c'.records p = c.records p ++ (List.range count).map (fun i =>
          { partition := p
            offset := c.logLength p + i
            key := some (Decimal.ofNat (c.logLength p + i)).toUTF8
            value := (p.topic ++ "-" ++ Decimal.ofInt p.index ++ "-" ++
              Decimal.ofNat (c.logLength p + i)).toUTF8 }) ∧
        (∀ q, q ≠ p → c'.records q = c.records q) ∧
        (∀ topic, c'.partitions? topic = c.partitions? topic) ∧
        c'.topicNames = c.topicNames ∧ c'.committed = c.committed) ∧
      (∀ (c : Cluster) (p : Partition) (a b : Nat),
        ((c.appendMany p a).bind fun s => s.1.appendMany p b).map (·.1) =
          (c.appendMany p (a + b)).map (·.1)) ∧
      ((collect generated w ms).map (·.value)).Nodup ∧
      ∀ r ∈ collect generated w ms, (w.run ms).cluster.read? r.partition r.offset = some r := by
  refine ⟨fun c p count hp => ?_, Cluster.appendMany_add, ?_, fun r hr => ?_⟩
  · cases happend : c.appendMany p count with
    | error e => exact absurd hp (Cluster.appendMany_eq_error_iff.1 happend).2.1
    | ok s =>
      obtain ⟨c', last⟩ := s
      have hlast := Cluster.last_of_appendMany happend
      subst hlast
      exact ⟨c', rfl, Cluster.records_appendMany happend,
        fun q hq => Cluster.records_appendMany_of_ne happend hq,
        Cluster.partitions?_appendMany happend,
        Cluster.topicNames_congr (Cluster.appendMany_eq_ok happend).1,
        Cluster.committed_appendMany happend⟩
  · refine List.Nodup.map_on (fun r hr r' hr' hvalue => ?_) (nodup_collect_generated w ms)
    exact (of_mem_collect_generated hr).1.eq_of_value (of_mem_collect_generated hr').1 hvalue
  · exact (of_mem_collect_generated hr).2.2

/-- One topic is named as if it were a partition of the other, and a partition is not there. -/
def sampleGenerated : List (Move Unit Unit) :=
  [.cluster (.createTopic "a" 1), .cluster (.createTopic "a-0" 1),
    .cluster (.appendMany ⟨"a-0", 0⟩ 2), .cluster (.append ⟨"a", 0⟩ ⟨none, .empty⟩),
    .cluster (.appendMany ⟨"a", 1⟩ 3), .cluster (.appendMany ⟨"a", 0⟩ 2), .advance 5]

theorem generated_values_distinct_sample :
    (initial.run sampleGenerated).cluster.Has ⟨"a-0", 0⟩ ∧
      (∃ c', (initial.run sampleGenerated).cluster.appendMany ⟨"a-0", 0⟩ 3 = .ok (c', 4)) ∧
      (collect generated initial sampleGenerated).map (·.value) =
        ["a-0-0-0".toUTF8, "a-0-0-1".toUTF8, "a-0-1".toUTF8, "a-0-2".toUTF8] ∧
      ((collect generated initial sampleGenerated).map (·.value)).Nodup ∧
      (initial.run sampleGenerated).cluster.read? ⟨"a", 0⟩ 2 =
        some ⟨⟨"a", 0⟩, 2, some "2".toUTF8, "a-0-2".toUTF8⟩ := by
  have hhas : (initial.run sampleGenerated).cluster.Has ⟨"a-0", 0⟩ := ⟨_, rfl, by decide, by decide⟩
  obtain ⟨happend, -, hnodup, hread⟩ := generated_values_distinct initial sampleGenerated
  obtain ⟨c', hc', -⟩ := happend _ _ 3 hhas
  exact ⟨hhas, ⟨c', hc'⟩, by decide, hnodup,
    hread ⟨⟨"a", 0⟩, 2, some "2".toUTF8, "a-0-2".toUTF8⟩ (by decide)⟩

end World

end LogConsumer
