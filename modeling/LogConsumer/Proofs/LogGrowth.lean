import LogConsumer.Proofs.Frame

/-! Logs only grow. Whatever happens in a world, an entry that a log has stays at its offset. -/
namespace LogConsumer
namespace Cluster

/-- Every log of `c` is the beginning of the same log of `c'`. -/
def Extends (c c' : Cluster) : Prop :=
  ∀ p log, c.log? p = some log → ∃ log', c'.log? p = some log' ∧ log.entries <+: log'.entries

theorem Extends.refl (c : Cluster) : c.Extends c := fun _ log h => ⟨log, h, List.prefix_rfl⟩

theorem Extends.trans {c c' c'' : Cluster} (h : c.Extends c') (h' : c'.Extends c'') :
    c.Extends c'' := by
  intro p log hlog
  obtain ⟨log', hlog', hprefix⟩ := h p log hlog
  obtain ⟨log'', hlog'', hprefix'⟩ := h' p log' hlog'
  exact ⟨log'', hlog'', hprefix.trans hprefix'⟩

theorem Extends.of_log?_eq {c c' : Cluster} (h : ∀ p, c'.log? p = c.log? p) : c.Extends c' :=
  fun p log hlog => ⟨log, (h p).trans hlog, List.prefix_rfl⟩

theorem Extends.of_topics_eq {c c' : Cluster} (h : c'.topics = c.topics) : c.Extends c' :=
  .of_log?_eq fun p => by simp only [log?, h]

theorem Extends.read?_eq_some {c c' : Cluster} (h : c.Extends c') {p : Partition} {offset : Int}
    {r : Record} (hr : c.read? p offset = some r) : c'.read? p offset = some r := by
  cases offset with
  | negSucc n => cases hr
  | ofNat n =>
    simp only [read?, Option.map_eq_some_iff, Option.bind_eq_some_iff] at hr ⊢
    obtain ⟨e, ⟨log, hlog, he⟩, rfl⟩ := hr
    obtain ⟨log', hlog', t, ht⟩ := h p log hlog
    refine ⟨e, ⟨log', hlog', ?_⟩, rfl⟩
    rw [← ht, List.getElem?_append_left (List.getElem?_eq_some_iff.1 he).1, he]

/-- The records are the entries of a log from an offset on, one after the other. -/
def IsRange (c : Cluster) (p : Partition) (start : Int) (records : List Record) : Prop :=
  records.map some = (List.range records.length).map fun i : Nat => c.read? p (start + i)

theorem IsRange.mono {c c' : Cluster} {p : Partition} {start : Int} {records : List Record}
    (h : c.IsRange p start records) (hextends : c.Extends c') : c'.IsRange p start records := by
  refine Eq.trans h (List.map_congr_left fun i hi => ?_)
  have hmem : c.read? p (start + i) ∈ records.map some := by
    rw [h]
    exact List.mem_map_of_mem hi
  obtain ⟨r, -, hr⟩ := List.mem_map.1 hmem
  rw [← hr, hextends.read?_eq_some hr.symm]

/-- Two ranges of a log are one, if the second begins where the first ends. -/
theorem IsRange.append {c : Cluster} {p : Partition} {start : Int} {records records' : List Record}
    (h : c.IsRange p start records) (h' : c.IsRange p (start + records.length) records') :
    c.IsRange p start (records ++ records') := by
  unfold IsRange at *
  rw [List.map_append, List.length_append, List.range_add, List.map_append, h, h',
    List.map_map]
  congr 1
  apply List.map_congr_left
  intro i _
  simp [Int.add_assoc]

theorem modifyLog_eq_ok {c c' : Cluster} {p : Partition} {f : PartitionLog → PartitionLog}
    (h : c.modifyLog p f = .ok c') :
    c'.committed = c.committed ∧
      ∀ q, c'.log? q = if q = p then (c.log? q).map f else c.log? q := by
  obtain ⟨topic, index⟩ := p
  unfold modifyLog at h
  split at h
  next i logs hi hlogs =>
    split at h
    next hlt =>
      cases h
      simp only at hi hlogs
      subst hi
      refine ⟨rfl, ?_⟩
      rintro ⟨topic', index'⟩
      cases index' with
      | negSucc n => simp [log?]
      | ofNat j =>
        by_cases htopic : topic' = topic
        · subst htopic
          simp only [log?, SortedMap.get?_insert_self, hlogs, Option.bind_some,
            List.getElem?_modify, Partition.mk.injEq, true_and, Int.ofNat.injEq]
          by_cases hij : i = j
          · simp [hij]
          · simp [hij, Ne.symm hij]
        · simp [log?, SortedMap.get?_insert_of_ne _ htopic, htopic]
    next => cases h
  next => cases h

theorem extends_modifyLog {c c' : Cluster} {p : Partition} {f : PartitionLog → PartitionLog}
    (h : c.modifyLog p f = .ok c') (hf : ∀ log, log.entries <+: (f log).entries) : c.Extends c' := by
  intro q log hlog
  rw [(modifyLog_eq_ok h).2 q]
  by_cases hq : q = p
  · exact ⟨f log, by simp [hq ▸ hlog, hq], hf log⟩
  · exact ⟨log, by simp [hq, hlog], List.prefix_rfl⟩

theorem extends_createTopic {c c' : Cluster} {name : String} {count : Int}
    (h : c.createTopic name count = .ok c') : c.Extends c' := by
  unfold createTopic at h
  split at h
  · cases h
  split at h
  · cases h
    exact .refl c
  next hnew =>
    cases h
    rintro ⟨topic, index⟩ log hlog
    have hne : topic ≠ name := by
      rintro rfl
      have hnone : c.topics.get? topic = none := by simpa [SortedMap.contains] using hnew
      cases index <;> simp [log?, hnone] at hlog
    refine ⟨log, ?_, List.prefix_rfl⟩
    simpa only [log?, SortedMap.get?_insert_of_ne _ hne] using hlog

theorem extends_append {c c' : Cluster} {p : Partition} {e : LogEntry} {offset : Int}
    (h : c.append p e = .ok (c', offset)) : c.Extends c' := by
  obtain ⟨c₁, hm, h⟩ := Failure.bind_eq_ok_iff.1 h
  cases h
  exact extends_modifyLog hm fun log => List.prefix_append ..

/-- What every append keeps, many of them keep. -/
theorem appendMany_induction {I : Cluster → Prop} {c c' : Cluster} {p : Partition} {count : Nat}
    {last : Int} (h : c.appendMany p count = .ok (c', last)) (hc : I c)
    (happend : ∀ c c' e offset, c.append p e = .ok (c', offset) → I c → I c') : I c' := by
  suffices hgo : ∀ n c last', appendMany.go p n c last' = .ok (c', last) → I c → I c' from
    hgo count c (-1) h hc
  intro n
  induction n with
  | zero =>
    intro c last' h hc
    cases h
    exact hc
  | succ n ih =>
    intro c last' h hc
    obtain ⟨⟨c₁, offset⟩, ha, h⟩ := Failure.bind_eq_ok_iff.1 h
    exact ih c₁ offset h (happend c c₁ _ offset ha hc)

theorem extends_appendMany {c c' : Cluster} {p : Partition} {count : Nat} {last : Int}
    (h : c.appendMany p count = .ok (c', last)) : c.Extends c' :=
  appendMany_induction h (.refl c) fun _ _ _ _ ha hext => hext.trans (extends_append ha)

theorem extends_step {c c' : Cluster} {step : ClusterStep} {value : Value}
    (h : step.run c = .ok (value, c')) : c.Extends c' := by
  cases step with
  | createTopic name count =>
    simp only [ClusterStep.run] at h
    split at h <;> cases h
    exact extends_createTopic ‹_›
  | append p e =>
    simp only [ClusterStep.run] at h
    split at h <;> cases h
    exact extends_append ‹_›
  | appendMany p count =>
    simp only [ClusterStep.run] at h
    split at h <;> cases h
    exact extends_appendMany ‹_›
  | setLeader p leader =>
    simp only [ClusterStep.run] at h
    split at h <;> cases h
    next hset => exact extends_modifyLog hset fun _ => List.prefix_rfl
  | commit group p offset =>
    cases h
    exact .of_topics_eq rfl
  | topicsMatching pattern =>
    simp only [ClusterStep.run] at h
    split at h <;> cases h
    exact .refl c
  | _ =>
    cases h
    exact .refl c

theorem committed_append {c c' : Cluster} {p : Partition} {e : LogEntry} {offset : Int}
    (h : c.append p e = .ok (c', offset)) : c'.committed = c.committed := by
  obtain ⟨c₁, hm, h⟩ := Failure.bind_eq_ok_iff.1 h
  cases h
  exact (modifyLog_eq_ok hm).1

theorem committed_appendMany {c c' : Cluster} {p : Partition} {count : Nat} {last : Int}
    (h : c.appendMany p count = .ok (c', last)) : c'.committed = c.committed :=
  appendMany_induction (I := fun c' => c'.committed = c.committed) h rfl
    fun _ _ _ _ ha hsame => (committed_append ha).trans hsame

theorem committed_step {c c' : Cluster} {step : ClusterStep} {value : Value}
    (h : step.run c = .ok (value, c')) (hstep : ∀ group p offset, step ≠ .commit group p offset) :
    c'.committed = c.committed := by
  cases step with
  | createTopic name count =>
    simp only [ClusterStep.run] at h
    split at h <;> cases h
    next hcreate =>
      unfold createTopic at hcreate
      split at hcreate
      · cases hcreate
      · split at hcreate <;> cases hcreate <;> rfl
  | append p e =>
    simp only [ClusterStep.run] at h
    split at h <;> cases h
    exact committed_append ‹_›
  | appendMany p count =>
    simp only [ClusterStep.run] at h
    split at h <;> cases h
    exact committed_appendMany ‹_›
  | setLeader p leader =>
    simp only [ClusterStep.run] at h
    split at h <;> cases h
    next hset => exact (modifyLog_eq_ok hset).1
  | commit group p offset => exact absurd rfl (hstep group p offset)
  | topicsMatching pattern =>
    simp only [ClusterStep.run] at h
    split at h <;> cases h
    rfl
  | _ =>
    cases h
    rfl

end Cluster

namespace World

variable {ℓ κ : Type}

theorem cluster_startCommit {w : World ℓ κ} {id : ConsumerId} {c : Consumer ℓ κ} {e : Execution κ}
    (hc : w.consumer? id = some c) (hs : c.commits.start? w.cluster = some e) :
    (w.act id .startCommit).2.cluster = e.cluster := by
  simp only [World.act, World.startCommit, hc, hs]

theorem cluster_act_of_not_started {w : World ℓ κ} {id : ConsumerId} {a : Act ℓ κ}
    (h : a = .startCommit → ∀ c, w.consumer? id = some c → c.commits.start? w.cluster = none) :
    (w.act id a).2.cluster = w.cluster := by
  have hturn (f : Consumer ℓ κ → Turn ℓ κ) : (w.takeTurn f id).2.cluster = w.cluster := by
    unfold takeTurn
    split <;> rfl
  cases a with
  | request r => exact hturn _
  | proceed =>
    simp only [World.act]
    split
    · exact hturn _
    · rfl
  | startCommit =>
    simp only [World.act, World.startCommit]
    cases hc : w.consumer? id with
    | none => rfl
    | some c => simp only [h rfl c hc]
  | abandon | drop =>
    simp only [World.act]
    split <;> rfl
  | finishCommit | addFault => rfl

theorem cluster_act_cases (id : ConsumerId) (w : World ℓ κ) (a : Act ℓ κ) :
    (w.act id a).2.cluster = w.cluster ∨
      ∃ c e, w.consumer? id = some c ∧ c.commits.start? w.cluster = some e ∧
        (w.act id a).2.cluster = e.cluster := by
  by_cases hstarted : ∃ c e, a = .startCommit ∧ w.consumer? id = some c ∧
      c.commits.start? w.cluster = some e
  · obtain ⟨c, e, rfl, hc, hs⟩ := hstarted
    exact .inr ⟨c, e, hc, hs, cluster_startCommit hc hs⟩
  · left
    apply cluster_act_of_not_started
    intro ha c hc
    apply Option.eq_none_iff_forall_ne_some.2
    intro e hs
    exact hstarted ⟨c, e, ha, hc, hs⟩

theorem topics_act (id : ConsumerId) (w : World ℓ κ) (a : Act ℓ κ) :
    (w.act id a).2.cluster.topics = w.cluster.topics := by
  rcases cluster_act_cases id w a with h | ⟨c, e, -, hs, h⟩
  · rw [h]
  · rw [h]
    rcases (Commits.start?_eq_some hs).2.2.2 with ⟨_, _, _, he⟩ | ⟨_, _, _, he⟩
    · rw [he]
    · rw [he, Cluster.topics_commitAll]

theorem extends_after (w : World ℓ κ) (m : Move ℓ κ) : w.cluster.Extends (w.after m).cluster := by
  cases m with
  | act id a => exact .of_topics_eq (topics_act id w a)
  | cluster step =>
    simp only [after, World.step, stepCluster]
    split
    next h => exact Cluster.extends_step h
    next => exact .refl _
  | _ => exact .refl _

theorem extends_run (w : World ℓ κ) (ms : List (Move ℓ κ)) : w.cluster.Extends (w.run ms).cluster := by
  induction ms generalizing w with
  | nil => exact .refl _
  | cons m ms ih => exact (w.extends_after m).trans (ih (w.after m))

end World

end LogConsumer
