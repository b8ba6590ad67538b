import LogConsumer.Proofs.LogGrowth

/-! The cluster as a store. Its topics, leaders and logs are what the steps of the cluster that have
succeeded have made them; nothing else counts, whatever consumers do. Main statement:
`cluster_from_history`. -/
namespace LogConsumer

namespace ClusterStep

/-- The number of partitions with which the step makes a topic, if there is none of that name yet. -/
def created (topic : String) : ClusterStep → List Nat
  | .createTopic name count => if name = topic then [count.toNat] else []
  | _ => []

def led (p : Partition) : ClusterStep → List (Option Int)
  | .setLeader q leader => if q = p then [leader] else []
  | _ => []

def added (p : Partition) (c : Cluster) : ClusterStep → List LogEntry
  | .append q e => if q = p then [e] else []
  | .appendMany q count =>
    if q = p then (List.range count).map fun i => Cluster.generated p (c.logLength p + i) else []
  | _ => []

end ClusterStep

namespace Cluster

def count? (c : Cluster) (topic : String) : Option Nat := (c.topics.get? topic).map List.length

/-- The log of a partition; one that is not known yet will begin with this. -/
def logOf (c : Cluster) (p : Partition) : PartitionLog := (c.log? p).getD ⟨some 0, []⟩

def Has (c : Cluster) (p : Partition) : Prop :=
  ∃ infos, c.partitions? p.topic = some infos ∧ 0 ≤ p.index ∧ p.index < infos.length

variable {c c' : Cluster} {p : Partition} {topic : String}

theorem logOf_empty (p : Partition) : empty.logOf p = ⟨some 0, []⟩ := by
  obtain ⟨topic, index⟩ := p
  cases index <;> rfl

theorem has_iff : c.Has p ↔ (c.log? p).isSome = true := by
  obtain ⟨topic, index⟩ := p
  cases index with
  | negSucc n => simp [Has, log?]
  | ofNat n => cases hlogs : c.topics.get? topic <;> simp [Has, log?, partitions?, hlogs]

theorem logLength_eq (c : Cluster) (p : Partition) : c.logLength p = (c.logOf p).entries.length := by
  unfold logLength logOf
  cases c.log? p <;> rfl

theorem records_eq (c : Cluster) (p : Partition) :
    c.records p = (c.logOf p).entries.mapIdx (recordAt p) := by
  unfold records logOf
  cases c.log? p <;> rfl

theorem length_records (c : Cluster) (p : Partition) : (c.records p).length = c.logLength p := by
  rw [records_eq, List.length_mapIdx, logLength_eq]

theorem read?_eq_some_iff {offset : Int} {r : Record} :
    c.read? p offset = some r ↔ 0 ≤ offset ∧ (c.records p)[offset.toNat]? = some r := by
  cases offset with
  | negSucc n => simp [read?]
  | ofNat n => cases h : c.log? p <;> simp [read?, records, h]

theorem record_of_records {i : Nat} {r : Record} (h : (c.records p)[i]? = some r) :
    r.partition = p ∧ r.offset = i := by
  rw [records_eq, List.getElem?_mapIdx] at h
  obtain ⟨e, -, rfl⟩ := Option.map_eq_some_iff.1 h
  exact ⟨rfl, rfl⟩

theorem partitions?_eq (c : Cluster) (topic : String) :
    c.partitions? topic = (c.count? topic).map fun n =>
      (List.range n).map fun i => ⟨⟨topic, i⟩, (c.logOf ⟨topic, i⟩).leader⟩ := by
  unfold partitions? count?
  cases hlogs : c.topics.get? topic with
  | none => rfl
  | some logs =>
    refine congrArg some (List.ext_getElem (by simp) fun i hi hi' => ?_)
    have hlt : i < logs.length := by simpa using hi
    simp [logOf, log?, hlogs, hlt]

theorem has_iff_count? : c.Has p ↔ ∃ n, c.count? p.topic = some n ∧ 0 ≤ p.index ∧ p.index < n := by
  unfold Has
  rw [partitions?_eq]
  cases c.count? p.topic <;> simp

theorem has_congr (h : ∀ topic, c'.count? topic = c.count? topic) : c'.Has p ↔ c.Has p := by
  simp only [has_iff_count?, h]

theorem topicNames_congr (h : ∀ topic, c'.count? topic = c.count? topic) :
    c'.topicNames = c.topicNames := by
  refine SortedMap.keys_eq_of_contains fun topic => ?_
  have hcount := congrArg Option.isSome (h topic)
  simp only [count?, Option.isSome_map] at hcount
  simp only [SortedMap.contains, hcount]

theorem logOf_congr (h : c'.topics = c.topics) (p : Partition) : c'.logOf p = c.logOf p := by
  simp only [logOf, log?, h]

theorem count?_congr (h : c'.topics = c.topics) (topic : String) : c'.count? topic = c.count? topic := by
  simp only [count?, h]

theorem modifyLog_eq_error_iff {f : PartitionLog → PartitionLog} {e : Failure} :
    c.modifyLog p f = .error e ↔ ¬ c.Has p ∧ e = .unknownPartition p := by
  obtain ⟨topic, index⟩ := p
  rw [has_iff]
  cases index with
  | negSucc n => simp [modifyLog, log?, eq_comm]
  | ofNat i =>
    cases hlogs : c.topics.get? topic with
    | none => simp [modifyLog, log?, hlogs, eq_comm]
    | some logs =>
      by_cases hlt : i < logs.length
      · simp [modifyLog, log?, hlogs, hlt]
      · simp [modifyLog, log?, hlogs, hlt, eq_comm]

theorem has_of_modifyLog {f : PartitionLog → PartitionLog} (h : c.modifyLog p f = .ok c') :
    c.Has p := by
  by_contra hnot
  cases (modifyLog_eq_error_iff.2 ⟨hnot, rfl⟩).symm.trans h

theorem count?_modifyLog {f : PartitionLog → PartitionLog} (h : c.modifyLog p f = .ok c')
    (topic : String) : c'.count? topic = c.count? topic := by
  unfold modifyLog at h
  split at h
  next i logs _ hlogs =>
    split at h <;> cases h
    by_cases htopic : topic = p.topic
    · subst htopic
      simp [count?, hlogs]
    · simp [count?, SortedMap.get?_insert_of_ne _ htopic]
  next => cases h

theorem logOf_modifyLog {f : PartitionLog → PartitionLog} (h : c.modifyLog p f = .ok c')
    (q : Partition) : c'.logOf q = if q = p then f (c.logOf q) else c.logOf q := by
  rw [logOf, (modifyLog_eq_ok h).2 q]
  by_cases hq : q = p
  · subst hq
    obtain ⟨log, hlog⟩ := Option.isSome_iff_exists.1 (has_iff.1 (has_of_modifyLog h))
    simp [logOf, hlog]
  · simp only [if_neg hq, logOf]

theorem records_append {entry : LogEntry}
    (h : c.modifyLog p (fun log => { log with entries := log.entries ++ [entry] }) = .ok c') :
    c'.records p = c.records p ++ [recordAt p (c.logLength p) entry] := by
  have hlog := logOf_modifyLog h p
  rw [if_pos rfl] at hlog
  rw [records_eq, records_eq, hlog, logLength_eq, List.mapIdx_append]
  simp

theorem createTopic_eq_ok {name : String} {count : Int} (h : c.createTopic name count = .ok c') :
    (∀ topic, c'.count? topic =
        (c.count? topic).or (if name = topic then some count.toNat else none)) ∧
      ∀ p, c'.logOf p = c.logOf p := by
  unfold createTopic at h
  split at h
  · cases h
  split at h
  next hold =>
    cases h
    refine ⟨fun topic => ?_, fun p => rfl⟩
    by_cases htopic : name = topic
    · subst htopic
      obtain ⟨logs, hlogs⟩ := SortedMap.contains_iff.1 hold
      simp [count?, hlogs]
    · simp [htopic]
  next hnew =>
    cases h
    have hnone : c.topics.get? name = none := by simpa [SortedMap.contains] using hnew
    refine ⟨fun topic => ?_, fun p => ?_⟩
    · by_cases htopic : name = topic
      · subst htopic
        simp [count?, hnone]
      · simp [count?, SortedMap.get?_insert_of_ne _ (Ne.symm htopic), htopic]
    · obtain ⟨topic, index⟩ := p
      cases index with
      | negSucc n => rfl
      | ofNat i =>
        by_cases htopic : topic = name
        · subst htopic
          by_cases hlt : i < count.toNat <;> simp [logOf, log?, hnone, hlt]
        · simp [logOf, log?, SortedMap.get?_insert_of_ne _ htopic]

theorem append_eq_ok {entry : LogEntry} {offset : Int} (h : c.append p entry = .ok (c', offset)) :
    offset = c.logLength p ∧
      c.modifyLog p (fun log => { log with entries := log.entries ++ [entry] }) = .ok c' := by
  obtain ⟨c₁, hm, h⟩ := Failure.bind_eq_ok_iff.1 h
  cases h
  exact ⟨rfl, hm⟩

theorem logLength_append {entry : LogEntry} {offset : Int}
    (h : c.append p entry = .ok (c', offset)) : c'.logLength p = c.logLength p + 1 := by
  rw [logLength_eq, logLength_eq, logOf_modifyLog (append_eq_ok h).2, if_pos rfl,
    List.length_append, List.length_singleton]

theorem append_eq_error_iff {entry : LogEntry} {e : Failure} :
    c.append p entry = .error e ↔ ¬ c.Has p ∧ e = .unknownPartition p := by
  rw [← modifyLog_eq_error_iff]
  unfold append
  cases c.modifyLog p fun log => { log with entries := log.entries ++ [entry] } <;>
    simp [bind, Except.bind, pure, Except.pure]

theorem appendMany_eq_ok {count : Nat} {last : Int} (h : c.appendMany p count = .ok (c', last)) :
    (∀ topic, c'.count? topic = c.count? topic) ∧
      ∀ q, c'.logOf q = { c.logOf q with
        entries := (c.logOf q).entries ++ (ClusterStep.appendMany p count).added q c } := by
  suffices hgo : ∀ n c last', appendMany.go p n c last' = .ok (c', last) →
      (∀ topic, c'.count? topic = c.count? topic) ∧
        ∀ q, c'.logOf q = { c.logOf q with
          entries := (c.logOf q).entries ++ (ClusterStep.appendMany p n).added q c } from
    hgo count c (-1) h
  intro n
  induction n with
  | zero =>
    intro c last' h
    cases h
    refine ⟨fun topic => rfl, fun q => ?_⟩
    by_cases hq : p = q <;> simp [ClusterStep.added, hq]
  | succ n ih =>
    intro c last' h
    obtain ⟨⟨c₁, offset⟩, happend, h⟩ := Failure.bind_eq_ok_iff.1 h
    obtain ⟨hcount, hlog⟩ := ih c₁ offset h
    have hm := (append_eq_ok happend).2
    refine ⟨fun topic => (hcount topic).trans (count?_modifyLog hm topic), fun q => ?_⟩
    rw [hlog]
    by_cases hq : p = q
    · subst hq
      have hself := logOf_modifyLog hm p
      rw [if_pos rfl] at hself
      rw [hself]
      simp only [ClusterStep.added, if_true, logLength_append happend, List.append_assoc, List.range_succ_eq_map,
        List.map_cons, List.map_map, List.singleton_append, Nat.add_zero]
      simp only [Function.comp_def, Nat.succ_eq_add_one, Nat.add_assoc, Nat.add_comm 1]
    · have hother := logOf_modifyLog hm q
      rw [if_neg (Ne.symm hq)] at hother
      simp only [hother, ClusterStep.added, if_neg hq]

theorem appendMany_eq_error_iff {count : Nat} {e : Failure} :
    c.appendMany p count = .error e ↔ count ≠ 0 ∧ ¬ c.Has p ∧ e = .unknownPartition p := by
  have hok (n : Nat) (c : Cluster) (last : Int) (hhas : c.Has p) :
      ∃ result, appendMany.go p n c last = .ok result := by
    induction n generalizing c last with
    | zero => exact ⟨_, rfl⟩
    | succ n ih =>
      cases happend : c.append p (generated p (c.logLength p)) with
      | error e => exact absurd hhas (append_eq_error_iff.1 happend).1
      | ok appended =>
        obtain ⟨c₁, offset⟩ := appended
        have hhas₁ : c₁.Has p :=
          (has_congr fun topic => count?_modifyLog (append_eq_ok happend).2 topic).2 hhas
        obtain ⟨result, hresult⟩ := ih c₁ offset hhas₁
        exact ⟨result, by simpa [appendMany.go, happend, bind, Except.bind] using hresult⟩
  cases count with
  | zero => simp [appendMany, appendMany.go]
  | succ n =>
    by_cases hhas : c.Has p
    · obtain ⟨result, hresult⟩ := hok (n + 1) c (-1) hhas
      simp [appendMany, hresult, hhas]
    · have happend : c.append p (generated p (c.logLength p)) = .error (.unknownPartition p) :=
        append_eq_error_iff.2 ⟨hhas, rfl⟩
      simp [appendMany, appendMany.go, happend, hhas, bind, Except.bind, eq_comm]

end Cluster

namespace ClusterStep

variable {c c' : Cluster} {step : ClusterStep} {value : Value}

/-- What a step is refused for: a topic without name or partitions, a partition that its topic has not,
or a pattern that cannot be read. -/
inductive Refused (c : Cluster) : ClusterStep → Stop → Prop
  | invalidTopic {name : String} {count : Int} (h : name = "" ∨ count ≤ 0) :
    Refused c (.createTopic name count) (.failure (.configuration "topic"
      ("invalid topic '" ++ name ++ "' with " ++ Decimal.ofInt count ++ " partitions")))
  | append {p : Partition} {entry : LogEntry} (h : ¬ c.Has p) :
    Refused c (.append p entry) (.failure (.unknownPartition p))
  | appendMany {p : Partition} {count : Nat} (hcount : count ≠ 0) (h : ¬ c.Has p) :
    Refused c (.appendMany p count) (.failure (.unknownPartition p))
  | setLeader {p : Partition} {leader : Option Int} (h : ¬ c.Has p) :
    Refused c (.setLeader p leader) (.failure (.unknownPartition p))
  | invalidPattern {pattern : String} (h : Pattern.read? pattern = none) :
    Refused c (.topicsMatching pattern) .invalidPattern

theorem refused_of_run {stop : Stop} (h : step.run c = .error stop) : Refused c step stop := by
  cases step with
  | createTopic name count =>
    simp only [run] at h
    split at h <;> cases h
    next e he =>
      unfold Cluster.createTopic at he
      split at he
      next hinvalid =>
        cases he
        exact .invalidTopic hinvalid
      next => split at he <;> cases he
  | append p entry =>
    simp only [run] at h
    split at h <;> cases h
    next e he =>
      obtain ⟨hnot, rfl⟩ := Cluster.append_eq_error_iff.1 he
      exact .append hnot
  | appendMany p count =>
    simp only [run] at h
    split at h <;> cases h
    next e he =>
      obtain ⟨hcount, hnot, rfl⟩ := Cluster.appendMany_eq_error_iff.1 he
      exact .appendMany hcount hnot
  | setLeader p leader =>
    simp only [run] at h
    split at h <;> cases h
    next e he =>
      obtain ⟨hnot, rfl⟩ := Cluster.modifyLog_eq_error_iff.1 he
      exact .setLeader hnot
  | topicsMatching pattern =>
    simp only [run] at h
    split at h <;> cases h
    next hread => exact .invalidPattern hread
  | _ => cases h

theorem run_of_refused {stop : Stop} (h : Refused c step stop) : step.run c = .error stop := by
  cases h with
  | invalidTopic h => simp only [run, Cluster.createTopic, if_pos h]
  | append h => simp only [run, Cluster.append_eq_error_iff.2 ⟨h, rfl⟩]
  | appendMany hcount h => simp only [run, Cluster.appendMany_eq_error_iff.2 ⟨hcount, h, rfl⟩]
  | setLeader h => simp only [run, Cluster.setLeader, Cluster.modifyLog_eq_error_iff.2 ⟨h, rfl⟩]
  | invalidPattern h => simp only [run, h]

theorem run_eq_error_iff {stop : Stop} : step.run c = .error stop ↔ Refused c step stop :=
  ⟨refused_of_run, run_of_refused⟩

/-- What a step that succeeds makes of the topics, the leaders and the logs. -/
theorem run_eq_ok (h : step.run c = .ok (value, c')) :
    (∀ topic, c'.count? topic = (c.count? topic).or (step.created topic).head?) ∧
      ∀ p, c'.logOf p = ⟨((step.led p).getLast?).getD (c.logOf p).leader,
        (c.logOf p).entries ++ step.added p c⟩ := by
  have hkept {topic : String} (hcount : c'.count? topic = c.count? topic) :
      c'.count? topic = (c.count? topic).or none := by
    rw [hcount, Option.or_none]
  have hlogs (htopics : c'.topics = c.topics) (p : Partition) :
      c'.logOf p = ⟨(c.logOf p).leader, (c.logOf p).entries ++ []⟩ := by
    rw [Cluster.logOf_congr htopics, List.append_nil]
  cases step with
  | createTopic name count =>
    simp only [run] at h
    split at h <;> cases h
    next hcreate =>
      obtain ⟨hcount, hlog⟩ := Cluster.createTopic_eq_ok hcreate
      refine ⟨fun topic => ?_, fun p => ?_⟩
      · rw [hcount, created]
        split <;> rfl
      · simp [hlog, led, added]
  | append q entry =>
    simp only [run] at h
    split at h <;> cases h
    next happend =>
      have hm := (Cluster.append_eq_ok happend).2
      refine ⟨fun topic => hkept (Cluster.count?_modifyLog hm topic), fun p => ?_⟩
      rw [Cluster.logOf_modifyLog hm]
      by_cases hp : p = q
      · simp [hp, led, added]
      · simp [hp, Ne.symm hp, led, added]
  | appendMany q count =>
    simp only [run] at h
    split at h <;> cases h
    next happend =>
      obtain ⟨hcount, hlog⟩ := Cluster.appendMany_eq_ok happend
      exact ⟨fun topic => hkept (hcount topic), hlog⟩
  | setLeader q leader =>
    simp only [run] at h
    split at h <;> cases h
    next hset =>
      refine ⟨fun topic => hkept (Cluster.count?_modifyLog hset topic), fun p => ?_⟩
      rw [Cluster.logOf_modifyLog hset]
      by_cases hp : p = q
      · simp [hp, led, added]
      · simp [hp, Ne.symm hp, led, added]
  | topicsMatching pattern =>
    simp only [run] at h
    split at h <;> cases h
    exact ⟨fun topic => hkept rfl, hlogs rfl⟩
  | _ =>
    cases h
    exact ⟨fun topic => hkept rfl, hlogs rfl⟩

end ClusterStep

namespace World

variable {ℓ κ : Type} {w : World ℓ κ}

def stored {α : Type} (f : Cluster → ClusterStep → List α) (w : World ℓ κ) : Move ℓ κ → List α
  | .cluster step => if (step.run w.cluster).isOk then f w.cluster step else []
  | _ => []

/-- The numbers of partitions with which a topic was made, again and again perhaps. -/
def created (topic : String) (w : World ℓ κ) (m : Move ℓ κ) : List Nat :=
  w.stored (fun _ step => step.created topic) m

/-- The leaders that a partition was given. -/
def led (p : Partition) (w : World ℓ κ) (m : Move ℓ κ) : List (Option Int) :=
  w.stored (fun _ step => step.led p) m

def added (p : Partition) (w : World ℓ κ) (m : Move ℓ κ) : List LogEntry :=
  w.stored (fun cluster step => step.added p cluster) m

theorem topics_after {m : Move ℓ κ} (hm : ∀ step, m ≠ .cluster step) :
    (w.after m).cluster.topics = w.cluster.topics := by
  cases m with
  | act id a => exact topics_act id w a
  | cluster step => exact absurd rfl (hm step)
  | _ => rfl

theorem after_of_error {step : ClusterStep} {stop : Stop} (h : step.run w.cluster = .error stop) :
    w.after (.cluster step) = w := by
  simp only [after, World.step, stepCluster, h]

theorem store_after (w : World ℓ κ) (m : Move ℓ κ) :
    (∀ topic, (w.after m).cluster.count? topic =
        (w.cluster.count? topic).or (w.created topic m).head?) ∧
      ∀ p, (w.after m).cluster.logOf p =
        ⟨((w.led p m).getLast?).getD (w.cluster.logOf p).leader,
          (w.cluster.logOf p).entries ++ w.added p m⟩ := by
  have hkept (hstored : ∀ {α : Type} (f : Cluster → ClusterStep → List α), w.stored f m = [])
      (htopics : (w.after m).cluster.topics = w.cluster.topics) :
      (∀ topic, (w.after m).cluster.count? topic =
          (w.cluster.count? topic).or (w.created topic m).head?) ∧
        ∀ p, (w.after m).cluster.logOf p =
          ⟨((w.led p m).getLast?).getD (w.cluster.logOf p).leader,
            (w.cluster.logOf p).entries ++ w.added p m⟩ := by
    refine ⟨fun topic => ?_, fun p => ?_⟩
    · rw [created, hstored, Cluster.count?_congr htopics, List.head?_nil, Option.or_none]
    · rw [led, added, hstored, hstored, Cluster.logOf_congr htopics, List.append_nil]
      rfl
  cases m with
  | cluster step =>
    cases hrun : step.run w.cluster with
    | ok result =>
      obtain ⟨value, cluster⟩ := result
      have hstored {α : Type} (f : Cluster → ClusterStep → List α) :
          w.stored f (.cluster step) = f w.cluster step := by
        simp [stored, hrun, Except.isOk, Except.toBool]
      simp only [created, led, added, hstored, after, World.step, stepCluster, hrun]
      exact ClusterStep.run_eq_ok hrun
    | error stop =>
      refine hkept (fun f => ?_) (by rw [after_of_error hrun])
      simp [stored, hrun, Except.isOk, Except.toBool]
  | _ => exact hkept (fun f => rfl) (topics_after (by simp))

/-- What a run makes of the cluster: topics keep their first size, partitions have their last
leader, and logs all that was added. -/
theorem store_run (w : World ℓ κ) (ms : List (Move ℓ κ)) :
    (∀ topic, (w.run ms).cluster.count? topic =
        (w.cluster.count? topic).or (collect (created topic) w ms).head?) ∧
      ∀ p, (w.run ms).cluster.logOf p =
        ⟨((collect (led p) w ms).getLast?).getD (w.cluster.logOf p).leader,
          (w.cluster.logOf p).entries ++ collect (added p) w ms⟩ := by
  induction ms generalizing w with
  | nil => simp
  | cons m ms ih =>
    obtain ⟨hcount, hlog⟩ := store_after w m
    obtain ⟨hcount', hlog'⟩ := ih (w.after m)
    refine ⟨fun topic => ?_, fun p => ?_⟩
    · rw [run_cons, hcount', hcount, collect_cons, List.head?_append, Option.or_assoc]
    · rw [run_cons, hlog', hlog, collect_cons, collect_cons, List.getLast?_append, Option.getD_or,
        List.append_assoc]

theorem records_run (w : World ℓ κ) (ms : List (Move ℓ κ)) (p : Partition) :
    (w.run ms).cluster.records p = w.cluster.records p ++
      (collect (added p) w ms).mapIdx fun i e =>
        Cluster.recordAt p (w.cluster.logLength p + i) e := by
  rw [Cluster.records_eq, (store_run w ms).2, Cluster.records_eq, Cluster.logLength_eq,
    List.mapIdx_append]
  simp only [Nat.add_comm]

theorem partitions?_run {topic : String} {infos : List PartitionInfo}
    (h : w.cluster.partitions? topic = some infos) (ms : List (Move ℓ κ)) :
    ∃ infos', (w.run ms).cluster.partitions? topic = some infos' ∧
      infos'.map (·.partition) = infos.map (·.partition) := by
  rw [Cluster.partitions?_eq] at h ⊢
  obtain ⟨n, hn, rfl⟩ := Option.map_eq_some_iff.1 h
  rw [(store_run w ms).1, hn]
  exact ⟨_, rfl, by simp⟩

def sampleStore : List (Move Unit Unit) :=
  [.cluster (.createTopic "t" 2), .cluster (.appendMany ⟨"t", 0⟩ 2), .cluster (.createTopic "t" 5),
    .cluster (.append ⟨"t", 2⟩ ⟨none, .empty⟩), .create .standard,
    .act 0 (.request (.assign (.setOf [⟨"t", 2⟩]))), .cluster (.setLeader ⟨"t", 1⟩ none),
    .act 0 (.request .poll), .cluster (.append ⟨"t", 0⟩ ⟨none, .empty⟩)]

end World

end LogConsumer
