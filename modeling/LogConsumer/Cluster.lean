import LogConsumer.Failure
import LogConsumer.Pattern.Search

/-! An append-only cluster in memory: topics with a leader and a log for each partition, and the
offsets that consumer groups have committed. -/
namespace LogConsumer

structure LogEntry where
  key : Option ByteArray
  value : ByteArray
deriving DecidableEq

structure PartitionLog where
  leader : Option Int
  entries : List LogEntry
deriving DecidableEq

structure GroupPartition where
  group : String
  partition : Partition
deriving DecidableEq

namespace GroupPartition

instance : Ord GroupPartition := ⟨compareLex (compareOn (·.group)) (compareOn (·.partition))⟩

instance : Std.TransOrd GroupPartition :=
  inferInstanceAs (Std.TransCmp
    (compareLex (compareOn GroupPartition.group) (compareOn GroupPartition.partition)))

instance : Std.LawfulEqOrd GroupPartition where
  eq_of_compare {a b} h := by
    have ⟨h₁, h₂⟩ := Ordering.then_eq_eq.1 (h : (compareLex _ _ a b) = .eq)
    obtain ⟨g, p⟩ := a
    obtain ⟨g', p'⟩ := b
    have hg : g = g' := Std.LawfulEqCmp.eq_of_compare (show compare g g' = .eq from h₁)
    have hp : p = p' := Std.LawfulEqCmp.eq_of_compare (show compare p p' = .eq from h₂)
    rw [hg, hp]

end GroupPartition

abbrev OffsetMap := SortedMap Partition Int

structure Cluster where
  topics : SortedMap String (List PartitionLog)
  committed : SortedMap GroupPartition Int
deriving DecidableEq

namespace Cluster

def empty : Cluster := ⟨.empty, .empty⟩

instance : Inhabited Cluster := ⟨empty⟩

/-- The log of a partition, if its topic is known and has so many. -/
def log? (c : Cluster) (p : Partition) : Option PartitionLog :=
  match p.index with
  | .ofNat i => (c.topics.get? p.topic).bind (·[i]?)
  | .negSucc _ => none

def modifyLog (c : Cluster) (p : Partition) (f : PartitionLog → PartitionLog) :
    Except Failure Cluster :=
  match p.index, c.topics.get? p.topic with
  | .ofNat i, some logs =>
    if i < logs.length then .ok { c with topics := c.topics.insert p.topic (logs.modify i f) }
    else .error (.unknownPartition p)
  | _, _ => .error (.unknownPartition p)

/-- Makes a topic whose partitions all have broker 0 as their leader; one that exists stays. -/
def createTopic (c : Cluster) (name : String) (count : Int) : Except Failure Cluster :=
  if name = "" ∨ count ≤ 0 then
    .error (.configuration "topic"
      ("invalid topic '" ++ name ++ "' with " ++ Decimal.ofInt count ++ " partitions"))
  else if c.topics.contains name then .ok c
  else .ok { c with topics := c.topics.insert name (List.replicate count.toNat ⟨some 0, []⟩) }

def logLength (c : Cluster) (p : Partition) : Nat :=
  match c.log? p with
  | some log => log.entries.length
  | none => 0

/-- Adds an entry at the end of a log and tells its offset. -/
def append (c : Cluster) (p : Partition) (e : LogEntry) : Except Failure (Cluster × Int) := do
  let c' ← c.modifyLog p fun log => { log with entries := log.entries ++ [e] }
  return (c', c.logLength p)

def generated (p : Partition) (offset : Nat) : LogEntry :=
  ⟨some (Decimal.ofNat offset).toUTF8, (p.name ++ "-" ++ Decimal.ofNat offset).toUTF8⟩

/-- Adds `count` generated entries and tells the last offset, -1 if there is none. -/
def appendMany (c : Cluster) (p : Partition) (count : Nat) : Except Failure (Cluster × Int) :=
  go count c (-1)
where
  go : Nat → Cluster → Int → Except Failure (Cluster × Int)
    | 0, c, last => .ok (c, last)
    | n + 1, c, _ => do
      let (c, last) ← c.append p (generated p (c.logLength p))
      go n c last

def setLeader (c : Cluster) (p : Partition) (leader : Option Int) : Except Failure Cluster :=
  c.modifyLog p fun log => { log with leader }

def recordAt (p : Partition) (offset : Nat) (e : LogEntry) : Record := ⟨p, offset, e.key, e.value⟩

def read? (c : Cluster) (p : Partition) : Int → Option Record
  | .ofNat offset =>
    ((c.log? p).bind fun log => log.entries[offset]?).map (recordAt p offset)
  | .negSucc _ => none

theorem read?_isSome_iff {c : Cluster} {p : Partition} {offset : Int} :
    (c.read? p offset).isSome ↔ 0 ≤ offset ∧ offset < c.logLength p := by
  cases offset with
  | ofNat n => cases h : c.log? p <;> simp [read?, logLength, h]
  | negSucc n => simp [read?]

theorem read?_congr {c c' : Cluster} (h : c'.topics = c.topics) (p : Partition) :
    c'.read? p = c.read? p := by
  funext offset
  cases offset <;> simp [read?, log?, h]

def records (c : Cluster) (p : Partition) : List Record :=
  match c.log? p with
  | some log => log.entries.mapIdx fun i e => recordAt p i e
  | none => []

def committedOffset? (c : Cluster) (group : String) (p : Partition) : Option Int :=
  c.committed.get? ⟨group, p⟩

/-- Notes an offset for a group; neither the partition nor the offset is checked. -/
def commit (c : Cluster) (group : String) (p : Partition) (offset : Int) : Cluster :=
  { c with committed := c.committed.insert ⟨group, p⟩ offset }

@[simp] theorem committedOffset?_commit (c : Cluster) (group : String) (p : Partition)
    (offset : Int) (group' : String) (p' : Partition) :
    (c.commit group p offset).committedOffset? group' p' =
      if group' = group ∧ p' = p then some offset else c.committedOffset? group' p' := by
  simp [commit, committedOffset?, SortedMap.get?_insert]

@[simp] theorem topics_commit (c : Cluster) (group : String) (p : Partition) (offset : Int) :
    (c.commit group p offset).topics = c.topics := rfl

def commitAll (c : Cluster) (group : String) (offsets : OffsetMap) : Cluster :=
  offsets.entries.foldl (fun c e => c.commit group e.1 e.2) c

theorem topics_commitAll (c : Cluster) (group : String) (offsets : OffsetMap) :
    (c.commitAll group offsets).topics = c.topics := by
  unfold commitAll
  induction offsets.entries generalizing c with
  | nil => rfl
  | cons e es ih => exact ih _

theorem committedOffset?_commitAll (c : Cluster) (group : String) (offsets : OffsetMap)
    (group' : String) (p : Partition) :
    (c.commitAll group offsets).committedOffset? group' p =
      if group' = group then (offsets.get? p).or (c.committedOffset? group' p)
      else c.committedOffset? group' p := by
  obtain ⟨l, hl⟩ := offsets
  simp only [commitAll, SortedMap.get?]
  induction l generalizing c with
  | nil => simp [SortedMap.lookup]
  | cons e l ih =>
    obtain ⟨hhead, htail⟩ := List.pairwise_cons.1 hl
    rw [List.foldl_cons, ih _ htail, committedOffset?_commit]
    by_cases hp : p = e.1
    · -- No later entry has the same key.
      have hnone : SortedMap.lookup e.1 l = none := by
        refine Option.eq_none_iff_forall_ne_some.2 fun v hv => ?_
        have hlt := hhead _ ((SortedMap.lookup_eq_some_iff htail).1 hv)
        simp [Std.ReflCmp.compare_self] at hlt
      by_cases hgroup : group' = group <;>
        simp [SortedMap.lookup, hp, hgroup, hnone, Std.ReflCmp.compare_self]
    · have hne : compare p e.1 ≠ .eq := fun h => hp (Std.LawfulEqCmp.eq_of_compare h)
      simp [SortedMap.lookup, hp, hne]

theorem ext_committedOffset? {c c' : Cluster} (htopics : c.topics = c'.topics)
    (h : ∀ group p, c.committedOffset? group p = c'.committedOffset? group p) : c = c' := by
  have hcommitted : c.committed = c'.committed :=
    SortedMap.ext_get? fun k => h k.group k.partition
  cases c
  cases htopics
  cases hcommitted
  rfl

theorem commitAll_comm (c : Cluster) {group group' : String} {offsets offsets' : OffsetMap}
    (h : group = group' → ∀ p, offsets.contains p = true → offsets'.contains p = false) :
    (c.commitAll group offsets).commitAll group' offsets' =
      (c.commitAll group' offsets').commitAll group offsets := by
  refine ext_committedOffset? (by simp only [topics_commitAll]) fun g p => ?_
  simp only [committedOffset?_commitAll]
  by_cases hg : g = group
  · subst hg
    by_cases hg' : g = group'
    · have hp := h hg' p
      simp only [SortedMap.contains] at hp
      cases ho : offsets.get? p with
      | none => simp
      | some offset =>
        have hnone : offsets'.get? p = none := by simpa [ho] using hp
        simp [hnone]
    · simp [hg']
  · simp [hg]

theorem commit_commitAll_comm (c : Cluster) {group group' : String} {offsets : OffsetMap}
    {p : Partition} (offset : Int) (h : group = group' → offsets.contains p = false) :
    (c.commitAll group offsets).commit group' p offset =
      (c.commit group' p offset).commitAll group offsets := by
  refine ext_committedOffset? (by simp only [topics_commitAll, topics_commit]) fun g q => ?_
  simp only [committedOffset?_commitAll, committedOffset?_commit]
  by_cases hgq : g = group' ∧ q = p
  · obtain ⟨rfl, rfl⟩ := hgq
    by_cases hg : group = g
    · have hnone : offsets.get? q = none := by simpa [SortedMap.contains] using h hg
      simp [hg, hnone]
    · simp [Ne.symm hg]
  · simp [hgq]

theorem commitAll_with_topics (c : Cluster) (topics : SortedMap String (List PartitionLog))
    (group : String) (offsets : OffsetMap) :
    Cluster.commitAll { c with topics } group offsets =
      { c.commitAll group offsets with topics } := by
  unfold commitAll
  induction offsets.entries generalizing c with
  | nil => rfl
  | cons e es ih => exact ih (c.commit group e.1 e.2)

def topicNames (c : Cluster) : List String := c.topics.keys

def partitions? (c : Cluster) (topic : String) : Option (List PartitionInfo) :=
  (c.topics.get? topic).map (·.mapIdx fun i log => ⟨⟨topic, i⟩, log.leader⟩)

def available (c : Cluster) (topic : String) : List PartitionInfo :=
  ((c.partitions? topic).getD []).filter (·.isAvailable)

/-- The topics whose whole name the search for `p` finds. -/
def topicsMatching (c : Cluster) (p : Pattern) : SortedSet String :=
  .setOf (c.topicNames.filter p.spans)

def resolve (c : Cluster) (topics : SortedSet String) : SortedSet Partition :=
  .setOf (topics.keys.flatMap fun t => (c.available t).map (·.partition))

def isLed (c : Cluster) (p : Partition) : Bool := (c.log? p).any (·.leader.isSome)

theorem mem_available_iff {c : Cluster} {topic : String} {p : Partition} :
    p ∈ (c.available topic).map (·.partition) ↔ p.topic = topic ∧ c.isLed p = true := by
  obtain ⟨t, index⟩ := p
  cases hlogs : c.topics.get? topic with
  | none =>
    simp only [available, partitions?, hlogs, isLed, log?]
    refine iff_of_false (by simp) ?_
    rintro ⟨rfl, hled⟩
    cases index <;> simp [hlogs] at hled
  | some logs =>
    simp only [available, partitions?, hlogs, isLed, log?, Option.map_some, Option.getD_some,
      List.mem_map, List.mem_filter, List.mem_mapIdx, PartitionInfo.isAvailable]
    constructor
    · rintro ⟨_, ⟨⟨i, hlt, rfl⟩, hled⟩, heq⟩
      cases heq
      simpa [hlogs, List.getElem?_eq_getElem hlt] using hled
    · rintro ⟨rfl, hled⟩
      cases index with
      | negSucc i => cases hled
      | ofNat i =>
        obtain ⟨log, hlog, hleader⟩ := (Option.any_eq_true ..).1 hled
        have hget : logs[i]? = some log := by simpa [hlogs] using hlog
        obtain ⟨hlt, rfl⟩ := List.getElem?_eq_some_iff.1 hget
        exact ⟨_, ⟨⟨i, hlt, rfl⟩, hleader⟩, rfl⟩

theorem contains_resolve {c : Cluster} {topics : SortedSet String} {p : Partition} :
    (c.resolve topics).contains p = true ↔ topics.contains p.topic = true ∧ c.isLed p = true := by
  simp only [resolve, SortedMap.contains_setOf, List.mem_flatMap, mem_available_iff,
    SortedMap.mem_keys_iff]
  constructor
  · rintro ⟨_, htopic, rfl, hled⟩
    exact ⟨htopic, hled⟩
  · rintro ⟨htopic, hled⟩
    exact ⟨p.topic, htopic, rfl, hled⟩

end Cluster

end LogConsumer
