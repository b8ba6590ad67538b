import LogConsumer.Proofs.Coverage
import LogConsumer.Proofs.Delivery
import LogConsumer.Proofs.Expiry
import Mathlib.Algebra.Order.BigOperators.Group.List
import Mathlib.Algebra.Order.Ring.Nat

/-! Polling until nothing comes. Each poll that returns records leaves fewer that are still to be read,
and one that returns none leaves none, but for partitions whose position lies before their beginning.
Main statement: `polling_drains`. -/
namespace LogConsumer

variable {ℓ κ : Type}

namespace Positions

/-- How many records a log has from the position on. A position before the beginning of the log, where
there is never a record, leads to none. -/
def unread (cluster : Cluster) (positions : Positions) (p : Partition) : Nat :=
  match positions.get? p with
  | some offset => if offset < 0 then 0 else cluster.logLength p - offset.toNat
  | none => 0

variable {cluster : Cluster} {positions positions' : Positions} {p : Partition}

theorem unread_congr (h : positions'.get? p = positions.get? p) :
    unread cluster positions' p = unread cluster positions p := by simp only [unread, h]

theorem unread_of_topics {cluster' : Cluster} (h : cluster'.topics = cluster.topics)
    (positions : Positions) : unread cluster' positions = unread cluster positions := by
  funext p
  simp only [unread, Cluster.logLength, Cluster.log?, h]

theorem unread_of_read {offset : Int} {r : Record} (hoffset : positions.get? p = some offset)
    (hr : cluster.read? p offset = some r) (hnext : positions'.get? p = some (offset + 1)) :
    unread cluster positions' p < unread cluster positions p := by
  have ⟨hle, hlt⟩ := Cluster.read?_isSome_iff.1 (Option.isSome_of_eq_some hr)
  have hnot : ¬ offset < 0 := by omega
  have hnot' : ¬ offset + 1 < 0 := by omega
  simp only [unread, hoffset, hnext, if_neg hnot, if_neg hnot']
  omega

end Positions

namespace Batch

/-- A batch with records leaves fewer to be read. -/
theorem unread_collect_lt {cluster : Cluster} {cap : Nat} {assignment : SortedSet Partition}
    {positions : Positions} (h : (collect cluster cap assignment positions).1.count ≠ 0) :
    (assignment.keys.map
        (Positions.unread cluster (collect cluster cap assignment positions).2)).sum <
      (assignment.keys.map (Positions.unread cluster positions)).sum := by
  have hcases (p : Partition) := collect_cases cluster cap assignment positions p
  apply List.sum_lt_sum
  · intro p _
    rcases hcases p with ⟨-, hsame⟩ | ⟨offset, r, -, hoffset, hr, -, hnext⟩
    · exact Nat.le_of_eq (Positions.unread_congr hsame)
    · exact Nat.le_of_lt (Positions.unread_of_read hoffset hr hnext)
  · obtain ⟨p, hp⟩ : ∃ p, (collect cluster cap assignment positions).1.recordsOf p ≠ [] := by
      by_contra hnone
      exact h (count_eq_zero_iff.2 fun p => by_contra fun hp => hnone ⟨p, hp⟩)
    rcases hcases p with ⟨hnone, -⟩ | ⟨offset, r, hassigned, hoffset, hr, -, hnext⟩
    · exact absurd hnone hp
    · exact ⟨p, SortedMap.mem_keys_iff.2 hassigned, Positions.unread_of_read hoffset hr hnext⟩

theorem positions_of_count_eq_zero {cluster : Cluster} {cap : Nat} {assignment : SortedSet Partition}
    {positions : Positions} (h : (collect cluster cap assignment positions).1.count = 0) :
    (collect cluster cap assignment positions).2 = positions := by
  apply SortedMap.ext_get?
  intro p
  rcases collect_cases cluster cap assignment positions p with ⟨-, hsame⟩ | ⟨_, _, -, -, -, hone, -⟩
  · exact hsame
  · cases (count_eq_zero_iff.1 h p).symm.trans hone

end Batch

/-- Records that were read one after the other from `start` on, up to an offset without a record, are
all there are from there on. A start before the beginning of the log leads to none. -/
theorem Cluster.read_all {cluster : Cluster} {p : Partition} {start : Int} {records : List Record}
    (hread : cluster.IsRange p start records)
    (hend : cluster.read? p (start + records.length) = none) :
    (0 ≤ start → (cluster.logLength p : Int) ≤ start + records.length ∧
        records.length = (cluster.logLength p - start).toNat) ∧
      (start < 0 → records = []) := by
  have hin {i : Nat} (hi : i < records.length) :
      0 ≤ start + i ∧ start + i < cluster.logLength p := by
    have hget := congrArg (·[i]?) hread
    simp only [List.getElem?_map, List.getElem?_range hi, List.getElem?_eq_getElem hi,
      Option.map_some, Option.some.injEq] at hget
    exact Cluster.read?_isSome_iff.1 (Option.isSome_of_eq_some hget.symm)
  have hout : ¬ (0 ≤ start + records.length ∧ start + records.length < cluster.logLength p) := by
    rw [← Cluster.read?_isSome_iff, hend]
    simp
  constructor
  · intro hstart
    cases hlength : records.length with
    | zero =>
      rw [hlength] at hout
      omega
    | succ n =>
      have hlast := hin (i := n) (by omega)
      rw [hlength] at hout
      omega
  · intro hstart
    by_contra hne
    have hfirst := hin (List.length_pos_iff.2 hne)
    omega

theorem Session.touch_of_none {s : Session} (h : s.timeout = none) (now : Time) : s.touch now = s := by
  simp [touch, h]

namespace Consumer

def unread (cluster : Cluster) (c : Consumer ℓ κ) : Nat :=
  (c.subscription.assignment.keys.map (Positions.unread cluster c.positions)).sum

/-- Nothing but its answer is to be expected of a poll: there is no operation in progress, the
assignment has begun and cannot lapse, and no fault is queued. -/
structure IsReady (c : Consumer ℓ κ) : Prop where
  free : c.guard = .free
  isOpen : c.closed = false
  active : c.subscription.pending = false
  lasting : c.session.timeout = none
  faultless : c.pollFaults.pending = []

variable {cluster : Cluster} {now : Time} {c : Consumer ℓ κ} {a : Act ℓ κ}

/-- With automatic heartbeats a session has no timeout. -/
def IsLasting (c : Consumer ℓ κ) : Prop := c.behaviour.autoHeartbeat = true → c.session.timeout = none

theorem isLasting_ofBehaviour (b : Behaviour) : (ofBehaviour b : Consumer ℓ κ).IsLasting := fun _ => rfl

theorem IsLasting.act (h : c.IsLasting) : (c.act cluster now a).IsLasting := by
  intro hauto
  rw [behaviour_act] at hauto
  cases hconfigures : c.configures cluster now a with
  | true =>
    obtain ⟨_, -, ⟨-, hset⟩ | ⟨hmanual, -⟩⟩ := session_of_configures hconfigures
    · rw [hset]
      rfl
    · cases hauto.symm.trans hmanual
  | false =>
    rw [session_act hconfigures]
    split
    · rw [Session.touch_of_none (h hauto), h hauto]
    · exact h hauto

theorem IsReady.part?_poll (h : c.IsReady) (cluster : Cluster) (now : Time) :
    c.part? cluster now (.request .poll) = some .await := by
  have hopen : c.enter = .ok () := enter_eq_ok_iff.2 ⟨by rw [h.free]; rfl, h.isOpen⟩
  have hlasting : c.session.isExpired now = false := by simp [Session.isExpired, h.lasting]
  simp [part?, requestPart, hopen, Request.change?, pollPart, h.active, hlasting]

theorem IsReady.perform_fetch (h : c.IsReady) {batch : Batch} {positions : Positions}
    (hcollect : Batch.collect cluster c.behaviour.maxPollRecords c.subscription.assignment
      c.positions = (batch, positions)) (now : Time) (commits : Commits κ) :
    Consumer.perform cluster now { c.hold .fetching with commits } .fetch =
      ⟨{ c with positions, commits }, .answered (.ok (.batch batch)),
        [(.polls c.options.group, 1), (.recordsPolled c.options.group, batch.count)]⟩ := by
  rcases Consumer.perform_fetch_cases cluster now { c.hold .fetching with commits } with
    ⟨_, _, hpop, -⟩ | ⟨_, _, -, hcollected, heq⟩
  · have hpending := FaultQueue.pop?_eq_some_iff.1 hpop
    cases h.faultless.symm.trans hpending
  · cases hcollect.symm.trans hcollected
    rw [heq]
    simp [hold, Session.touch_of_none h.lasting, ← h.free]

end Consumer

/-- A move that leaves the logs and the consumer alone: time passes, commits run, also those of the
consumer, and other consumers do what they like. -/
def Move.isAside (id : ConsumerId) : Move ℓ κ → Bool
  | .act _ .startCommit | .act _ .finishCommit => true
  | .act id' _ => id' != id
  | .cluster _ => false
  | .create _ | .advance _ | .resetCounters => true

/-- What is done from the end of one poll to the end of the next: before the poll is begun, and while
it waits. -/
structure Round (ℓ κ : Type) where
  pause : List (Move ℓ κ)
  wait : List (Move ℓ κ)

namespace Round

def moves (id : ConsumerId) (r : Round ℓ κ) : List (Move ℓ κ) :=
  r.pause ++ (.act id (.request .poll) :: (r.wait ++ [.act id .proceed]))

def IsAside (id : ConsumerId) (r : Round ℓ κ) : Prop :=
  ∀ m ∈ r.pause ++ r.wait, m.isAside id = true

instance (id : ConsumerId) (r : Round ℓ κ) : Decidable (r.IsAside id) :=
  inferInstanceAs (Decidable (∀ m ∈ _, _))

end Round

theorem Move.act?_of_isAside {id : ConsumerId} {m : Move ℓ κ} (h : m.isAside id = true)
    {a : Act ℓ κ} (ha : m.act? id = some a) : a = .startCommit ∨ a = .finishCommit := by
  obtain rfl := Move.act?_eq_some_iff.1 ha
  cases a with
  | startCommit => exact .inl rfl
  | finishCommit => exact .inr rfl
  | _ => simp [isAside] at h

namespace World

variable {w : World ℓ κ} {id : ConsumerId} {c c' : Consumer ℓ κ} {p : Partition}

def fetched (id : ConsumerId) (w : World ℓ κ) (m : Move ℓ κ) : List Batch :=
  if (w.acted? id m).isSome then (w.outcome m).batch?.toList else []

def unread (id : ConsumerId) (w : World ℓ κ) : Nat :=
  ((w.consumer? id).map (·.unread w.cluster)).getD 0

def IsAs (c : Consumer ℓ κ) (id : ConsumerId) (w : World ℓ κ) : Prop :=
  ∃ commits, w.consumer? id = some { c with commits }

/-- Moves that lead to a consumer as `c`, return these batches on the way, and leave the logs as they
are. They neither take the assignment away nor set positions on request. -/
structure LeadsTo (c : Consumer ℓ κ) (batches : List Batch) (id : ConsumerId) (w : World ℓ κ)
    (ms : List (Move ℓ κ)) : Prop where
  isAs : (w.run ms).IsAs c id
  topics : (w.run ms).cluster.topics = w.cluster.topics
  fetched : collect (fetched id) w ms = batches
  undisturbed : ∀ p, w.Throughout (Undisturbed id p) ms

theorem LeadsTo.append {batches batches' : List Batch} {ms ms' : List (Move ℓ κ)}
    (h : w.LeadsTo c batches id ms) (h' : (w.run ms).LeadsTo c' batches' id ms') :
    w.LeadsTo c' (batches ++ batches') id (ms ++ ms') where
  isAs := by rw [run_append]; exact h'.isAs
  topics := by rw [run_append, h'.topics, h.topics]
  fetched := by rw [collect_append, h.fetched, h'.fetched]
  undisturbed p := throughout_append.2 ⟨h.undisturbed p, h'.undisturbed p⟩

theorem topics_after_of_isAside {m : Move ℓ κ} (hm : m.isAside id = true) :
    (w.after m).cluster.topics = w.cluster.topics := by
  cases m with
  | act id' a => exact topics_act id' w a
  | cluster step => cases hm
  | _ => rfl

theorem leadsTo_of_isAside {m : Move ℓ κ} (h : w.IsAs c id) (hm : m.isAside id = true) :
    w.LeadsTo c [] id [m] := by
  obtain ⟨commits, hc⟩ := h
  rcases acted?_cases hc m with ⟨a, rfl, hacted, hafter⟩ | ⟨hacted, hafter⟩
  · have hcommit := Move.act?_of_isAside hm (Move.act?_eq_some_iff.2 rfl)
    have hpart : Consumer.part? w.cluster w.clock { c with commits } a = none := by
      rcases hcommit with rfl | rfl <;> rfl
    refine ⟨?_, topics_after_of_isAside hm, ?_, fun p => ⟨⟨?_, ?_⟩, trivial⟩⟩
    · rw [Consumer.act_of_part?_none hpart] at hafter
      rcases hcommit with rfl | rfl
      · simp only [Consumer.undergo] at hafter
        split at hafter <;> exact ⟨_, hafter⟩
      · exact ⟨_, hafter⟩
    · have hnone : (w.outcome (.act id a)).batch? = none := by
        rw [outcome_act hc]
        rcases Consumer.outcome_of_part?_none hpart with h | ⟨_, -, -, h⟩ <;> rw [h] <;> rfl
      simp [fetched, hnone]
    · simp [revokes, hacted, Consumer.revokes, hpart]
    · rcases hcommit with rfl | rfl <;> simp [seeks, hacted, Consumer.seeks]
  · refine ⟨⟨commits, hafter⟩, topics_after_of_isAside hm, by simp [fetched, hacted], fun p => ?_⟩
    exact ⟨⟨by simp [revokes, hacted], by simp [seeks, hacted]⟩, trivial⟩

theorem leadsTo_of_forall_isAside {ms : List (Move ℓ κ)} (h : w.IsAs c id)
    (hms : ∀ m ∈ ms, m.isAside id = true) : w.LeadsTo c [] id ms := by
  induction ms generalizing w with
  | nil => exact ⟨h, rfl, rfl, fun _ => trivial⟩
  | cons m ms ih =>
    have ⟨hm, hms⟩ := List.forall_mem_cons.1 hms
    have hone := leadsTo_of_isAside h hm
    exact hone.append (ih hone.isAs hms)

theorem leadsTo_of_part? {d : Consumer ℓ κ} (hd : w.consumer? id = some d) {a : Act ℓ κ}
    {q : Part ℓ κ} (hq : d.part? w.cluster w.clock a = some q) (hrev : q.isRevocation = false)
    (hseek : ∀ p, d.seeks p w.cluster w.clock a = false) {commits : Commits κ}
    (hc : (d.perform w.cluster w.clock q).consumer = { c with commits }) {batch : Option Batch}
    (hbatch : (Outcome.progress (d.perform w.cluster w.clock q).progress : Outcome ℓ κ).batch? =
      batch) : w.LeadsTo c batch.toList id [.act id a] := by
  have hacted := acted?_act hd a
  refine ⟨⟨commits, ?_⟩, topics_act id w a, ?_, fun p => ⟨⟨?_, ?_⟩, trivial⟩⟩
  · rw [run_cons, run_nil, consumer?_after_act hd, Consumer.act_of_part? hq, hc]
  · simp [fetched, hacted, outcome_act hd, Consumer.outcome_of_part? hq, hbatch]
  · simp [revokes, hacted, Consumer.revokes, hq, hrev]
  · simp [seeks, hacted, hseek p]

/-- One round returns the next batch after the positions, and moves them on. -/
theorem leadsTo_of_round {r : Round ℓ κ} (h : w.IsAs c id) (hready : c.IsReady)
    (hr : r.IsAside id) {batch : Batch} {positions : Positions}
    (hcollect : Batch.collect w.cluster c.behaviour.maxPollRecords c.subscription.assignment
      c.positions = (batch, positions)) :
    w.LeadsTo { c with positions } [batch] id (r.moves id) := by
  have ⟨hpause, hwait⟩ := List.forall_mem_append.1 hr
  have h₁ := leadsTo_of_forall_isAside h hpause
  have h₂ : (w.run r.pause).LeadsTo (c.hold .fetching) [] id [.act id (.request .poll)] := by
    obtain ⟨commits, hc⟩ := h₁.isAs
    have hready' : Consumer.IsReady { c with commits } :=
      ⟨hready.free, hready.isOpen, hready.active, hready.lasting, hready.faultless⟩
    have hseek (p : Partition) : Consumer.seeks p (w.run r.pause).cluster (w.run r.pause).clock
        { c with commits } (.request .poll) = false := by simp [Consumer.seeks, Request.targets]
    exact leadsTo_of_part? hc (hready'.part?_poll ..) rfl hseek rfl rfl
  have h₃ := leadsTo_of_forall_isAside h₂.isAs hwait
  have h₄ : (((w.run r.pause).run [.act id (.request .poll)]).run r.wait).LeadsTo
      { c with positions } [batch] id [.act id .proceed] := by
    obtain ⟨commits, hc⟩ := h₃.isAs
    have htopics := (h₃.topics.trans h₂.topics).trans h₁.topics
    have hturn := hready.perform_fetch ((Batch.collect_congr htopics ..).trans hcollect)
      (((w.run r.pause).run [.act id (.request .poll)]).run r.wait).clock commits
    have hbatch := congrArg (fun t : Turn ℓ κ => (Outcome.progress t.progress : Outcome ℓ κ).batch?) hturn
    exact leadsTo_of_part? hc (Consumer.part?_proceed rfl) rfl (fun _ => rfl)
      (congrArg (·.consumer) hturn) hbatch
  exact h₁.append (h₂.append (h₃.append h₄))

/-- More rounds than there are records to be read have an end: after some that all return records, one
that returns none and leaves none to be read. -/
theorem exists_last_round {rounds : List (Round ℓ κ)} (h : w.IsAs c id) (hready : c.IsReady)
    (hrounds : ∀ r ∈ rounds, r.IsAside id) (hlong : c.unread w.cluster < rounds.length) :
    ∃ done last rest batches positions batch, rounds = done ++ last :: rest ∧
      batches.length = done.length ∧ done.length ≤ c.unread w.cluster ∧
      (∀ b ∈ batches, b.count ≠ 0) ∧ batch.count = 0 ∧
      w.LeadsTo { c with positions } batches id (done.flatMap (·.moves id)) ∧
      (w.run (done.flatMap (·.moves id))).LeadsTo { c with positions } [batch] id
        (last.moves id) ∧
      ∀ p, c.subscription.assignment.contains p = true →
        Batch.next? w.cluster positions p = none := by
  induction rounds generalizing w c with
  | nil => simp at hlong
  | cons r rounds ih =>
    have ⟨hr, hrounds⟩ := List.forall_mem_cons.1 hrounds
    cases hcollect : Batch.collect w.cluster c.behaviour.maxPollRecords c.subscription.assignment
      c.positions with
    | mk batch positions =>
      have hround := leadsTo_of_round h hready hr hcollect
      by_cases hempty : batch.count = 0
      · have hcount : (Batch.collect w.cluster c.behaviour.maxPollRecords c.subscription.assignment
            c.positions).1.count = 0 := by rw [hcollect]; exact hempty
        have hunmoved := Batch.positions_of_count_eq_zero hcount
        rw [hcollect] at hunmoved
        subst hunmoved
        exact ⟨[], r, rounds, [], c.positions, batch, rfl, rfl, Nat.zero_le _, by simp, hempty,
          ⟨h, rfl, rfl, fun _ => trivial⟩, hround, fun p hp => Batch.next?_eq_none_of_collect hcount hp⟩
      · have hcount : (Batch.collect w.cluster c.behaviour.maxPollRecords c.subscription.assignment
            c.positions).1.count ≠ 0 := by rw [hcollect]; exact hempty
        have hfewer : Consumer.unread (w.run (r.moves id)).cluster { c with positions } <
            c.unread w.cluster := by
          have hlt := Batch.unread_collect_lt hcount
          rw [hcollect] at hlt
          simpa only [Consumer.unread, Positions.unread_of_topics hround.topics] using hlt
        have hready' : Consumer.IsReady { c with positions } :=
          ⟨hready.free, hready.isOpen, hready.active, hready.lasting, hready.faultless⟩
        have hlong' : Consumer.unread (w.run (r.moves id)).cluster { c with positions } <
            rounds.length := by
          rw [List.length_cons] at hlong
          omega
        obtain ⟨done, last, rest, batches, positions', batch', rfl, hlength, hbound, hfull, hnone,
          hdone, hlast, hnext⟩ := ih hround.isAs hready' hrounds hlong'
        refine ⟨r :: done, last, rest, batch :: batches, positions', batch', rfl, ?_, ?_, ?_, hnone,
          ?_, ?_, ?_⟩
        · rw [List.length_cons, List.length_cons, hlength]
        · rw [List.length_cons]
          omega
        · exact List.forall_mem_cons.2 ⟨hempty, hfull⟩
        · rw [List.flatMap_cons]
          exact hround.append hdone
        · rw [List.flatMap_cons, run_append]
          exact hlast
        · intro p hp
          rw [← Batch.next?_congr hround.topics]
          exact hnext p hp

/-- Whoever polls again and again while the logs stay as they are gets an empty batch in the end,
and by then every record from the positions on once. A position before the beginning of a log leads
to no record. -/
theorem polling_drains (ms : List (Move ℓ κ)) (hc : (initial.run ms).consumer? id = some c)
    (hfree : c.guard.isHeld = false) (hopen : c.closed = false)
    (hauto : c.behaviour.autoHeartbeat = true) (hactive : c.subscription.pending = false)
    (hfaults : c.pollFaults.pending = []) {rounds : List (Round ℓ κ)}
    (hrounds : ∀ r ∈ rounds, r.IsAside id)
    (hlong : (initial.run ms).unread id < rounds.length) :
    ∃ done last rest batches batch, rounds = done ++ last :: rest ∧
      done.length ≤ (initial.run ms).unread id ∧ batches.length = done.length ∧
      (∀ b ∈ batches, b.count ≠ 0) ∧ batch.count = 0 ∧
      collect (fetched id) (initial.run ms) (done.flatMap (·.moves id)) = batches ∧
      collect (fetched id) ((initial.run ms).run (done.flatMap (·.moves id))) (last.moves id) =
        [batch] ∧
      ∀ p, c.subscription.assignment.contains p = true →
        ∃ start stop, (initial.run ms).position? id p = some start ∧
          ((initial.run ms).run ((done ++ [last]).flatMap (·.moves id))).position? id p = some stop ∧
          (0 ≤ start → (initial.run ms).cluster.logLength p ≤ stop ∧
            ((initial.run ms).delivered id p ((done ++ [last]).flatMap (·.moves id))).map some =
              (List.range ((initial.run ms).cluster.logLength p - start).toNat).map
                fun i : Nat => (initial.run ms).cluster.read? p (start + i)) ∧
          (start < 0 → stop = start ∧
            (initial.run ms).delivered id p ((done ++ [last]).flatMap (·.moves id)) = []) := by
  have hlasting : c.IsLasting :=
    consumer_invariant Consumer.isLasting_ofBehaviour (fun _ _ _ _ h => h.act) ms hc
  have hcovered : c.Covered :=
    consumer_invariant Consumer.covered_ofBehaviour (fun _ _ _ _ h => h.act) ms hc
  generalize initial.run ms = w at hc hlong ⊢
  have hready : c.IsReady :=
    ⟨Guard.eq_free_of_isHeld hfree, hopen, hactive, hlasting hauto, hfaults⟩
  have hunread : w.unread id = c.unread w.cluster := by simp [unread, hc]
  rw [hunread] at hlong ⊢
  obtain ⟨done, last, rest, batches, positions, batch, rfl, hlength, hbound, hfull, hempty, hdone,
    hlast, hnext⟩ := exists_last_round ⟨c.commits, hc⟩ hready hrounds hlong
  refine ⟨done, last, rest, batches, batch, rfl, hbound, hlength, hfull, hempty, hdone.fetched,
    hlast.fetched, fun p hp => ?_⟩
  obtain ⟨start, hstart⟩ := SortedMap.contains_iff.1 (hcovered.tracked hactive p hp)
  have hposition : w.position? id p = some start := by simpa [position?, hc] using hstart
  have hall := hdone.append hlast
  rw [List.flatMap_append, List.flatMap_singleton]
  obtain ⟨hrecords, hstop⟩ := delivered_run hposition (hall.undisturbed p)
  refine ⟨start, _, hposition, hstop, ?_⟩
  -- The logs are the same at the end, and have no record at the position then.
  simp only [Cluster.read?_congr hall.topics] at hrecords
  have hend : w.cluster.read? p (start +
      (w.delivered id p (done.flatMap (·.moves id) ++ last.moves id)).length) = none := by
    obtain ⟨commits, hfinal⟩ := hall.isAs
    have hget : positions.get? p = some (start +
        (w.delivered id p (done.flatMap (·.moves id) ++ last.moves id)).length) := by
      rw [position?, hfinal] at hstop
      exact hstop
    simpa [Batch.next?, hget] using hnext p hp
  obtain ⟨hin, hbefore⟩ := Cluster.read_all hrecords hend
  constructor
  · intro hle
    obtain ⟨hstop, hcount⟩ := hin hle
    exact ⟨hstop, hcount ▸ hrecords⟩
  · intro hlt
    have hnil := hbefore hlt
    rw [hnil]
    simp

/-- A consumer has been assigned two partitions. The first has two records, and of the second an offset
before the beginning has been committed. -/
def sampleBehind : List (Move Unit Unit) :=
  [.cluster (.createTopic "t" 2), .cluster (.appendMany ⟨"t", 0⟩ 2),
    .cluster (.appendMany ⟨"t", 1⟩ 1), .cluster (.commit "g" ⟨"t", 1⟩ (-1)), .create .standard,
    .act 0 (.request (.configure ((Options.ofGroup "g").withOffsetReset "earliest"))),
    .act 0 (.request (.assign (.setOf [⟨"t", 0⟩, ⟨"t", 1⟩]))), .act 0 (.request .poll),
    .act 0 (.request (.commit (some ())))]

def sampleRounds : List (Round Unit Unit) :=
  [⟨[.advance 10000000, .act 0 .startCommit], [.act 0 .finishCommit]⟩,
    ⟨[.create .standard], [.act 1 .drop]⟩, ⟨[], [.advance 20000000]⟩]

theorem polling_drains_sample :
    (∀ r ∈ sampleRounds, r.IsAside 0) ∧
      (initial.run sampleBehind).unread 0 < sampleRounds.length ∧
      ∃ done last rest batch, sampleRounds = done ++ last :: rest ∧ batch.count = 0 ∧
        collect (fetched 0) ((initial.run sampleBehind).run (done.flatMap (·.moves 0)))
          (last.moves 0) = [batch] ∧
        ((initial.run sampleBehind).delivered 0 ⟨"t", 0⟩
          ((done ++ [last]).flatMap (·.moves 0))).length = 2 ∧
        (initial.run sampleBehind).delivered 0 ⟨"t", 1⟩
          ((done ++ [last]).flatMap (·.moves 0)) = [] := by
  obtain ⟨c, hc⟩ : ∃ c, (initial.run sampleBehind).consumer? 0 = some c := ⟨_, rfl⟩
  have hrounds : ∀ r ∈ sampleRounds, r.IsAside 0 := by decide
  have hlong : (initial.run sampleBehind).unread 0 < sampleRounds.length := by decide
  have hfirst : (initial.run sampleBehind).position? 0 ⟨"t", 0⟩ = some 0 := by decide
  have hsecond : (initial.run sampleBehind).position? 0 ⟨"t", 1⟩ = some (-1) := by decide
  have hlog : (initial.run sampleBehind).cluster.logLength ⟨"t", 0⟩ = 2 := by decide
  obtain ⟨done, last, rest, -, batch, heq, -, -, -, hempty, -, hlast, hall⟩ :=
    polling_drains sampleBehind hc (by cases hc; rfl) (by cases hc; rfl) (by cases hc; rfl)
      (by cases hc; rfl) (by cases hc; rfl) hrounds hlong
  refine ⟨hrounds, hlong, done, last, rest, batch, heq, hempty, hlast, ?_, ?_⟩
  · obtain ⟨start, _, hstart, -, hread, -⟩ := hall ⟨"t", 0⟩ (by cases hc; rfl)
    cases hfirst.symm.trans hstart
    have hlength := congrArg List.length (hread (Int.le_refl 0)).2
    rw [hlog] at hlength
    simpa using hlength
  · obtain ⟨start, _, hstart, -, -, hbefore⟩ := hall ⟨"t", 1⟩ (by cases hc; rfl)
    cases hsecond.symm.trans hstart
    exact (hbefore (by decide)).2

def sampleNegative : List (Move Unit Unit) :=
  [.cluster (.createTopic "t" 1), .cluster (.appendMany ⟨"t", 0⟩ 1),
    .cluster (.commit "g" ⟨"t", 0⟩ (-1)), .create .standard,
    .act 0 (.request (.configure (.ofGroup "g"))),
    .act 0 (.request (.assign (.setOf [⟨"t", 0⟩]))), .act 0 (.request .poll)]

/-- The next poll returns an empty batch, although the log has a record after the position. -/
theorem empty_batch_before_end :
    ∃ c batch, (initial.run sampleNegative).consumer? 0 = some c ∧ c.guard.isHeld = false ∧
      c.closed = false ∧ c.behaviour.autoHeartbeat = true ∧ c.subscription.pending = false ∧
      c.pollFaults.pending = [] ∧ c.subscription.assignment.contains ⟨"t", 0⟩ = true ∧
      (initial.run sampleNegative).position? 0 ⟨"t", 0⟩ = some (-1) ∧
      ((initial.run sampleNegative).cluster.read? ⟨"t", 0⟩ 0).isSome = true ∧
      collect (fetched 0) (initial.run sampleNegative)
          [.act 0 (.request .poll), .act 0 .proceed] = [batch] ∧
      Batch.count batch = 0 ∧
      ((initial.run sampleNegative).run [.act 0 (.request .poll), .act 0 .proceed]).position? 0
          ⟨"t", 0⟩ = some (-1) ∧
      (initial.run sampleNegative).delivered 0 ⟨"t", 0⟩
          [.act 0 (.request .poll), .act 0 .proceed] = [] :=
  ⟨_, _, rfl, rfl, rfl, rfl, rfl, rfl, rfl, rfl, rfl, rfl, rfl, rfl, rfl⟩

end World

end LogConsumer
