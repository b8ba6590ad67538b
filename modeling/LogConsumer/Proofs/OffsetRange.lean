import LogConsumer.Proofs.Ledger

/-! Offsets go from positions into commits, from there to the cluster, and from there to other
consumers. As long as those that are given from outside lie within their logs, all of them do. Main
statement: `offsets_in_log`. -/
namespace LogConsumer

variable {ℓ κ : Type}

namespace Cluster

/-- The offset is that of an entry, or the one after the last. -/
def InLog (c : Cluster) (p : Partition) (offset : Int) : Prop :=
  0 ≤ offset ∧ offset ≤ c.logLength p

def AllInLog (c : Cluster) (offsets : OffsetMap) : Prop :=
  ∀ p offset, offsets.get? p = some offset → c.InLog p offset

instance (c : Cluster) (p : Partition) (offset : Int) : Decidable (c.InLog p offset) :=
  inferInstanceAs (Decidable (_ ∧ _))

variable {c c' : Cluster} {p : Partition} {offset : Int} {offsets : OffsetMap}

theorem allInLog_of_entries (h : ∀ e ∈ offsets.entries, c.InLog e.1 e.2) : c.AllInLog offsets :=
  fun p offset hp => h (p, offset) (SortedMap.get?_eq_some_iff.1 hp)

theorem Extends.logLength_le (h : c.Extends c') (p : Partition) : c.logLength p ≤ c'.logLength p := by
  unfold logLength
  cases hlog : c.log? p with
  | none => exact Nat.zero_le _
  | some log =>
    obtain ⟨log', hlog', hprefix⟩ := h p log hlog
    simpa only [hlog'] using hprefix.length_le

theorem InLog.mono (h : c.InLog p offset) (hext : c.Extends c') : c'.InLog p offset := by
  have hle := hext.logLength_le p
  exact ⟨h.1, by have := h.2; omega⟩

theorem AllInLog.mono (h : c.AllInLog offsets) (hext : c.Extends c') : c'.AllInLog offsets :=
  fun p offset hp => (h p offset hp).mono hext

theorem allInLog_empty (c : Cluster) : c.AllInLog .empty := nofun

theorem InLog.succ {r : Record} (h : c.read? p offset = some r) :
    0 ≤ offset ∧ offset < c.logLength p ∧ c.InLog p (offset + 1) := by
  obtain ⟨hpos, hlt⟩ := read?_isSome_iff.1 (Option.isSome_iff_exists.2 ⟨r, h⟩)
  exact ⟨hpos, hlt, by omega, by omega⟩

def CommittedInLog (c : Cluster) : Prop :=
  ∀ group p offset, c.committedOffset? group p = some offset → c.InLog p offset

theorem CommittedInLog.startingOffset {options : Options} (h : c.CommittedInLog)
    (hstart : Positions.startingOffset c options p = .ok offset) : c.InLog p offset := by
  unfold Positions.startingOffset at hstart
  split at hstart
  next offset' hoffset =>
    cases hstart
    exact h _ p offset hoffset
  next =>
    split at hstart <;> cases hstart
    · exact ⟨Int.le_refl 0, Int.natCast_nonneg _⟩
    · exact ⟨Int.natCast_nonneg _, Int.le_refl _⟩

theorem CommittedInLog.of_committed_eq (h : c.CommittedInLog) (hsame : c'.committed = c.committed)
    (hext : c.Extends c') : c'.CommittedInLog := by
  intro group p offset hoffset
  rw [committedOffset?, hsame] at hoffset
  exact (h group p offset hoffset).mono hext

theorem CommittedInLog.commit (h : c.CommittedInLog) (hp : c.InLog p offset) (group : String) :
    (c.commit group p offset).CommittedInLog := by
  have hext : c.Extends (c.commit group p offset) := .of_topics_eq rfl
  intro group' p' offset' hoffset
  rw [committedOffset?_commit] at hoffset
  split at hoffset
  next hsame =>
    cases hoffset
    exact hsame.2 ▸ hp.mono hext
  next => exact (h group' p' offset' hoffset).mono hext

theorem CommittedInLog.commitAll (h : c.CommittedInLog) (hoffsets : c.AllInLog offsets)
    (group : String) : (c.commitAll group offsets).CommittedInLog := by
  have hext : c.Extends (c.commitAll group offsets) := .of_topics_eq (topics_commitAll ..)
  intro group' p offset hoffset
  rw [committedOffset?_commitAll] at hoffset
  refine InLog.mono ?_ hext
  split at hoffset
  · rcases Option.or_eq_some_iff.1 hoffset with hnew | ⟨-, hold⟩
    · exact hoffsets p offset hnew
    · exact h group' p offset hold
  · exact h group' p offset hoffset

end Cluster

namespace Consumer

/-- The positions of the consumer and the offsets of its commits in flight lie within the logs. -/
structure InLog (cluster : Cluster) (c : Consumer ℓ κ) : Prop where
  positions : cluster.AllInLog c.positions
  commits : ∀ commit, commit ∈ c.commits.waiting ∨ commit ∈ c.commits.executing →
    cluster.AllInLog commit.offsets

variable {cluster cluster' : Cluster} {now : Time} {c : Consumer ℓ κ} {a : Act ℓ κ}

theorem InLog.mono (h : c.InLog cluster) (hext : cluster.Extends cluster') : c.InLog cluster' :=
  ⟨h.positions.mono hext, fun commit hmem => (h.commits commit hmem).mono hext⟩

theorem inLog_ofBehaviour (cluster : Cluster) (b : Behaviour) :
    (ofBehaviour b : Consumer ℓ κ).InLog cluster :=
  ⟨cluster.allInLog_empty, by simp [ofBehaviour]⟩

theorem positions_inLog_act (h : cluster.AllInLog c.positions) (hcommitted : cluster.CommittedInLog) :
    cluster.AllInLog (c.act cluster now a).positions := by
  cases hq : c.part? cluster now a with
  | none =>
    obtain ⟨_, _, _, _, heq, -⟩ := undergo_eq cluster now c a
    rwa [act_of_part?_none hq, heq]
  | some q =>
    rw [act_of_part? hq]
    intro p offset hoffset
    cases q with
    | change change =>
      rw [perform_change] at hoffset
      cases hoffset
    | expire => cases hoffset
    | activate =>
      rw [positions_activate] at hoffset
      rcases Positions.startingOffset_of_fillGaps hoffset with hsame | ⟨-, hstart⟩
      · exact h p offset hsame
      · exact hcommitted.startingOffset hstart
    | fetch =>
      rcases recordsOf_fetch cluster now c p with ⟨-, hsame⟩ | ⟨offset', r, -, -, hr, -, hnext⟩
      · exact h p offset (hsame.symm.trans hoffset)
      · cases hnext.symm.trans hoffset
        exact (Cluster.InLog.succ hr).2.2
    | serve r =>
      rw [perform_serve] at hoffset
      rcases get?_serve cluster now c r p with hsame | ⟨-, -, offset', hnew, hin⟩
      · exact h p offset (hsame.symm.trans hoffset)
      · cases hnew.symm.trans hoffset
        exact hin
    | _ => exact h p offset hoffset

/-- A commit in flight was so before, or has just been accepted. -/
theorem mem_commits_act {commit : Commit κ}
    (h : commit ∈ (c.act cluster now a).commits.waiting ∨
      commit ∈ (c.act cluster now a).commits.executing) :
    (commit ∈ c.commits.waiting ∨ commit ∈ c.commits.executing) ∨
      commit ∈ c.accepted cluster now a := by
  obtain ⟨hwaiting, hexecuting⟩ := commits_act cluster now c a
  have hold {x : Commit κ} (hx : x ∈ (c.outcome cluster now a).executed.map (·.1) ++
      (c.act cluster now a).commits.waiting) :
      (x ∈ c.commits.waiting ∨ x ∈ c.commits.executing) ∨ x ∈ c.accepted cluster now a := by
    rw [← hwaiting] at hx
    exact (List.mem_append.1 hx).imp_left .inl
  rcases h with h | h
  · exact hold (List.mem_append_right _ h)
  · have hmem : commit ∈ c.commits.executing.toList ++
        (c.outcome cluster now a).executed.map (·.1) := by
      rw [hexecuting]
      exact List.mem_append_right _ (Option.mem_toList.2 h)
    rcases List.mem_append.1 hmem with hmem | hmem
    · exact .inl (.inr (Option.mem_toList.1 hmem))
    · exact hold (List.mem_append_left _ hmem)

theorem offsets_inLog_of_accepted {commit : Commit κ} (h : cluster.AllInLog c.positions)
    (hgiven : ∀ offsets callback, a = .request (.commitOffsets offsets callback) →
      cluster.AllInLog offsets)
    (hmem : commit ∈ c.accepted cluster now a) : cluster.AllInLog commit.offsets := by
  rcases accepted_cases cluster now c a with ⟨r, commit', rfl, -, heq, hcaptures⟩ | ⟨hnil, -⟩
  · rw [heq] at hmem
    obtain rfl := List.mem_singleton.1 hmem
    cases r with
    | commit callback =>
      obtain ⟨-, -, hget⟩ := hcaptures
      intro p offset hoffset
      rw [hget] at hoffset
      split at hoffset
      · exact h p offset hoffset
      · cases hoffset
    | commitOffsets offsets callback =>
      obtain ⟨-, -, rfl⟩ := hcaptures
      exact hgiven _ callback rfl
    | _ => cases hcaptures
  · rw [hnil] at hmem
    cases hmem

theorem InLog.act (h : c.InLog cluster) (hcommitted : cluster.CommittedInLog)
    (hgiven : ∀ offsets callback, a = .request (.commitOffsets offsets callback) →
      cluster.AllInLog offsets) : (c.act cluster now a).InLog cluster := by
  refine ⟨positions_inLog_act h.positions hcommitted, fun commit hmem => ?_⟩
  rcases mem_commits_act hmem with hold | hnew
  · exact h.commits commit hold
  · exact offsets_inLog_of_accepted h.positions hgiven hnew

theorem position_of_returned {p : Partition} {r : Record}
    (h : r ∈ (c.outcome cluster now a).recordsOf p) :
    ∃ offset, c.positions.get? p = some offset ∧ cluster.read? p offset = some r ∧
      (c.act cluster now a).positions.get? p = some (offset + 1) := by
  cases hq : c.part? cluster now a with
  | none =>
    rcases outcome_of_part?_none hq with houtcome | ⟨_, -, -, houtcome⟩
    all_goals
      rw [houtcome] at h
      cases h
  | some q =>
    rw [outcome_of_part? hq] at h
    rw [act_of_part? hq]
    cases q with
    | change change =>
      rw [perform_change] at h
      cases h
    | activate =>
      obtain ⟨_, _, -, ⟨-, heq⟩ | ⟨_, -, heq⟩⟩ := perform_activate_cases cluster now c
      all_goals
        rw [heq] at h
        cases h
    | fetch =>
      rcases recordsOf_fetch cluster now c p with ⟨hnil, -⟩ | ⟨offset, r', -, hoffset, hr, hone, hnext⟩
      · rw [hnil] at h
        cases h
      · rw [hone] at h
        obtain rfl := List.mem_singleton.1 h
        exact ⟨offset, hoffset, hr, hnext⟩
    | serve r' =>
      rw [perform_serve] at h
      rcases serve_cases cluster now c r' with ⟨_, _, _, _, _, result, heq, hbatch⟩ | ⟨_, heq⟩
      · rw [heq, Outcome.recordsOf, hbatch] at h
        cases h
      · rw [heq] at h
        cases h
    | _ => cases h

end Consumer

def Move.supplied : Move ℓ κ → List (Partition × Int)
  | .act _ (.request (.commitOffsets offsets _)) => offsets.entries
  | .cluster (.commit _ p offset) => [(p, offset)]
  | _ => []

namespace World

def Supplies (w : World ℓ κ) (m : Move ℓ κ) : Prop := ∀ e ∈ m.supplied, w.cluster.InLog e.1 e.2

instance (w : World ℓ κ) (m : Move ℓ κ) : Decidable (w.Supplies m) :=
  inferInstanceAs (Decidable (∀ e ∈ m.supplied, w.cluster.InLog e.1 e.2))

structure OffsetsInLog (w : World ℓ κ) : Prop where
  consumers : ∀ id c, w.consumer? id = some c → c.InLog w.cluster
  committed : w.cluster.CommittedInLog

variable {w : World ℓ κ} {m : Move ℓ κ}

theorem OffsetsInLog.committed_after (h : w.OffsetsInLog) (hm : w.Supplies m) :
    (w.after m).cluster.CommittedInLog := by
  cases m with
  | act id a =>
    rcases cluster_act_cases id w a with hsame | ⟨c, e, hc, hs, hcluster⟩
    · exact hsame ▸ h.committed
    · obtain ⟨-, hwaiting, -⟩ := Commits.waiting_of_start? hs
      obtain ⟨-, -, -, ⟨_, -, -, he⟩ | ⟨-, -, -, he⟩⟩ := Commits.start?_eq_some hs
      · exact (hcluster.trans he) ▸ h.committed
      · have hmem : e.commit ∈ c.commits.waiting := hwaiting ▸ List.mem_cons_self ..
        have hoffsets := (h.consumers id c hc).commits e.commit (.inl hmem)
        exact (hcluster.trans he) ▸ h.committed.commitAll hoffsets e.commit.group
  | cluster step =>
    simp only [World.after, World.step, stepCluster]
    split
    next value cluster hrun =>
      by_cases hcommit : ∃ group p offset, step = .commit group p offset
      · obtain ⟨group, p, offset, rfl⟩ := hcommit
        cases hrun
        exact h.committed.commit (hm (p, offset) (List.mem_singleton.2 rfl)) group
      · refine h.committed.of_committed_eq (Cluster.committed_step hrun ?_) (Cluster.extends_step hrun)
        rintro group p offset rfl
        exact hcommit ⟨group, p, offset, rfl⟩
    next => exact h.committed
  | _ => exact h.committed

theorem OffsetsInLog.after (h : w.OffsetsInLog) (hm : w.Supplies m) : (w.after m).OffsetsInLog := by
  refine ⟨fun id c' hc' => ?_, h.committed_after hm⟩
  refine Consumer.InLog.mono ?_ (w.extends_after m)
  rcases consumer?_after_cases hc' with ⟨-, b, -, rfl⟩ | ⟨c, hc, ⟨a, rfl, rfl⟩ | ⟨-, rfl⟩⟩
  · exact Consumer.inLog_ofBehaviour _ b
  · refine (h.consumers id c hc).act h.committed ?_
    rintro offsets callback rfl
    exact Cluster.allInLog_of_entries hm
  · exact h.consumers id c' hc

theorem offsetsInLog_run {ms : List (Move ℓ κ)}
    (hms : (initial : World ℓ κ).Throughout Supplies ms) : (initial.run ms).OffsetsInLog := by
  have hinitial : (initial : World ℓ κ).OffsetsInLog :=
    ⟨by simp [initial, consumer?], fun _ _ _ => nofun⟩
  exact run_induction (fun _ _ => OffsetsInLog.after) hinitial hms

theorem OffsetsInLog.position {id : ConsumerId} {p : Partition} {offset : Int} (h : w.OffsetsInLog)
    (hoffset : w.position? id p = some offset) : w.cluster.InLog p offset := by
  obtain ⟨c, hc, hoffset⟩ := Option.bind_eq_some_iff.1 hoffset
  exact (h.consumers id c hc).positions p offset hoffset

/-- If all offsets that are given from outside lie within their logs, so do all positions, the
offsets of all commits in flight and all that is committed. -/
theorem offsets_in_log {ms : List (Move ℓ κ)} (hms : (initial : World ℓ κ).Throughout Supplies ms) :
    (initial.run ms).OffsetsInLog ∧
      (∀ id p offset, (initial.run ms).position? id p = some offset →
        offset < (initial.run ms).cluster.logLength p →
          ((initial.run ms).cluster.read? p offset).isSome = true) ∧
      ∀ id p m r, r ∈ (initial.run ms).returned id p m →
        ∃ offset, (initial.run ms).position? id p = some offset ∧
          offset < (initial.run ms).cluster.logLength p ∧
          ((initial.run ms).after m).position? id p = some (offset + 1) ∧
          ((initial.run ms).cluster.logLength p ≤ Int64.maxValue.toInt →
            Int64.minValue.toInt ≤ offset + 1 ∧ offset + 1 ≤ Int64.maxValue.toInt) := by
  have hw := offsetsInLog_run hms
  generalize (initial : World ℓ κ).run ms = w at hw
  refine ⟨hw, fun id p offset hoffset hlt => ?_, fun id p m r hr => ?_⟩
  · exact Cluster.read?_isSome_iff.2 ⟨(hw.position hoffset).1, hlt⟩
  · unfold returned at hr
    split at hr
    next hacted =>
      obtain ⟨⟨c, a⟩, hacted⟩ := Option.isSome_iff_exists.1 hacted
      obtain ⟨hc, rfl⟩ := acted?_eq_some_iff.1 hacted
      rw [outcome_act hc] at hr
      obtain ⟨offset, hoffset, hread, hnext⟩ := Consumer.position_of_returned hr
      obtain ⟨hpos, hlt, -⟩ := Cluster.InLog.succ hread
      refine ⟨offset, by rw [position?, hc]; exact hoffset, hlt, ?_, fun hmax => ?_⟩
      · rw [position?, consumer?_after_act hc]
        exact hnext
      · have hmin : Int64.minValue.toInt ≤ 0 := by decide
        exact ⟨by omega, by omega⟩
    next => cases hr

/-- The first consumer reads a record and commits its position, the second one offsets that are
given; the cluster is given one for another group. -/
def sampleCommits : List (Move Unit Unit) :=
  [.cluster (.createTopic "t" 1), .cluster (.appendMany ⟨"t", 0⟩ 3), .create .standard,
    .create .standard, .cluster (.commit "g" ⟨"t", 0⟩ 1),
    .act 0 (.request (.configure (.ofGroup "g"))), .act 0 (.request (.assign (.setOf [⟨"t", 0⟩]))),
    .act 0 (.request .poll), .act 0 (.request .poll), .act 0 .proceed, .act 0 (.request (.commit none)),
    .act 1 (.request (.commitOffsets (.ofList [(⟨"t", 0⟩, 3)]) none)), .act 0 .startCommit,
    .act 0 .finishCommit, .act 1 .startCommit]

theorem offsets_in_log_sample :
    (initial : World Unit Unit).Throughout Supplies sampleCommits ∧
      (initial.run sampleCommits).position? 0 ⟨"t", 0⟩ = some 2 ∧
      (initial.run sampleCommits).cluster.committedOffset? "g" ⟨"t", 0⟩ = some 2 ∧
      (initial.run sampleCommits).cluster.committedOffset? "" ⟨"t", 0⟩ = some 3 ∧
      ((initial.run sampleCommits).cluster.read? ⟨"t", 0⟩ 2).isSome = true ∧
      (initial.run sampleCommits).cluster.InLog ⟨"t", 0⟩ 3 := by
  have hms : (initial : World Unit Unit).Throughout Supplies sampleCommits := by decide
  have hposition : (initial.run sampleCommits).position? 0 ⟨"t", 0⟩ = some 2 := by decide
  have hcommitted : (initial.run sampleCommits).cluster.committedOffset? "" ⟨"t", 0⟩ = some 3 := by
    decide
  obtain ⟨hin, hread, -⟩ := offsets_in_log hms
  exact ⟨hms, hposition, by decide, hcommitted, hread 0 _ 2 hposition (by decide),
    hin.committed _ _ _ hcommitted⟩

end World

end LogConsumer
