import LogConsumer.Proofs.Activation
import LogConsumer.Proofs.Coverage
import LogConsumer.Proofs.Ledger

/-! A partition that is handed over: one consumer reads on and commits, and another of its group, or the
same one anew, starts at the offset that was committed. Main statement: `handOver_contiguous`. -/
namespace LogConsumer

variable {ℓ κ : Type}

namespace Consumer

variable {cluster : Cluster} {now : Time} {c : Consumer ℓ κ} {a : Act ℓ κ}

/-- A partition without a position gets one by a request or by an attempt at activation only. -/
theorem get?_positions_act_of_none {p : Partition} (h : c.positions.get? p = none)
    (hseek : c.seeks p cluster now a = false)
    (hattempt : c.part? cluster now a ≠ some .activate) :
    (c.act cluster now a).positions.get? p = none := by
  cases hq : c.part? cluster now a with
  | none =>
    obtain ⟨_, _, _, _, heq, -⟩ := undergo_eq cluster now c a
    rw [act_of_part?_none hq, heq]
    exact h
  | some q =>
    rw [act_of_part? hq]
    cases q with
    | activate => exact absurd hq hattempt
    | change change =>
      rw [perform_change]
      rfl
    | expire => rfl
    | fetch =>
      rcases recordsOf_fetch cluster now c p with ⟨-, hsame⟩ | ⟨_, _, -, hsome, -⟩
      · exact hsame.trans h
      · cases h.symm.trans hsome
    | serve r =>
      cases eq_request_of_part?_eq_serve hq
      rcases get?_serve cluster now c r p with hsame | ⟨htarget, hdone, -⟩
      · exact hsame.trans h
      · simp [seeks, htarget, outcome_of_part? hq, hdone, Outcome.isSuccess] at hseek
    | _ => exact h

theorem activates_iff (hq : c.part? cluster now a = some .activate) :
    c.activates cluster now a = true ↔ (∃ policy, c.options.offsetReset = .ok policy) ∨
      ∀ p ∈ c.gaps, (cluster.committedOffset? c.options.group p).isSome = true := by
  have hgaps : (∀ p ∈ c.gaps, (cluster.committedOffset? c.options.group p).isSome = true) ↔
      ∀ p ∈ c.subscription.assignment.keys, c.positions.contains p = false →
        (cluster.committedOffset? c.options.group p).isSome = true := by
    simp [gaps, List.mem_filter]
  rw [hgaps, ← Positions.fillGaps_eq_ok_iff]
  obtain ⟨positions, result, hfill, ⟨rfl, heq⟩ | ⟨e, rfl, heq⟩⟩ := perform_activate_cases cluster now c
  all_goals simp [activates, hq, outcome_of_part? hq, heq, hfill, Part.isActivation, Outcome.isSuccess]

end Consumer

namespace World

variable {s u v w x : World ℓ κ} {id : ConsumerId} {p : Partition} {group : String} {m : Move ℓ κ}

def group? (id : ConsumerId) (w : World ℓ κ) : Option String :=
  (w.consumer? id).map (·.options.group)

/-- Whether a move is to complete an assignment of the consumer, be it in vain. -/
def attempts (id : ConsumerId) (w : World ℓ κ) (m : Move ℓ κ) : Bool :=
  (w.part? id m).any (·.isActivation)

/-- Whether a move writes a committed offset of the partition for the group: a commit that runs without
a fault, or a step of the cluster itself. -/
def writes (group : String) (p : Partition) (w : World ℓ κ) (m : Move ℓ κ) : Bool :=
  match m with
  | .cluster (.commit group' p' _) => decide (group' = group ∧ p' = p)
  | m => (w.outcome m).executed.any fun (commit, result) =>
    result.isOk && decide (commit.group = group) && commit.offsets.contains p

/-- Since the assignment of a consumer was last taken away or replaced, nobody has tried to complete the
one that followed, and the position in the partition has not been set on request. -/
def Unstarted (id : ConsumerId) (p : Partition) (w : World ℓ κ) (ms : List (Move ℓ κ)) : Prop :=
  ∃ v m rest, w.IsLast (revokes id) ms v m rest ∧
    (v.after m).Throughout (fun w m => w.seeks id p m = false ∧ w.attempts id m = false) rest

/-- In `s` a consumer completes an assignment, and until `v` it keeps it and reads on in a partition. -/
structure Reads (id : ConsumerId) (p : Partition) (activation : Move ℓ κ) (polled : List (Move ℓ κ))
    (s v : World ℓ κ) : Prop where
  activates : s.activates id activation = true
  assigned : (s.after activation).assigns id p = true
  undisturbed : (s.after activation).Throughout (Undisturbed id p) polled
  leads : v = (s.after activation).run polled

/-- In `v` a consumer of the group schedules a commit of its positions, which runs without a fault in `x`
by the move `execution`: all that waited before it have run in between. -/
structure Stores (id : ConsumerId) (group : String) (callback : Option κ)
    (inFlight : List (Move ℓ κ)) (execution : Move ℓ κ) (v x : World ℓ κ) : Prop where
  member : v.group? id = some group
  scheduled : (v.outcome (.act id (.request (.commit callback)))).isSuccess = true
  leads : x = (v.after (.act id (.request (.commit callback)))).run inFlight
  inTurn : (collect (executed id) (v.after (.act id (.request (.commit callback)))) inFlight).length =
    (v.waiting id).length
  succeeds : (x.executed id execution).map (·.2) = [.ok ()]

theorem part?_of_attempts (h : w.attempts id m = true) : w.part? id m = some .activate := by
  obtain ⟨q, hq, hactivation⟩ := (Option.any_eq_true ..).1 h
  cases q with
  | activate => exact hq
  | _ => cases hactivation

theorem position?_after_of_none (h : w.position? id p = none) (hseek : w.seeks id p m = false)
    (hattempt : w.attempts id m = false) : (w.after m).position? id p = none := by
  cases hc' : (w.after m).consumer? id with
  | none => simp [position?, hc']
  | some c' =>
    rcases consumer?_after_cases hc' with ⟨-, b, -, rfl⟩ | ⟨c, hc, ⟨a, rfl, rfl⟩ | ⟨-, rfl⟩⟩
    · simp [position?, hc', Consumer.ofBehaviour]
    · have hacted := acted?_act hc a
      have hnone : c.positions.get? p = none := by simpa [position?, hc] using h
      have hseek' : c.seeks p w.cluster w.clock a = false := by simpa [seeks, hacted] using hseek
      have hattempt' : c.part? w.cluster w.clock a ≠ some .activate := by
        intro hq
        simp [attempts, part?, hacted, hq, Part.isActivation] at hattempt
      simpa [position?, hc'] using Consumer.get?_positions_act_of_none hnone hseek' hattempt'
    · simpa [position?, hc', hc] using h

/-- An assignment that nobody has tried to complete leads to no position that was not asked for. -/
theorem Unstarted.position?_eq_none {ms : List (Move ℓ κ)} (h : w.Unstarted id p ms) :
    (w.run ms).position? id p = none := by
  obtain ⟨v, m, rest, ⟨before, rfl, rfl, hrevokes, -⟩, hrest⟩ := h
  obtain ⟨c, a, hc, rfl, hrev⟩ := any_acted?_iff.1 hrevokes
  have hstart : ((w.run before).after (.act id a)).position? id p = none := by
    simp [position?, consumer?_after_act hc, Consumer.positions_act_of_revokes hrev]
  rw [run_append, run_cons]
  exact run_induction (I := fun w => w.position? id p = none)
    (fun _ _ hnone hm => position?_after_of_none hnone hm.1 hm.2) hstart hrest

theorem committedOffset?_after (h : w.writes group p m = false) :
    (w.after m).cluster.committedOffset? group p = w.cluster.committedOffset? group p := by
  cases m with
  | create | advance | resetCounters => rfl
  | cluster step =>
    simp only [after, World.step, stepCluster]
    split
    next value cluster hrun =>
      by_cases hcommit : ∃ group' p' offset, step = .commit group' p' offset
      · obtain ⟨group', p', offset, rfl⟩ := hcommit
        cases hrun
        have hne : ¬ (group' = group ∧ p' = p) := of_decide_eq_false h
        rw [Cluster.committedOffset?_commit, if_neg fun heq => hne ⟨heq.1.symm, heq.2.symm⟩]
      · have hsame := Cluster.committed_step hrun fun group' p' offset hstep =>
          hcommit ⟨group', p', offset, hstep⟩
        rw [Cluster.committedOffset?, hsame, Cluster.committedOffset?]
    next => rfl
  | act id a =>
    cases hc : w.consumer? id with
    | none =>
      have hcluster : (w.after (.act id a)).cluster = w.cluster := by
        apply cluster_act_of_not_started
        intro _ c hc'
        cases hc.symm.trans hc'
      rw [hcluster]
    | some c =>
      have hacted : (w.acted? id (.act id a)).isSome = true := by rw [acted?_act hc]; rfl
      rcases runsOne_or id w (.act id a) with
        ⟨commit, result, -, hexecuted, -, -, heffect, -⟩ | ⟨-, -, -, hcluster⟩
      · rcases heffect with ⟨_, -, -, hcluster⟩ | ⟨-, -, rfl, -, hwrites⟩
        · rw [hcluster]
        · rw [executed, if_pos hacted] at hexecuted
          have hnot : ¬ (commit.group = group ∧ commit.offsets.contains p = true) := by
            simpa [writes, hexecuted, Except.isOk, Except.toBool] using h
          rw [hwrites]
          split
          next hgroup =>
            have hnone : commit.offsets.get? p = none := by
              by_contra hsome
              exact hnot ⟨hgroup.symm, Option.isSome_iff_ne_none.2 hsome⟩
            rw [hnone, Option.none_or]
          next => rfl
      · rw [hcluster hacted]

theorem committedOffset?_run {ms : List (Move ℓ κ)}
    (h : w.Throughout (fun w m => w.writes group p m = false) ms) :
    (w.run ms).cluster.committedOffset? group p = w.cluster.committedOffset? group p := by
  induction ms generalizing w with
  | nil => rfl
  | cons m ms ih => exact (ih h.2).trans (committedOffset?_after h.1)

theorem Reads.position?_eq_some {activation : Move ℓ κ} {polled : List (Move ℓ κ)}
    (h : Reads id p activation polled s v) :
    ∃ start, (s.after activation).position? id p = some start ∧
      v.cluster.IsRange p start ((s.after activation).delivered id p polled) ∧
      v.position? id p = some (start + ((s.after activation).delivered id p polled).length) ∧
      v.assigns id p = true := by
  obtain ⟨start, hstart, hdelivered⟩ := delivered_eq_log h.activates h.assigned
  obtain ⟨hrecords, hend, -⟩ := hdelivered polled h.undisturbed
  have hassigned : ((s.after activation).run polled).assigns id p = true :=
    run_induction (I := fun w => w.assigns id p = true) (fun _ _ hw hm => assigns_after hw hm.1)
      h.assigned h.undisturbed
  rw [← h.leads] at hrecords hend hassigned
  exact ⟨start, hstart, hrecords, hend, hassigned⟩

/-- A commit runs in its turn, with the positions of the moment it was scheduled. -/
theorem Stores.committed {callback : Option κ} {inFlight : List (Move ℓ κ)} {execution : Move ℓ κ}
    (h : Stores id group callback inFlight execution v x) {offset : Int}
    (hassigned : v.assigns id p = true) (hoffset : v.position? id p = some offset) :
    (x.after execution).cluster.committedOffset? group p = some offset := by
  obtain ⟨c, hc, hgroup⟩ := Option.map_eq_some_iff.1 h.member
  have haccepted : ∃ commit, v.accepted id (.act id (.request (.commit callback))) = [commit] ∧
      commit.group = group ∧ commit.offsets.get? p = some offset := by
    rcases acceptsOne_or id v (.act id (.request (.commit callback))) with
      ⟨c', r, commit, hc', hm, -, hone, hcaptures⟩ | ⟨-, hfail⟩
    · cases hm
      cases hc.symm.trans hc'
      obtain ⟨hgroup', -, hoffsets⟩ := hcaptures
      have hassigned' : c.subscription.assignment.contains p = true := by
        simpa [assigns, hc] using hassigned
      have hoffset' : c.positions.get? p = some offset := by simpa [position?, hc] using hoffset
      exact ⟨commit, hone, hgroup'.trans hgroup, by rw [hoffsets, if_pos hassigned', hoffset']⟩
    · cases h.scheduled.symm.trans (hfail _ rfl rfl)
  obtain ⟨commit, hone, hgroup', hoffset'⟩ := haccepted
  have hnone : v.executed id (.act id (.request (.commit callback))) = [] := by
    rcases runsOne_or id v (.act id (.request (.commit callback))) with ⟨_, _, hm, -⟩ | ⟨hnone, -⟩
    · cases hm
    · exact hnone
  -- The commits that have run since then are those that waited before it, so it is the next.
  have hledger := (ledger_after id v (.act id (.request (.commit callback)))).1
  have hledger' := (ledger_run id (v.after (.act id (.request (.commit callback)))) inFlight).1
  rw [hone, hnone, List.map_nil, List.nil_append] at hledger
  rw [← hledger, List.append_assoc, ← h.leads] at hledger'
  obtain ⟨-, hnext⟩ := List.append_inj hledger' (by rw [List.length_map, h.inTurn])
  have hsucceeds := h.succeeds
  rcases runsOne_or id x execution with
    ⟨commit', result, -, hexecuted, -, hwaiting, heffect, -⟩ | ⟨hexecuted, -⟩
  · rw [hwaiting] at hnext
    obtain ⟨rfl, -⟩ := List.cons.inj hnext
    rw [hexecuted] at hsucceeds
    rcases heffect with ⟨fault, -, rfl, -⟩ | ⟨-, -, -, -, hwrites⟩
    · cases hsucceeds
    · rw [hwrites, if_pos hgroup'.symm, hoffset', Option.some_or]
  · rw [hexecuted] at hsucceeds
    cases hsucceeds

theorem position?_of_activates (hm : w.activates id m = true) (hassigned : w.assigns id p = true)
    (hnone : w.position? id p = none) (hgroup : w.group? id = some group) {offset : Int}
    (hoffset : w.cluster.committedOffset? group p = some offset) :
    (w.after m).position? id p = some offset := by
  obtain ⟨c, a, hc, rfl, hactivates⟩ := any_acted?_iff.1 hm
  obtain ⟨positions, hfill, heq⟩ := Consumer.act_of_activates hactivates
  have hmem : p ∈ c.subscription.assignment.keys :=
    SortedMap.mem_keys_iff.2 (by simpa [assigns, hc] using hassigned)
  have hcontains := Positions.contains_fillGaps_of_ok (congrArg (·.2) hfill) hmem
  obtain ⟨start, hstart⟩ := SortedMap.contains_iff.1 hcontains
  have hnone' : c.positions.get? p = none := by simpa [position?, hc] using hnone
  have hgroup' : c.options.group = group := by simpa [group?, hc] using hgroup
  rcases Positions.startingOffset_of_fillGaps hstart with hsame | ⟨-, hstarts⟩
  · cases hnone'.symm.trans hsame
  · simp only [Positions.startingOffset, hgroup', hoffset] at hstarts
    cases hstarts
    rw [hfill] at hstart
    simp [position?, consumer?_after_act hc, heq, hstart]

/-- What one consumer has read of a partition when it schedules a commit, and what another of its
group reads after that commit, is one range of the log without gap or repetition. -/
theorem handOver_contiguous {giver taker : ConsumerId} {callback : Option κ}
    {prior polled inFlight later : List (Move ℓ κ)} {activation execution resumption : Move ℓ κ}
    (hs : s = w.run prior) (hreads : Reads giver p activation polled s v)
    (hstores : Stores giver group callback inFlight execution v x)
    (hu : u = (x.after execution).run later)
    (hwrites : (x.after execution).Throughout (fun w m => w.writes group p m = false) later)
    (hgroup : u.group? taker = some group) (hassigned : u.assigns taker p = true)
    (hunstarted : w.Unstarted taker p
      (prior ++ activation ::
        (polled ++ .act giver (.request (.commit callback)) :: (inFlight ++ execution :: later))))
    (hattempt : u.attempts taker resumption = true) :
    ∃ c, u.consumer? taker = some c ∧
      (u.activates taker resumption = true ↔
        (∃ policy, c.options.offsetReset = .ok policy) ∨
          ∀ q ∈ c.gaps, q ≠ p → (u.cluster.committedOffset? group q).isSome = true) ∧
      (u.activates taker resumption = true →
        ∃ start, (s.after activation).position? giver p = some start ∧
          ∀ ms, (u.after resumption).Throughout (Undisturbed taker p) ms →
            ((u.after resumption).run ms).cluster.IsRange p start
              ((s.after activation).delivered giver p polled ++
                (u.after resumption).delivered taker p ms)) := by
  obtain ⟨start, hstart, hgave, hreached, hassigned₀⟩ := hreads.position?_eq_some
  have hcommitted : u.cluster.committedOffset? group p =
      some (start + ((s.after activation).delivered giver p polled).length) := by
    rw [hu, committedOffset?_run hwrites]
    exact hstores.committed hassigned₀ hreached
  have hnone : u.position? taker p = none := by
    have hend : w.run (prior ++ activation :: (polled ++
        .act giver (.request (.commit callback)) :: (inFlight ++ execution :: later))) = u := by
      simp only [run_append, run_cons]
      rw [← hs, ← hreads.leads, ← hstores.leads, hu]
    exact hend ▸ hunstarted.position?_eq_none
  obtain ⟨c, a, hc, rfl, hpart⟩ := part?_eq_some_iff.1 (part?_of_attempts hattempt)
  have hgroup' : c.options.group = group := by simpa [group?, hc] using hgroup
  refine ⟨c, hc, ?_, fun hactivates => ⟨start, hstart, ?_⟩⟩
  · have hiff := Consumer.activates_iff hpart
    rw [hgroup'] at hiff
    simp only [activates, acted?_act hc a, Option.any_some, hiff]
    refine or_congr_right ⟨fun h q hq _ => h q hq, fun h q hq => ?_⟩
    by_cases hqp : q = p
    · rw [hqp, hcommitted, Option.isSome_some]
    · exact h q hq hqp
  · intro ms hms
    have hresumed := position?_of_activates hactivates hassigned hnone hgroup hcommitted
    obtain ⟨htook, -⟩ := delivered_run hresumed hms
    -- What was read first is still there, since logs only grow.
    have hextends : v.cluster.Extends ((u.after (.act taker a)).run ms).cluster := by
      have hcommit := v.extends_run (.act giver (.request (.commit callback)) :: inFlight)
      rw [run_cons, ← hstores.leads] at hcommit
      have hlater := x.extends_run (execution :: later)
      rw [run_cons, ← hu] at hlater
      exact (hcommit.trans hlater).trans (u.extends_run (.act taker a :: ms))
    exact (hgave.mono hextends).append htook

/-- Two consumers of a group. The first has been assigned a partition; the reset policy of the second is
not known. -/
def samplePrior : List (Move Unit Unit) :=
  [.cluster (.createTopic "t" 1), .cluster (.appendMany ⟨"t", 0⟩ 4), .create .standard,
    .create .standard,
    .act 0 (.request (.configure ((Options.ofGroup "g").withOffsetReset "earliest"))),
    .act 1 (.request (.configure ((Options.ofGroup "g").withOffsetReset "none"))),
    .act 0 (.request (.assign (.setOf [⟨"t", 0⟩])))]

def sampleRead : List (Move Unit Unit) :=
  [.act 0 (.request (.commit none)), .act 0 (.request .poll), .act 0 .proceed]

def sampleReadOn : List (Move Unit Unit) :=
  [.act 0 .startCommit, .act 0 .finishCommit, .act 0 (.request .poll), .act 0 .proceed]

def sampleAssign : List (Move Unit Unit) :=
  [.act 0 .finishCommit, .act 1 (.request (.assign (.setOf [⟨"t", 0⟩])))]

def sampleTake : List (Move Unit Unit) :=
  [.act 1 (.request .poll), .act 1 .proceed, .act 1 (.request .poll), .act 1 .proceed]

def sampleGroup : World Unit Unit := initial.run samplePrior

def sampleGiving : World Unit Unit := (sampleGroup.after (.act 0 (.request .poll))).run sampleRead

def sampleDue : World Unit Unit :=
  (sampleGiving.after (.act 0 (.request (.commit none)))).run sampleReadOn

def sampleTaking : World Unit Unit := (sampleDue.after (.act 0 .startCommit)).run sampleAssign

theorem handOver_contiguous_sample :
    Reads 0 ⟨"t", 0⟩ (.act 0 (.request .poll)) sampleRead sampleGroup sampleGiving ∧
      Stores 0 "g" none sampleReadOn (.act 0 .startCommit) sampleGiving sampleDue ∧
      (sampleDue.after (.act 0 .startCommit)).Throughout
        (fun w m => w.writes "g" ⟨"t", 0⟩ m = false) sampleAssign ∧
      sampleTaking.activates 1 (.act 1 (.request .poll)) = true ∧
      (sampleTaking.after (.act 1 (.request .poll))).Throughout (Undisturbed 1 ⟨"t", 0⟩) sampleTake ∧
      ((sampleGroup.after (.act 0 (.request .poll))).delivered 0 ⟨"t", 0⟩ sampleRead ++
          (sampleTaking.after (.act 1 (.request .poll))).delivered 1 ⟨"t", 0⟩ sampleTake).map some =
        [0, 1, 2].map
          (((sampleTaking.after (.act 1 (.request .poll))).run sampleTake).cluster.read? ⟨"t", 0⟩) := by
  have hreads : Reads 0 ⟨"t", 0⟩ (.act 0 (.request .poll)) sampleRead sampleGroup sampleGiving :=
    ⟨by decide, by decide, by decide, rfl⟩
  have hstores : Stores 0 "g" none sampleReadOn (.act 0 .startCommit) sampleGiving sampleDue :=
    ⟨by decide, by decide, rfl, by decide, by decide⟩
  have hwrites : (sampleDue.after (.act 0 .startCommit)).Throughout
      (fun w m => w.writes "g" ⟨"t", 0⟩ m = false) sampleAssign := by decide
  have hunstarted : initial.Unstarted 1 ⟨"t", 0⟩
      (samplePrior ++ .act 0 (.request .poll) :: (sampleRead ++
        .act 0 (.request (.commit none)) :: (sampleReadOn ++ .act 0 .startCommit :: sampleAssign))) :=
    ⟨_, .act 1 (.request (.assign (.setOf [⟨"t", 0⟩]))), [],
      ⟨samplePrior ++ .act 0 (.request .poll) :: (sampleRead ++
        .act 0 (.request (.commit none)) :: (sampleReadOn ++
          [.act 0 .startCommit, .act 0 .finishCommit])), rfl, rfl, by decide, trivial⟩, trivial⟩
  have hattempt : sampleTaking.attempts 1 (.act 1 (.request .poll)) = true := by decide
  obtain ⟨c, hc, hiff, hrange⟩ := handOver_contiguous (s := sampleGroup) (u := sampleTaking) rfl
    hreads hstores rfl hwrites (by decide) (by decide) hunstarted hattempt
  have hgaps : ∀ q ∈ c.gaps, q = ⟨"t", 0⟩ := by
    cases hc
    decide
  have hactivates : sampleTaking.activates 1 (.act 1 (.request .poll)) = true :=
    hiff.2 (.inr fun q hq hne => absurd (hgaps q hq) hne)
  have hms : (sampleTaking.after (.act 1 (.request .poll))).Throughout (Undisturbed 1 ⟨"t", 0⟩)
      sampleTake := by decide
  obtain ⟨start, hstart, hrecords⟩ := hrange hactivates
  have hzero : (sampleGroup.after (.act 0 (.request .poll))).position? 0 ⟨"t", 0⟩ = some 0 := by
    decide
  cases hstart.symm.trans hzero
  have hthree := hrecords sampleTake hms
  have hlength : ((sampleGroup.after (.act 0 (.request .poll))).delivered 0 ⟨"t", 0⟩ sampleRead ++
      (sampleTaking.after (.act 1 (.request .poll))).delivered 1 ⟨"t", 0⟩ sampleTake).length = 3 := by
    decide
  rw [Cluster.IsRange, hlength] at hthree
  exact ⟨hreads, hstores, hwrites, hactivates, hms, hthree⟩

end World

end LogConsumer
