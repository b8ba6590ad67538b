import LogConsumer.Proofs.Events

/-! The ledger of asynchronous commits: those that were accepted, those that have run, and those
whose callback is over. Main statement: `commits_run_once`. -/
namespace LogConsumer

variable {ℓ κ : Type}

def Outcome.executed : Outcome ℓ κ → List (Commit κ × Except Failure Unit)
  | committed commit result => [(commit, result)]
  | _ => []

def Outcome.called : Outcome ℓ κ → List (κ × OffsetMap × Except Failure Unit)
  | committed commit result => commit.callback.toList.map (·, commit.offsets, result)
  | _ => []

def Request.offered? (c : Consumer ℓ κ) : Request ℓ κ → Option (OffsetMap × Option κ)
  | .commit callback => some (c.positions.snapshot c.subscription.assignment.keys, callback)
  | .commitOffsets offsets callback => some (offsets, callback)
  | _ => none

def Request.isCommit : Request ℓ κ → Bool
  | .commit _ | .commitOffsets .. => true
  | _ => false

theorem Request.isSome_offered? (c : Consumer ℓ κ) (r : Request ℓ κ) :
    (r.offered? c).isSome = r.isCommit := by cases r <;> rfl

namespace Consumer

/-- The commit that an act has accepted, with all that it holds on to. -/
def accepted (cluster : Cluster) (now : Time) (c : Consumer ℓ κ) : Act ℓ κ → List (Commit κ)
  | .request r =>
    if (c.outcome cluster now (.request r)).isSuccess then
      ((r.offered? c).map fun (offsets, callback) =>
        ⟨c.options.group, offsets, callback⟩).toList
    else []
  | _ => []

/-- The commit whose callback is over with an act. -/
def finished (c : Consumer ℓ κ) : Act ℓ κ → List (Commit κ)
  | .finishCommit => c.commits.executing.toList
  | _ => []

variable {cluster : Cluster} {now : Time} {c : Consumer ℓ κ} {a : Act ℓ κ}

theorem commits_perform {q : Part ℓ κ} (h : ∀ r, q ≠ .serve r) :
    (c.perform cluster now q).consumer.commits = c.commits := by
  cases q with
  | change change => rw [perform_change]
  | activate =>
    obtain ⟨_, _, -, ⟨-, heq⟩ | ⟨_, -, heq⟩⟩ := perform_activate_cases cluster now c
    all_goals rw [heq]
  | fetch =>
    rcases perform_fetch_cases cluster now c with ⟨_, _, -, heq⟩ | ⟨_, _, -, -, heq⟩
    all_goals rw [heq]
  | serve r => exact absurd rfl (h r)
  | _ => rfl

theorem accepted_eq_nil {q : Part ℓ κ} (hq : c.part? cluster now a = some q)
    (h : ∀ r, q ≠ .serve r) : c.accepted cluster now a = [] := by
  cases carries_of_part? hq with
  | refused | toldOfChange =>
    simp [accepted, outcome_of_part? hq, perform, Outcome.isSuccess]
  | @changed r _ _ hr =>
    have hnone : r.offered? c = none := by cases r <;> first | rfl | cases hr
    simp [accepted, hnone]
  | @served r => exact absurd rfl (h r)
  | _ => simp [accepted, Request.offered?]

theorem commits_serve_of_not_offered (cluster : Cluster) (now : Time) {r : Request ℓ κ}
    (h : r.offered? c = none) :
    (c.serve cluster now r).consumer.commits = c.commits ∨
      (∃ timeout, r = .close timeout) ∧
        (c.serve cluster now r).consumer.commits = c.commits.stop := by
  cases r with
  | commit | commitOffsets => cases h
  | configure options =>
    left
    simp only [serve, begin]
    split
    next c' h =>
      obtain ⟨timeout, rfl⟩ := configure_eq_ok h
      rfl
    next => rfl
  | seek p offset =>
    left
    simp only [serve, begin]
    split <;> rfl
  | close timeout => exact .inr ⟨⟨timeout, rfl⟩, rfl⟩
  | _ => exact .inl rfl

theorem serve_of_offered {r : Request ℓ κ} {offsets : OffsetMap} {callback : Option κ}
    (h : r.offered? c = some (offsets, callback)) :
    c.serve cluster now r = c.schedule now offsets callback := by
  cases r with
  | commit | commitOffsets => cases h; rfl
  | _ => cases h

/-- Serving a request leaves the commits alone, lets no more be scheduled, or schedules one. -/
theorem commits_serve_cases (cluster : Cluster) (now : Time) (c : Consumer ℓ κ) (r : Request ℓ κ) :
    (c.serve cluster now r).consumer.commits = c.commits ∨
      (∃ timeout, r = .close timeout) ∧
        (c.serve cluster now r).consumer.commits = c.commits.stop ∨
      ∃ offsets callback, c.commits.schedule now c.options.group offsets callback =
        .ok (c.serve cluster now r).consumer.commits := by
  cases hoffered : r.offered? c with
  | none => exact (commits_serve_of_not_offered cluster now hoffered).imp_right .inl
  | some offered =>
    obtain ⟨offsets, callback⟩ := offered
    rw [serve_of_offered hoffered, schedule]
    cases hschedule : c.commits.schedule now c.options.group offsets callback with
    | ok q => exact .inr (.inr ⟨offsets, callback, hschedule⟩)
    | error => exact .inl rfl

theorem commits_serve {r : Request ℓ κ} (hq : c.part? cluster now (.request r) = some (.serve r)) :
    (c.serve cluster now r).consumer.commits.waiting =
        c.commits.waiting ++ c.accepted cluster now (.request r) ∧
      (c.serve cluster now r).consumer.commits.executing = c.commits.executing := by
  cases hoffered : r.offered? c with
  | none =>
    have haccepted : c.accepted cluster now (.request r) = [] := by simp [accepted, hoffered]
    rcases commits_serve_of_not_offered cluster now hoffered with h | ⟨-, h⟩
    all_goals
      rw [h, haccepted]
      exact ⟨(List.append_nil _).symm, rfl⟩
  | some offered =>
    obtain ⟨offsets, callback⟩ := offered
    simp only [accepted, outcome_of_part? hq, perform_serve, hoffered, serve_of_offered hoffered,
      schedule, Commits.schedule]
    by_cases haccepting : c.commits.accepting
    · simp [haccepting, answer, Outcome.isSuccess]
    · simp [haccepting, answer, Outcome.isSuccess]

theorem outcome_startCommit {e : Execution κ} (hs : c.commits.start? cluster = some e) :
    c.outcome cluster now .startCommit = .committed e.commit e.result := by
  simp [outcome, part?, hs]

theorem act_startCommit {e : Execution κ} (hs : c.commits.start? cluster = some e) :
    c.act cluster now .startCommit = { c with commits := e.commits } := by
  simp [act, part?, undergo, hs]

theorem executed_outcome (h : a = .startCommit → c.commits.start? cluster = none) :
    (c.outcome cluster now a).executed = [] ∧ (c.outcome cluster now a).called = [] := by
  cases hq : c.part? cluster now a with
  | none =>
    rcases outcome_of_part?_none hq with houtcome | ⟨e, ha, hs, -⟩
    · rw [houtcome]
      exact ⟨rfl, rfl⟩
    · cases (h ha).symm.trans hs
  | some q =>
    rw [outcome_of_part? hq]
    exact ⟨rfl, rfl⟩

/-- What an act accepts waits until it runs, and what runs is executing until it is finished. -/
theorem commits_act (cluster : Cluster) (now : Time) (c : Consumer ℓ κ) (a : Act ℓ κ) :
    c.commits.waiting ++ c.accepted cluster now a =
        (c.outcome cluster now a).executed.map (·.1) ++ (c.act cluster now a).commits.waiting ∧
      c.commits.executing.toList ++ (c.outcome cluster now a).executed.map (·.1) =
        c.finished a ++ (c.act cluster now a).commits.executing.toList := by
  cases hq : c.part? cluster now a with
  | none =>
    rw [act_of_part?_none hq]
    cases a with
    | request r => cases hq
    | startCommit =>
      cases hs : c.commits.start? cluster with
      | none => simp [(executed_outcome fun _ => hs).1, undergo, hs, accepted, finished]
      | some e =>
        obtain ⟨hexecuting, hwaiting, hrunning⟩ := Commits.waiting_of_start? hs
        simp [outcome_startCommit hs, Outcome.executed, undergo, hs, hexecuting, hwaiting, hrunning,
          accepted, finished]
    | finishCommit => simp [outcome, hq, undergo, Outcome.executed, accepted, finished]
    | addFault kind =>
      cases kind <;> simp only [outcome, hq, undergo, Outcome.executed, accepted, finished] <;>
        exact ⟨List.append_nil _, List.append_nil _⟩
    | proceed => simp [outcome, hq, undergo, Outcome.executed, accepted, finished]
    | abandon =>
      simp only [outcome, hq, undergo, Outcome.executed, accepted, finished]
      split <;> simp [abandon]
    | drop =>
      simp only [outcome, hq, undergo, Outcome.executed, accepted, finished]
      split <;> simp [release]
  | some q =>
    have hexecuted : (c.outcome cluster now a).executed = [] := by
      rw [outcome_of_part? hq]
      rfl
    have hfinished : c.finished a = [] := by cases a <;> first | rfl | cases hq
    rw [act_of_part? hq, hexecuted, hfinished]
    by_cases hserve : ∃ r, q = .serve r
    · obtain ⟨r, rfl⟩ := hserve
      cases eq_request_of_part?_eq_serve hq
      obtain ⟨hwaiting, hexecuting⟩ := commits_serve hq
      simp [hwaiting, hexecuting]
    · have hne : ∀ r, q ≠ .serve r := fun r h => hserve ⟨r, h⟩
      simp [accepted_eq_nil hq hne, commits_perform hne]

end Consumer

namespace Commit

/-- What a commit holds on to of the moment it is scheduled: the group, and the positions of the
assigned partitions or the offsets that were given. -/
def Captures (commit : Commit κ) (c : Consumer ℓ κ) : Request ℓ κ → Prop
  | .commit callback =>
    commit.group = c.options.group ∧ commit.callback = callback ∧
      ∀ p, commit.offsets.get? p =
        if c.subscription.assignment.contains p then c.positions.get? p else none
  | .commitOffsets offsets callback =>
    commit.group = c.options.group ∧ commit.callback = callback ∧ commit.offsets = offsets
  | _ => False

/-- What a commit that runs does: it surfaces the next fault and writes nothing, or if there is none
writes its offsets and nothing else. -/
def Effect (commit : Commit κ) (result : Except Failure Unit) (faults faults' : List Fault)
    (cluster cluster' : Cluster) : Prop :=
  (∃ fault, faults = fault :: faults' ∧ result = .error (.injected fault) ∧ cluster' = cluster) ∨
    (faults = [] ∧ faults' = [] ∧ result = .ok () ∧ cluster'.topics = cluster.topics ∧
      ∀ group p, cluster'.committedOffset? group p =
        if group = commit.group then (commit.offsets.get? p).or (cluster.committedOffset? group p)
        else cluster.committedOffset? group p)

end Commit

namespace Consumer

variable {cluster : Cluster} {now : Time} {c : Consumer ℓ κ}

theorem accepted_cases (cluster : Cluster) (now : Time) (c : Consumer ℓ κ) (a : Act ℓ κ) :
    (∃ r commit, a = .request r ∧ (c.outcome cluster now a).isSuccess = true ∧
        c.accepted cluster now a = [commit] ∧ commit.Captures c r) ∨
      (c.accepted cluster now a = [] ∧
        ∀ r, a = .request r → (r.offered? c).isSome = true →
          (c.outcome cluster now a).isSuccess = false) := by
  cases a with
  | request r =>
    cases hsuccess : (c.outcome cluster now (.request r)).isSuccess with
    | false => exact .inr ⟨by simp [accepted, hsuccess], fun _ _ _ => rfl⟩
    | true =>
      cases r with
      | commit callback =>
        refine .inl ⟨_, _, rfl, rfl, by simp only [accepted, hsuccess]; rfl, rfl, rfl, fun p => ?_⟩
        simp only [Positions.get?_snapshot, SortedMap.mem_keys_iff]
      | commitOffsets offsets callback =>
        exact .inl ⟨_, _, rfl, rfl, by simp only [accepted, hsuccess]; rfl, rfl, rfl, rfl⟩
      | _ =>
        right
        refine ⟨by simp [accepted, Request.offered?], ?_⟩
        rintro _ ⟨⟩ h
        cases h
  | _ => exact .inr ⟨rfl, fun _ h => by cases h⟩

theorem effect_of_start? {e : Execution κ} (h : c.commits.start? cluster = some e) :
    e.commit.Effect e.result c.commits.faults.pending e.commits.faults.pending cluster e.cluster := by
  obtain ⟨-, -, -, ⟨fault, hpop, hresult, hcluster⟩ | ⟨hpop, hfaults, hresult, hcluster⟩⟩ :=
    Commits.start?_eq_some h
  · exact .inl ⟨fault, FaultQueue.pop?_eq_some_iff.1 hpop, hresult, hcluster⟩
  · have hnone := FaultQueue.pop?_eq_none_iff.1 hpop
    refine .inr ⟨hnone, hfaults ▸ hnone, hresult, hcluster ▸ Cluster.topics_commitAll .., ?_⟩
    intro group p
    rw [hcluster, Cluster.committedOffset?_commitAll]

end Consumer

namespace World

variable {id : ConsumerId}

def waiting (id : ConsumerId) (w : World ℓ κ) : List (Commit κ) :=
  ((w.consumer? id).map (·.commits.waiting)).getD []

def executing (id : ConsumerId) (w : World ℓ κ) : Option (Commit κ) :=
  (w.consumer? id).bind (·.commits.executing)

def commitFaults (id : ConsumerId) (w : World ℓ κ) : List Fault :=
  ((w.consumer? id).map (·.commits.faults.pending)).getD []

def accepted (id : ConsumerId) (w : World ℓ κ) (m : Move ℓ κ) : List (Commit κ) :=
  match w.acted? id m with
  | some (c, a) => c.accepted w.cluster w.clock a
  | none => []

def executed (id : ConsumerId) (w : World ℓ κ) (m : Move ℓ κ) :
    List (Commit κ × Except Failure Unit) :=
  if (w.acted? id m).isSome then (w.outcome m).executed else []

def called (id : ConsumerId) (w : World ℓ κ) (m : Move ℓ κ) :
    List (κ × OffsetMap × Except Failure Unit) :=
  if (w.acted? id m).isSome then (w.outcome m).called else []

def finished (id : ConsumerId) (w : World ℓ κ) (m : Move ℓ κ) : List (Commit κ) :=
  match w.acted? id m with
  | some (c, a) => c.finished a
  | none => []

theorem ledger_after (id : ConsumerId) (w : World ℓ κ) (m : Move ℓ κ) :
    w.waiting id ++ w.accepted id m = (w.executed id m).map (·.1) ++ (w.after m).waiting id ∧
      (w.executing id).toList ++ (w.executed id m).map (·.1) =
        w.finished id m ++ ((w.after m).executing id).toList := by
  cases hc : w.consumer? id with
  | none =>
    have hacted : w.acted? id m = none := by simp [acted?, hc]
    have hafter : (w.after m).waiting id = [] ∧ (w.after m).executing id = none := by
      cases hc' : (w.after m).consumer? id with
      | none => simp [waiting, executing, hc']
      | some c' =>
        rcases consumer?_after_cases hc' with ⟨-, b, -, rfl⟩ | ⟨c, h, -⟩
        · simp [waiting, executing, hc', Consumer.ofBehaviour]
        · cases hc.symm.trans h
    have hbefore : w.waiting id = [] ∧ w.executing id = none := by simp [waiting, executing, hc]
    simp [accepted, executed, finished, hacted, hafter, hbefore]
  | some c =>
    rcases acted?_cases hc m with ⟨a, rfl, hacted, hafter⟩ | ⟨hacted, hafter⟩
    · have h := c.commits_act w.cluster w.clock a
      simpa [accepted, executed, finished, hacted, outcome_act hc, waiting, executing, hc, hafter]
        using h
    · simp [accepted, executed, finished, hacted, waiting, executing, hc, hafter]

/-- The ledger of a run. -/
theorem ledger_run (id : ConsumerId) (w : World ℓ κ) (ms : List (Move ℓ κ)) :
    w.waiting id ++ collect (accepted id) w ms =
        (collect (executed id) w ms).map (·.1) ++ (w.run ms).waiting id ∧
      (w.executing id).toList ++ (collect (executed id) w ms).map (·.1) =
        collect (finished id) w ms ++ ((w.run ms).executing id).toList := by
  induction ms generalizing w with
  | nil => simp
  | cons m ms ih =>
    obtain ⟨hwaiting, hexecuting⟩ := ledger_after id w m
    obtain ⟨hrest, hrest'⟩ := ih (w.after m)
    simp only [collect_cons, List.map_append, run_cons]
    refine ⟨?_, ?_⟩
    · rw [← List.append_assoc, hwaiting, List.append_assoc, hrest, List.append_assoc]
    · rw [← List.append_assoc, hexecuting, List.append_assoc, hrest', List.append_assoc]

def AcceptsOne (id : ConsumerId) (w : World ℓ κ) (m : Move ℓ κ) : Prop :=
  ∃ c r commit, w.consumer? id = some c ∧ m = .act id (.request r) ∧
    (w.outcome m).isSuccess = true ∧ w.accepted id m = [commit] ∧ commit.Captures c r

def RunsOne (id : ConsumerId) (w : World ℓ κ) (m : Move ℓ κ) : Prop :=
  ∃ commit result, m = .act id .startCommit ∧ w.executed id m = [(commit, result)] ∧
    w.executing id = none ∧ w.waiting id = commit :: (w.after m).waiting id ∧
    commit.Effect result (w.commitFaults id) ((w.after m).commitFaults id) w.cluster
      (w.after m).cluster ∧
    (w.after m).executing id = some commit ∧
    w.called id m = commit.callback.toList.map (·, commit.offsets, result)

theorem acceptsOne_or (id : ConsumerId) (w : World ℓ κ) (m : Move ℓ κ) :
    w.AcceptsOne id m ∨
      (w.accepted id m = [] ∧
        ∀ r, m = .act id (.request r) → r.isCommit = true → (w.outcome m).isSuccess = false) := by
  cases hc : w.consumer? id with
  | none =>
    right
    refine ⟨by simp [accepted, acted?, hc], ?_⟩
    rintro r rfl -
    simp [outcome, step, act, World.request, takeTurn, hc, Outcome.isSuccess]
  | some c =>
    rcases acted?_cases hc m with ⟨a, rfl, hacted, -⟩ | ⟨hacted, -⟩
    · have haccepted : w.accepted id (.act id a) = c.accepted w.cluster w.clock a := by
        simp [accepted, hacted]
      rw [AcceptsOne, haccepted, outcome_act hc]
      rcases c.accepted_cases w.cluster w.clock a with
        ⟨r, commit, rfl, hsuccess, hone, hcaptures⟩ | ⟨hnone, hfail⟩
      · exact .inl ⟨c, r, commit, hc, rfl, hsuccess, hone, hcaptures⟩
      · refine .inr ⟨hnone, ?_⟩
        rintro r ⟨⟩ hr
        exact hfail r rfl (by rwa [Request.isSome_offered?])
    · right
      refine ⟨by simp [accepted, hacted], ?_⟩
      rintro r rfl -
      cases hacted.symm.trans (acted?_act hc _)

/-- A commit runs if it is the first that waits and no callback is running; nothing else a consumer
does changes the cluster. -/
theorem runsOne_or (id : ConsumerId) (w : World ℓ κ) (m : Move ℓ κ) :
    w.RunsOne id m ∨
      (w.executed id m = [] ∧ w.called id m = [] ∧
        (m = .act id .startCommit → w.executing id = none → w.waiting id = []) ∧
        ((w.acted? id m).isSome → (w.after m).cluster = w.cluster)) := by
  cases hc : w.consumer? id with
  | none => exact .inr (by simp [executed, called, acted?, waiting, hc])
  | some c =>
    rcases acted?_cases hc m with ⟨a, rfl, hacted, hafter⟩ | ⟨hacted, -⟩
    · by_cases hstarted : ∃ e, a = .startCommit ∧ c.commits.start? w.cluster = some e
      · left
        obtain ⟨e, rfl, hs⟩ := hstarted
        obtain ⟨hexecuting, hwaiting, hrunning⟩ := Commits.waiting_of_start? hs
        rw [Consumer.act_startCommit hs] at hafter
        have hcluster : (w.after (.act id .startCommit)).cluster = e.cluster :=
          cluster_startCommit hc hs
        have houtcome : c.outcome w.cluster w.clock .startCommit = .committed e.commit e.result :=
          Consumer.outcome_startCommit hs
        refine ⟨e.commit, e.result, rfl, ?_, ?_, ?_, ?_, ?_, ?_⟩
        · simp [executed, hacted, outcome_act hc, houtcome, Outcome.executed]
        · simpa [executing, hc] using hexecuting
        · simpa [waiting, hc, hafter] using hwaiting
        · simpa [commitFaults, hc, hafter, hcluster] using Consumer.effect_of_start? hs
        · simpa [executing, hafter] using hrunning
        · simp [called, hacted, outcome_act hc, houtcome, Outcome.called]
      · right
        have hnone : a = .startCommit → c.commits.start? w.cluster = none := by
          intro ha
          apply Option.eq_none_iff_forall_ne_some.2
          intro e hs
          exact hstarted ⟨e, ha, hs⟩
        obtain ⟨hexecuted, hcalled⟩ : (c.outcome w.cluster w.clock a).executed = [] ∧
            (c.outcome w.cluster w.clock a).called = [] := Consumer.executed_outcome hnone
        refine ⟨?_, ?_, ?_, fun _ => ?_⟩
        · simp [executed, hacted, outcome_act hc, hexecuted]
        · simp [called, hacted, outcome_act hc, hcalled]
        · intro ha hexecuting
          cases ha
          have hidle : c.commits.executing = none := by simpa [executing, hc] using hexecuting
          have hwaiting := Commits.start?_eq_none_iff.1 (hnone rfl)
          simpa [waiting, hc, hidle] using hwaiting
        · apply cluster_act_of_not_started
          intro ha c' hc'
          cases hc.symm.trans hc'
          exact hnone ha
    · right
      refine ⟨by simp [executed, hacted], by simp [called, hacted], ?_, by simp [hacted]⟩
      rintro rfl
      cases hacted.symm.trans (acted?_act hc _)

theorem inFlight_eq (id : ConsumerId) (w : World ℓ κ) :
    w.inFlight id = (w.waiting id).length + (w.executing id).toList.length := by
  unfold inFlight waiting executing
  cases w.consumer? id <;> rfl

theorem inFlight_run (id : ConsumerId) (w : World ℓ κ) (ms : List (Move ℓ κ)) :
    (w.run ms).inFlight id + (collect (finished id) w ms).length =
      w.inFlight id + (collect (accepted id) w ms).length := by
  obtain ⟨haccepted, hexecuted⟩ := ledger_run id w ms
  have hlength := congrArg List.length haccepted
  have hlength' := congrArg List.length hexecuted
  simp only [List.length_append] at hlength hlength'
  rw [inFlight_eq, inFlight_eq]
  omega

/-- Every commit that was accepted is in flight or has run exactly once, in the order of acceptance
and with what it held on to when it was scheduled. -/
theorem commits_run_once (id : ConsumerId) (ms : List (Move ℓ κ)) :
    collect (accepted id) initial ms =
        (collect (executed id) initial ms).map (·.1) ++ (initial.run ms).waiting id ∧
      (collect (executed id) initial ms).map (·.1) =
        collect (finished id) initial ms ++ ((initial.run ms).executing id).toList ∧
      (initial.run ms).inFlight id + (collect (finished id) initial ms).length =
        (collect (accepted id) initial ms).length ∧
      ∀ m,
        ((initial.run ms).AcceptsOne id m ∨
          ((initial.run ms).accepted id m = [] ∧
            ∀ r, m = .act id (.request r) → r.isCommit = true →
              ((initial.run ms).outcome m).isSuccess = false)) ∧
        ((initial.run ms).RunsOne id m ∨
          ((initial.run ms).executed id m = [] ∧ (initial.run ms).called id m = [] ∧
            (m = .act id .startCommit → (initial.run ms).executing id = none →
              (initial.run ms).waiting id = []) ∧
            (((initial.run ms).acted? id m).isSome →
              ((initial.run ms).after m).cluster = (initial.run ms).cluster))) := by
  obtain ⟨haccepted, hexecuted⟩ := ledger_run id initial ms
  have hwaiting : (initial : World ℓ κ).waiting id = [] := rfl
  have hexecuting : (initial : World ℓ κ).executing id = none := rfl
  rw [hwaiting, List.nil_append] at haccepted
  rw [hexecuting, Option.toList_none, List.nil_append] at hexecuted
  refine ⟨haccepted, hexecuted, ?_, fun m => ⟨acceptsOne_or .., runsOne_or ..⟩⟩
  have hlength := congrArg List.length haccepted
  have hlength' := congrArg List.length hexecuted
  simp only [List.length_append] at hlength hlength'
  rw [inFlight_eq]
  omega

end World

end LogConsumer
