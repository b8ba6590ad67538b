import LogConsumer.Proofs.HandOver

/-! Commits as if they were made one after the other. Each has the outcome that the queue of faults
gives it when it runs, and what is committed in the end is what the last of them to write has captured.
Main statement: `commits_replay_in_order`. -/
namespace LogConsumer

variable {ℓ κ : Type}

def Act.commitFaults : Act ℓ κ → List Fault
  | .addFault .commit fault count => List.replicate count fault
  | _ => []

namespace Commit

def call (e : Commit κ × Except Failure Unit) : List (κ × OffsetMap × Except Failure Unit) :=
  e.1.callback.toList.map (·, e.1.offsets, e.2)

def fault? (e : Commit κ × Except Failure Unit) : Option Fault :=
  match e.2 with
  | .error (.injected fault) => some fault
  | _ => none

def stores (group : String) (p : Partition) (e : Commit κ × Except Failure Unit) : Bool :=
  e.2.isOk && decide (e.1.group = group) && e.1.offsets.contains p

/-- What is committed of the partition for the group when commits have run, of which the last to write
it counts. -/
def lastStored (group : String) (p : Partition) (runs : List (Commit κ × Except Failure Unit))
    (start : Option Int) : Option Int :=
  match (runs.filter (stores group p)).getLast? with
  | some e => e.1.offsets.get? p
  | none => start

variable {group : String} {p : Partition} {runs runs' : List (Commit κ × Except Failure Unit)}
  {start : Option Int}

@[simp] theorem lastStored_nil :
    lastStored group p ([] : List (Commit κ × Except Failure Unit)) start = start := rfl

theorem lastStored_append :
    lastStored group p (runs ++ runs') start =
      lastStored group p runs' (lastStored group p runs start) := by
  unfold lastStored
  rw [List.filter_append, List.getLast?_append]
  cases (runs'.filter (stores group p)).getLast? <;> rfl

theorem lastStored_singleton (e : Commit κ × Except Failure Unit) :
    lastStored group p [e] start = if stores group p e then e.1.offsets.get? p else start := by
  unfold lastStored
  cases h : stores group p e <;> simp [h]

theorem Effect.committedOffset? {commit : Commit κ} {result : Except Failure Unit}
    {faults faults' : List Fault} {cluster cluster' : Cluster}
    (h : commit.Effect result faults faults' cluster cluster') (group : String) (p : Partition) :
    cluster'.committedOffset? group p =
      lastStored group p [(commit, result)] (cluster.committedOffset? group p) := by
  rw [lastStored_singleton]
  rcases h with ⟨fault, -, rfl, rfl⟩ | ⟨-, -, rfl, -, hwrites⟩
  · rfl
  · rw [hwrites]
    by_cases hgroup : group = commit.group
    · subst hgroup
      cases hget : commit.offsets.get? p <;>
        simp [stores, hget, SortedMap.contains, Except.isOk, Except.toBool]
    · simp [stores, hgroup, Ne.symm hgroup]

end Commit

namespace Consumer

variable {cluster : Cluster} {now : Time} {c : Consumer ℓ κ} {a : Act ℓ κ}

theorem faults_serve (r : Request ℓ κ) :
    (c.serve cluster now r).consumer.commits.faults = c.commits.faults := by
  rcases commits_serve_cases cluster now c r with h | ⟨-, h⟩ | ⟨offsets, callback, h⟩
  · rw [h]
  · rw [h]
    rfl
  · rw [← (Commits.schedule_eq_ok_iff.1 h).2, Commits.faults_add]

/-- Unless a commit runs, faults only come in. -/
theorem commitFaults_act (h : a = .startCommit → c.commits.start? cluster = none) :
    (c.act cluster now a).commits.faults.pending = c.commits.faults.pending ++ a.commitFaults := by
  cases hq : c.part? cluster now a with
  | none =>
    rw [act_of_part?_none hq]
    cases a with
    | startCommit => simp [undergo, h rfl, Act.commitFaults]
    | addFault kind fault count => cases kind <;> simp [undergo, Act.commitFaults]
    | abandon =>
      simp only [undergo]
      split <;> simp [abandon, Act.commitFaults]
    | drop =>
      simp only [undergo]
      split <;> simp [release, Commits.stop, Act.commitFaults]
    | _ => simp [undergo, Commits.finish, Act.commitFaults]
  | some q =>
    have hqueued : a.commitFaults = [] := by cases a <;> first | rfl | cases hq
    rw [act_of_part? hq, hqueued, List.append_nil]
    by_cases hserve : ∃ r, q = .serve r
    · obtain ⟨r, rfl⟩ := hserve
      rw [perform_serve, faults_serve]
    · rw [commits_perform fun r hr => hserve ⟨r, hr⟩]

end Consumer

namespace World

variable {w : World ℓ κ} {id : ConsumerId} {m : Move ℓ κ} {group : String} {p : Partition}

def queuedForCommits (id : ConsumerId) (w : World ℓ κ) (m : Move ℓ κ) : List Fault :=
  match w.acted? id m with
  | some (_, a) => a.commitFaults
  | none => []

def WritesAlone (id : ConsumerId) (group : String) (p : Partition) (w : World ℓ κ) (m : Move ℓ κ) :
    Prop :=
  w.writes group p m = true → (m.act? id).isSome = true

instance (id : ConsumerId) (group : String) (p : Partition) (w : World ℓ κ) (m : Move ℓ κ) :
    Decidable (w.WritesAlone id group p m) :=
  inferInstanceAs (Decidable (_ → _))

theorem called_eq (id : ConsumerId) (w : World ℓ κ) (m : Move ℓ κ) :
    w.called id m = (w.executed id m).flatMap Commit.call := by
  unfold called executed
  split
  · cases w.outcome m <;> simp [Outcome.called, Outcome.executed, Commit.call]
  · rfl

theorem called_run (id : ConsumerId) (w : World ℓ κ) (ms : List (Move ℓ κ)) :
    collect (called id) w ms = (collect (executed id) w ms).flatMap Commit.call := by
  induction ms generalizing w with
  | nil => rfl
  | cons m ms ih => rw [collect_cons, collect_cons, List.flatMap_append, called_eq, ih]

theorem result_of_executed {e : Commit κ × Except Failure Unit} (he : e ∈ w.executed id m) :
    e.2 = match w.commitFaults id with
      | [] => .ok ()
      | fault :: _ => .error (.injected fault) := by
  rcases runsOne_or id w m with ⟨commit, result, -, hone, -, -, heffect, -⟩ | ⟨hnone, -⟩
  · rw [hone, List.mem_singleton] at he
    subst he
    rcases heffect with ⟨fault, hfaults, hresult, -⟩ | ⟨hfaults, -, hresult, -⟩
    all_goals
      rw [hfaults]
      exact hresult
  · rw [hnone] at he
    cases he

theorem commitFaults_ledger (id : ConsumerId) (w : World ℓ κ) (m : Move ℓ κ) :
    w.commitFaults id ++ w.queuedForCommits id m =
      (w.executed id m).filterMap Commit.fault? ++ (w.after m).commitFaults id := by
  rcases runsOne_or id w m with ⟨commit, result, rfl, hone, -, -, heffect, -⟩ | ⟨hnone, -, hidle, -⟩
  · have hqueued : w.queuedForCommits id (.act id .startCommit) = [] := by
      unfold queuedForCommits
      split
      next hacted =>
        cases (acted?_eq_some_iff.1 hacted).2
        rfl
      next => rfl
    rw [hqueued, hone, List.append_nil]
    rcases heffect with ⟨fault, hfaults, rfl, -⟩ | ⟨hfaults, hfaults', rfl, -⟩
    · rw [hfaults]
      rfl
    · rw [hfaults, hfaults']
      rfl
  · rw [hnone, List.filterMap_nil, List.nil_append]
    cases hc : w.consumer? id with
    | none =>
      have hacted : w.acted? id m = none := by simp [acted?, hc]
      have hnew : (w.after m).commitFaults id = [] := getD_after_of_none (fun _ => rfl) hc m
      rw [hnew]
      simp [queuedForCommits, hacted, commitFaults, hc]
    | some c =>
      rcases acted?_cases hc m with ⟨a, rfl, hacted, hafter⟩ | ⟨hacted, hafter⟩
      · -- A commit that could start would have been executed.
        have hstart : a = .startCommit → c.commits.start? w.cluster = none := by
          rintro rfl
          rw [Commits.start?_eq_none_iff]
          cases hexecuting : c.commits.executing with
          | some commit => exact .inl rfl
          | none =>
            right
            simpa [waiting, hc] using hidle rfl (by simp [executing, hc, hexecuting])
        simp [commitFaults, queuedForCommits, hacted, hc, hafter, Consumer.commitFaults_act hstart]
      · simp [commitFaults, queuedForCommits, hacted, hc, hafter]

/-- The queue of faults in a run. -/
theorem commitFaults_run (id : ConsumerId) (w : World ℓ κ) (ms : List (Move ℓ κ)) :
    w.commitFaults id ++ collect (queuedForCommits id) w ms =
      (collect (executed id) w ms).filterMap Commit.fault? ++ (w.run ms).commitFaults id := by
  induction ms generalizing w with
  | nil => simp
  | cons m ms ih =>
    simp only [collect_cons, run_cons, List.filterMap_append]
    rw [← List.append_assoc, commitFaults_ledger, List.append_assoc, ih, List.append_assoc]

theorem committedOffset?_after_of_alone (h : w.WritesAlone id group p m) :
    (w.after m).cluster.committedOffset? group p =
      Commit.lastStored group p (w.executed id m) (w.cluster.committedOffset? group p) := by
  rcases runsOne_or id w m with ⟨commit, result, -, hone, -, -, heffect, -⟩ | ⟨hnone, -, -, hcluster⟩
  · rw [hone]
    exact heffect.committedOffset? group p
  · -- Then the consumer has not written, and nobody else writes.
    rw [hnone, Commit.lastStored_nil]
    cases hwrites : w.writes group p m with
    | false => exact committedOffset?_after hwrites
    | true =>
      obtain ⟨a, ha⟩ := Option.isSome_iff_exists.1 (h hwrites)
      obtain rfl := Move.act?_eq_some_iff.1 ha
      cases hc : w.consumer? id with
      | some c => rw [hcluster (by rw [acted?_act hc]; rfl)]
      | none =>
        have hsame : (w.after (.act id a)).cluster = w.cluster := by
          apply cluster_act_of_not_started
          intro _ c hc'
          cases hc.symm.trans hc'
        rw [hsame]

theorem committedOffset?_run_of_alone {ms : List (Move ℓ κ)}
    (h : w.Throughout (WritesAlone id group p) ms) :
    (w.run ms).cluster.committedOffset? group p =
      Commit.lastStored group p (collect (executed id) w ms)
        (w.cluster.committedOffset? group p) := by
  induction ms generalizing w with
  | nil => rfl
  | cons m ms ih =>
    rw [run_cons, ih h.2, committedOffset?_after_of_alone h.1, collect_cons, Commit.lastStored_append]

theorem waiting_of_inFlight (h : w.inFlight id = 0) : w.waiting id = [] := by
  rw [inFlight_eq] at h
  exact List.length_eq_zero_iff.1 (Nat.eq_zero_of_add_eq_zero_right h)

/-- Commits surface the faults that are queued, in their order. When nothing is in flight, a
committed offset is that of the last commit that has stored one. -/
theorem commits_replay_in_order (id : ConsumerId) (w : World ℓ κ) (ms : List (Move ℓ κ)) :
    w.commitFaults id ++ collect (queuedForCommits id) w ms =
        (collect (executed id) w ms).filterMap Commit.fault? ++ (w.run ms).commitFaults id ∧
      collect (called id) w ms = (collect (executed id) w ms).flatMap Commit.call ∧
      (∀ before m rest, ms = before ++ m :: rest →
        ((w.run before).AcceptsOne id m ∨ (w.run before).accepted id m = []) ∧
        ∀ e ∈ (w.run before).executed id m,
          e.2 = match (w.run before).commitFaults id with
            | [] => .ok ()
            | fault :: _ => .error (.injected fault)) ∧
      ((w.run ms).inFlight id = 0 →
        (collect (executed id) w ms).map (·.1) = w.waiting id ++ collect (accepted id) w ms ∧
        ∀ group p, w.Throughout (WritesAlone id group p) ms →
          (w.run ms).cluster.committedOffset? group p =
            Commit.lastStored group p (collect (executed id) w ms)
              (w.cluster.committedOffset? group p)) := by
  refine ⟨commitFaults_run id w ms, called_run id w ms, ?_, fun hidle => ⟨?_, ?_⟩⟩
  · rintro before m rest -
    exact ⟨(acceptsOne_or id (w.run before) m).imp_right (·.1), fun e he => result_of_executed he⟩
  · have hledger := (ledger_run id w ms).1
    rw [waiting_of_inFlight hidle, List.append_nil] at hledger
    exact hledger.symm
  · exact fun group p halone => committedOffset?_run_of_alone halone

/-- Of two commits of one partition the second meets a fault, which is queued when it was scheduled
already. -/
def sampleReplay : List (Move Unit Unit) :=
  [.create .standard,
    .act 0 (.request (.commitOffsets (.ofList [(⟨"t", 0⟩, 5)]) (some ()))),
    .act 0 (.request (.commitOffsets (.ofList [(⟨"t", 0⟩, 7)]) (some ()))), .act 0 .startCommit,
    .act 0 (.addFault .commit ⟨.requestTimedOut, "late"⟩ 2), .act 0 .finishCommit,
    .act 0 .startCommit, .act 0 .finishCommit]

theorem commits_replay_in_order_sample :
    (initial.run sampleReplay).inFlight 0 = 0 ∧
      initial.Throughout (WritesAlone 0 "" ⟨"t", 0⟩) sampleReplay ∧
      (initial.run sampleReplay).cluster.committedOffset? "" ⟨"t", 0⟩ = some 5 := by
  have hidle : (initial.run sampleReplay).inFlight 0 = 0 := by decide
  have halone : initial.Throughout (WritesAlone 0 "" ⟨"t", 0⟩) sampleReplay := by decide
  obtain ⟨-, -, -, hend⟩ := commits_replay_in_order 0 initial sampleReplay
  have hstored := (hend hidle).2 "" ⟨"t", 0⟩ halone
  exact ⟨hidle, halone, hstored.trans (by decide)⟩

end World

end LogConsumer
