import LogConsumer.Cluster
import LogConsumer.Counters
import LogConsumer.Duration

/-! Asynchronous commits. One worker runs them, one after the other, each a fixed time after the
worker has come to see it; a commit either surfaces a fault or writes its offsets, and then its
callback is called. -/
namespace LogConsumer

structure Commit (κ : Type) where
  group : String
  offsets : OffsetMap
  callback : Option κ
deriving DecidableEq

/-- A commit whose callback is running, which keeps the worker busy. -/
structure Running (κ : Type) where
  commit : Commit κ
  /-- The commits that were scheduled since. Their delay has not begun. -/
  unseen : List (Commit κ)
deriving DecidableEq

structure Commits (κ : Type) where
  delay : Duration
  /-- Whether new commits may be scheduled. -/
  accepting : Bool
  faults : FaultQueue
  running : Option (Running κ)
  /-- The commits whose delay has begun, and when they are due. -/
  timetable : List (Commit κ × Time)
deriving DecidableEq

/-- What came of a commit that has started to run. -/
structure Execution (κ : Type) where
  commit : Commit κ
  result : Except Failure Unit
  commits : Commits κ
  cluster : Cluster
  counts : List (Counter × Nat)

namespace Commits

variable {κ : Type}

def ofDelay (delay : Duration) : Commits κ := ⟨delay, true, .empty, none, []⟩

def executing (q : Commits κ) : Option (Commit κ) := q.running.map (·.commit)

def unseen (q : Commits κ) : List (Commit κ) := (q.running.map (·.unseen)).getD []

def waiting (q : Commits κ) : List (Commit κ) := q.timetable.map (·.1) ++ q.unseen

/-- The number of commits that have not finished. -/
def inFlight (q : Commits κ) : Nat := q.waiting.length + q.executing.toList.length

def add (now : Time) (commit : Commit κ) (q : Commits κ) : Commits κ :=
  match q.running with
  | none => { q with timetable := q.timetable ++ [(commit, now + q.delay.nanos)] }
  | some running => { q with running := some { running with unseen := running.unseen ++ [commit] } }

@[simp] theorem accepting_add (now : Time) (commit : Commit κ) (q : Commits κ) :
    (q.add now commit).accepting = q.accepting := by
  cases h : q.running <;> simp [add, h]

@[simp] theorem faults_add (now : Time) (commit : Commit κ) (q : Commits κ) :
    (q.add now commit).faults = q.faults := by
  cases h : q.running <;> simp [add, h]

@[simp] theorem waiting_add (now : Time) (commit : Commit κ) (q : Commits κ) :
    (q.add now commit).waiting = q.waiting ++ [commit] := by
  cases h : q.running <;> simp [add, waiting, unseen, h]

@[simp] theorem executing_add (now : Time) (commit : Commit κ) (q : Commits κ) :
    (q.add now commit).executing = q.executing := by
  cases h : q.running <;> simp [add, executing, h]

def schedule (now : Time) (group : String) (offsets : OffsetMap) (callback : Option κ)
    (q : Commits κ) : Except Failure (Commits κ) :=
  if q.accepting then .ok (q.add now ⟨group, offsets, callback⟩) else .error .closed

theorem schedule_eq_ok_iff {now : Time} {group : String} {offsets : OffsetMap} {callback : Option κ}
    {q q' : Commits κ} : q.schedule now group offsets callback = .ok q' ↔
      q.accepting = true ∧ q.add now ⟨group, offsets, callback⟩ = q' := by
  cases h : q.accepting <;> simp [schedule, h]

/-- Lets no more commits be scheduled; those that are still run. -/
def stop (q : Commits κ) : Commits κ := { q with accepting := false }

/-- When the next commit can run; none can while another's callback runs. -/
def nextDue? (q : Commits κ) : Option Time :=
  match q.running with
  | some _ => none
  | none => q.timetable.head?.map (·.2)

/-- Runs the next commit up to its callback. -/
def start? (cluster : Cluster) (q : Commits κ) : Option (Execution κ) :=
  match q.running, q.timetable with
  | none, (commit, _) :: timetable =>
    match q.faults.pop? with
    | some (fault, faults) =>
      some ⟨commit, .error (.injected fault),
        { q with faults, running := some ⟨commit, []⟩, timetable }, cluster,
        [(.faults .commit, 1), (.commits commit.group false, 1)]⟩
    | none =>
      some ⟨commit, .ok (), { q with running := some ⟨commit, []⟩, timetable },
        cluster.commitAll commit.group commit.offsets, [(.commits commit.group true, 1)]⟩
  | _, _ => none

/-- Notes that the callback has returned or panicked. The worker sees the commits that were scheduled
meanwhile, and their delay begins. -/
def finish (now : Time) (q : Commits κ) : Commits κ :=
  { q with
    running := none
    timetable := q.timetable ++ q.unseen.map (·, now + q.delay.nanos) }

/-- A commit that runs is the first that waits. It surfaces the next fault if there is one, and
writes its offsets otherwise. -/
theorem start?_eq_some {cluster : Cluster} {q : Commits κ} {e : Execution κ}
    (h : q.start? cluster = some e) :
    q.running = none ∧ (∃ due, q.timetable = (e.commit, due) :: e.commits.timetable) ∧
      e.commits = { q with
        running := some ⟨e.commit, []⟩, timetable := e.commits.timetable
        faults := e.commits.faults } ∧
      ((∃ fault, q.faults.pop? = some (fault, e.commits.faults) ∧
          e.result = .error (.injected fault) ∧ e.cluster = cluster) ∨
        (q.faults.pop? = none ∧ e.commits.faults = q.faults ∧ e.result = .ok () ∧
          e.cluster = cluster.commitAll e.commit.group e.commit.offsets)) := by
  unfold start? at h
  split at h
  next commit due rest hrunning htimetable =>
    split at h
    next fault faults hpop =>
      cases h
      exact ⟨hrunning, ⟨due, htimetable⟩, rfl, .inl ⟨fault, hpop, rfl, rfl⟩⟩
    next hpop =>
      cases h
      exact ⟨hrunning, ⟨due, htimetable⟩, rfl, .inr ⟨hpop, rfl, rfl, rfl⟩⟩
  next => cases h

theorem executing_eq_none_iff {q : Commits κ} : q.executing = none ↔ q.running = none :=
  Option.map_eq_none_iff

theorem waiting_of_idle {q : Commits κ} (h : q.executing = none) :
    q.waiting = q.timetable.map (·.1) := by
  simp [waiting, unseen, executing_eq_none_iff.1 h]

theorem waiting_of_start? {cluster : Cluster} {q : Commits κ} {e : Execution κ}
    (h : q.start? cluster = some e) :
    q.executing = none ∧ q.waiting = e.commit :: e.commits.waiting ∧
      e.commits.executing = some e.commit := by
  obtain ⟨hrunning, ⟨due, htimetable⟩, heq, -⟩ := start?_eq_some h
  have hidle := executing_eq_none_iff.2 hrunning
  rw [waiting_of_idle hidle, htimetable, heq]
  exact ⟨hidle, by simp [waiting, unseen], rfl⟩

theorem start?_eq_none_iff {cluster : Cluster} {q : Commits κ} :
    q.start? cluster = none ↔ q.executing.isSome ∨ q.waiting = [] := by
  unfold start? waiting unseen executing
  cases q.running <;> cases q.timetable <;> cases q.faults.pop? <;> simp

@[simp] theorem waiting_ofDelay (delay : Duration) : (ofDelay delay : Commits κ).waiting = [] := rfl

@[simp] theorem executing_ofDelay (delay : Duration) :
    (ofDelay delay : Commits κ).executing = none := rfl

@[simp] theorem waiting_stop (q : Commits κ) : q.stop.waiting = q.waiting := rfl

@[simp] theorem executing_stop (q : Commits κ) : q.stop.executing = q.executing := rfl

@[simp] theorem waiting_finish (now : Time) (q : Commits κ) : (q.finish now).waiting = q.waiting := by
  simp [finish, waiting, unseen, Function.comp_def]

@[simp] theorem executing_finish (now : Time) (q : Commits κ) : (q.finish now).executing = none := rfl

def debugText (q : Commits κ) : String :=
  "CommitEngine \x7b delay: " ++ q.delay.text ++ ", running: " ++
    (if q.accepting then "true" else "false") ++ ", in_flight: " ++ Decimal.ofNat q.inFlight ++
    " \x7d"

end Commits

end LogConsumer
