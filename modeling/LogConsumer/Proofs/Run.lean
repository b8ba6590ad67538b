import LogConsumer.Scenario.ClusterStep
import LogConsumer.World

/-! Runs of a world: consumers, their callbacks, the cluster and the clock move in any order. The
calls that a callback makes are moves between the stop of the operation that makes the callback
and its continuation, however deep callbacks nest. -/
namespace LogConsumer

/-- What can be done to a consumer, or happen to it. -/
inductive Act (ℓ κ : Type)
  | request (r : Request ℓ κ)
  /-- The listener has returned, or the wait is over. -/
  | proceed
  /-- The listener has panicked. -/
  | abandon
  /-- The next commit runs up to its callback. -/
  | startCommit
  /-- The callback of the commit has returned or panicked. -/
  | finishCommit
  | addFault (kind : FaultKind) (fault : Fault) (count : Nat)
  | drop

inductive Move (ℓ κ : Type)
  | create (b : Behaviour)
  | act (id : ConsumerId) (a : Act ℓ κ)
  | cluster (step : ClusterStep)
  | advance (time : Time)
  | resetCounters

inductive Outcome (ℓ κ : Type)
  | silent
  | progress (p : Progress ℓ)
  /-- A commit has run. Its callback, if it has one, is called with its offsets and the result. -/
  | committed (commit : Commit κ) (result : Except Failure Unit)

namespace Outcome

variable {ℓ κ : Type}

def isSuccess : Outcome ℓ κ → Bool
  | progress (.answered (.ok _)) => true
  | _ => false

def batch? : Outcome ℓ κ → Option Batch
  | progress (.answered (.ok (.batch b))) => some b
  | _ => none

/-- The records of a partition in the batch that a poll has returned. -/
def recordsOf (o : Outcome ℓ κ) (p : Partition) : List Record :=
  match o.batch? with
  | some batch => batch.recordsOf p
  | none => []

theorem recordsOf_eq_nil_of_not_success {o : Outcome ℓ κ} (h : o.isSuccess = false) (p : Partition) :
    o.recordsOf p = [] := by
  unfold isSuccess at h
  unfold recordsOf batch?
  split at h
  · cases h
  · split <;> simp_all

end Outcome

namespace Activity

variable {ℓ : Type}

def isTelling : Activity ℓ → Bool
  | changing _ | expiring | activating => true
  | fetching | closing => false

end Activity

/-- Lets go of a consumer, of which nothing is asked any more. Commits that are scheduled still
run. -/
def Consumer.release {ℓ κ : Type} (c : Consumer ℓ κ) : Consumer ℓ κ :=
  { c with commits := c.commits.stop, closed := true }

namespace World

variable {ℓ κ : Type}

def holder? (w : World ℓ κ) (id : ConsumerId) : Option (Activity ℓ) :=
  (w.consumer? id).bind (·.guard.holder)

def act (id : ConsumerId) (w : World ℓ κ) : Act ℓ κ → Outcome ℓ κ × World ℓ κ
  | .request r =>
    let (p, w) := w.request id r
    (.progress p, w)
  | .proceed =>
    match w.holder? id with
    | some _ =>
      let (p, w) := w.proceed id
      (.progress p, w)
    | none => (.silent, w)
  | .abandon => (.silent, if (w.holder? id).any (·.isTelling) then w.abandon id else w)
  | .startCommit =>
    match w.startCommit id with
    | (some (commit, result), w) => (.committed commit result, w)
    | (none, w) => (.silent, w)
  | .finishCommit => (.silent, w.finishCommit id)
  | .addFault kind fault count => (.silent, w.addFault kind fault count id)
  | .drop =>
    -- Whoever has an operation in progress still has the consumer.
    (.silent, if (w.holder? id).isSome then w else w.modifyConsumer id .release)

/-- A step of the cluster that fails leaves the world as it is. -/
def stepCluster (step : ClusterStep) (w : World ℓ κ) : World ℓ κ :=
  match step.run w.cluster with
  | .ok (_, cluster) => { w with cluster }
  | .error _ => w

def step (w : World ℓ κ) : Move ℓ κ → Outcome ℓ κ × World ℓ κ
  | .create b => (.silent, (w.create b).2)
  | .act id a => w.act id a
  | .cluster step => (.silent, w.stepCluster step)
  | .advance time => (.silent, w.advance time)
  | .resetCounters => (.silent, { w with counters := .zero })

def outcome (w : World ℓ κ) (m : Move ℓ κ) : Outcome ℓ κ := (w.step m).1

def after (w : World ℓ κ) (m : Move ℓ κ) : World ℓ κ := (w.step m).2

def run (w : World ℓ κ) (ms : List (Move ℓ κ)) : World ℓ κ := ms.foldl after w

@[simp] theorem run_nil (w : World ℓ κ) : w.run [] = w := rfl

@[simp] theorem run_cons (w : World ℓ κ) (m : Move ℓ κ) (ms : List (Move ℓ κ)) :
    w.run (m :: ms) = (w.after m).run ms := rfl

@[simp] theorem run_append (w : World ℓ κ) (ms ms' : List (Move ℓ κ)) :
    w.run (ms ++ ms') = (w.run ms).run ms' := List.foldl_append

/-- What the moves of a run contribute, in order. -/
def collect {α : Type} (f : World ℓ κ → Move ℓ κ → List α) : World ℓ κ → List (Move ℓ κ) → List α
  | _, [] => []
  | w, m :: ms => f w m ++ collect f (w.after m) ms

@[simp] theorem collect_nil {α : Type} (f : World ℓ κ → Move ℓ κ → List α) (w : World ℓ κ) :
    collect f w [] = [] := rfl

@[simp] theorem collect_cons {α : Type} (f : World ℓ κ → Move ℓ κ → List α) (w : World ℓ κ)
    (m : Move ℓ κ) (ms : List (Move ℓ κ)) :
    collect f w (m :: ms) = f w m ++ collect f (w.after m) ms := rfl

theorem collect_append {α : Type} (f : World ℓ κ → Move ℓ κ → List α) (w : World ℓ κ)
    (ms ms' : List (Move ℓ κ)) :
    collect f w (ms ++ ms') = collect f w ms ++ collect f (w.run ms) ms' := by
  induction ms generalizing w with
  | nil => rfl
  | cons m ms ih => simp [ih]

theorem mem_collect_iff {α : Type} {f : World ℓ κ → Move ℓ κ → List α} {w : World ℓ κ}
    {ms : List (Move ℓ κ)} {x : α} :
    x ∈ collect f w ms ↔ ∃ before m rest, ms = before ++ m :: rest ∧ x ∈ f (w.run before) m := by
  induction ms generalizing w with
  | nil => simp
  | cons n ms ih =>
    rw [collect_cons, List.mem_append, ih]
    constructor
    · rintro (hx | ⟨before, m, rest, rfl, hx⟩)
      · exact ⟨[], n, ms, rfl, hx⟩
      · exact ⟨n :: before, m, rest, rfl, hx⟩
    · rintro ⟨_ | ⟨n', before⟩, m, rest, hms, hx⟩
      · cases hms
        exact .inl hx
      · cases hms
        exact .inr ⟨before, m, rest, rfl, hx⟩

def tally (P : World ℓ κ → Move ℓ κ → Bool) : World ℓ κ → List (Move ℓ κ) → Nat
  | _, [] => 0
  | w, m :: ms => (P w m).toNat + tally P (w.after m) ms

def last? (P : World ℓ κ → Move ℓ κ → Bool) :
    World ℓ κ → List (Move ℓ κ) → Option (World ℓ κ × Move ℓ κ × List (Move ℓ κ))
  | _, [] => none
  | w, m :: ms => (last? P (w.after m) ms).or (if P w m then some (w, m, ms) else none)

/-- Every move of a run is made in a world in which `P` allows it. -/
def Throughout (P : World ℓ κ → Move ℓ κ → Prop) : World ℓ κ → List (Move ℓ κ) → Prop
  | _, [] => True
  | w, m :: ms => P w m ∧ Throughout P (w.after m) ms

instance decidableThroughout (P : World ℓ κ → Move ℓ κ → Prop) [∀ w m, Decidable (P w m)] :
    (w : World ℓ κ) → (ms : List (Move ℓ κ)) → Decidable (w.Throughout P ms)
  | _, [] => inferInstanceAs (Decidable True)
  | w, m :: ms =>
    have := decidableThroughout P (w.after m) ms
    inferInstanceAs (Decidable (P w m ∧ (w.after m).Throughout P ms))

theorem throughout_append {P : World ℓ κ → Move ℓ κ → Prop} {w : World ℓ κ}
    {ms ms' : List (Move ℓ κ)} :
    w.Throughout P (ms ++ ms') ↔ w.Throughout P ms ∧ (w.run ms).Throughout P ms' := by
  induction ms generalizing w with
  | nil => simp [Throughout]
  | cons m ms ih => simp [Throughout, ih, and_assoc]

theorem throughout_of_forall {P : Move ℓ κ → Prop} {ms : List (Move ℓ κ)} (h : ∀ m ∈ ms, P m)
    (w : World ℓ κ) : w.Throughout (fun _ m => P m) ms := by
  induction ms generalizing w with
  | nil => trivial
  | cons m ms ih =>
    have ⟨hm, hms⟩ := List.forall_mem_cons.1 h
    exact ⟨hm, ih hms (w.after m)⟩

theorem run_induction {I : World ℓ κ → Prop} {P : World ℓ κ → Move ℓ κ → Prop}
    (hstep : ∀ w m, I w → P w m → I (w.after m)) {w : World ℓ κ} {ms : List (Move ℓ κ)}
    (hw : I w) (h : w.Throughout P ms) : I (w.run ms) := by
  induction ms generalizing w with
  | nil => exact hw
  | cons m ms ih => exact ih (hstep w m hw h.1) h.2

/-- In `v`, the move `m` is the last of a run for which `P` holds, and `after` follows. -/
def IsLast (P : World ℓ κ → Move ℓ κ → Bool) (w : World ℓ κ) (ms : List (Move ℓ κ)) (v : World ℓ κ)
    (m : Move ℓ κ) (after : List (Move ℓ κ)) : Prop :=
  ∃ before, ms = before ++ m :: after ∧ v = w.run before ∧ P v m = true ∧
    (v.after m).Throughout (fun w m => P w m = false) after

section Last

variable {P : World ℓ κ → Move ℓ κ → Bool} {w v : World ℓ κ} {m n : Move ℓ κ}
  {ms after : List (Move ℓ κ)}

theorem last?_eq_none_iff : w.last? P ms = none ↔ w.Throughout (fun w m => P w m = false) ms := by
  induction ms generalizing w with
  | nil => simp [last?, Throughout]
  | cons m ms ih => cases h : P w m <;> simp [last?, Throughout, ih, h]

theorem last?_eq_some_iff : w.last? P ms = some (v, m, after) ↔ w.IsLast P ms v m after := by
  induction ms generalizing w with
  | nil => simp [last?, IsLast]
  | cons n ms ih =>
    constructor
    · intro h
      cases hrest : (w.after n).last? P ms with
      | some found =>
        have hfound : found = (v, m, after) := by simpa [last?, hrest] using h
        obtain ⟨before, rfl, rfl, hlast⟩ := ih.1 (hfound ▸ hrest)
        exact ⟨n :: before, rfl, rfl, hlast⟩
      | none =>
        by_cases hn : P w n = true
        · have hfound : (w, n, ms) = (v, m, after) := by simpa [last?, hrest, hn] using h
          cases hfound
          exact ⟨[], rfl, rfl, hn, last?_eq_none_iff.1 hrest⟩
        · simp [last?, hrest, hn] at h
    · rintro ⟨before, hms, rfl, hm, hafter⟩
      cases before with
      | nil =>
        cases hms
        have hrest := last?_eq_none_iff.2 hafter
        rw [run_nil] at hm hrest ⊢
        simp [last?, hrest, hm]
      | cons n' before =>
        obtain ⟨rfl, rfl⟩ := List.cons.inj hms
        have hrest := ih.2 ⟨before, rfl, rfl, hm, hafter⟩
        rw [last?, hrest, Option.some_or]

theorem last?_append_singleton (w : World ℓ κ) (ms : List (Move ℓ κ)) (n : Move ℓ κ) :
    w.last? P (ms ++ [n]) = if P (w.run ms) n then some (w.run ms, n, [])
      else (w.last? P ms).map fun (v, m, after) => (v, m, after ++ [n]) := by
  induction ms generalizing w with
  | nil => cases h : P w n <;> simp [last?, h]
  | cons m ms ih =>
    simp only [List.cons_append, last?, ih, run_cons]
    by_cases hn : P ((w.after m).run ms) n = true
    · simp [hn]
    · cases hrest : (w.after m).last? P ms <;> by_cases hm : P w m = true <;> simp [hn, hm]

theorem isLast_of_last (h : P (w.run ms) n = true) :
    w.IsLast P (ms ++ [n]) (w.run ms) n [] := ⟨ms, rfl, rfl, h, trivial⟩

theorem IsLast.append_singleton (h : w.IsLast P ms v m after) (hn : P (w.run ms) n = false) :
    w.IsLast P (ms ++ [n]) v m (after ++ [n]) := by
  rw [← last?_eq_some_iff] at h ⊢
  rw [last?_append_singleton, h, hn]
  rfl

/-- What follows the last such move leads on to where the run ends. -/
theorem run_of_last? (h : w.last? P ms = some (v, m, after)) : (v.after m).run after = w.run ms := by
  obtain ⟨before, rfl, rfl, -⟩ := last?_eq_some_iff.1 h
  rw [run_append, run_cons]

end Last

end World

end LogConsumer
