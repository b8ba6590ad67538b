import LogConsumer.Proofs.Recast
import LogConsumer.Scenario.Play

/-! Scenarios that pause nothing. Whatever pauses partitions or resumes them is taken out of a scenario,
from the scripts of its callbacks too. Main statement: `pauses_of_occursIn`. -/
namespace LogConsumer

variable {α : Type}

namespace Step

def pauses : Step → Bool
  | request _ r _ => r.pauses
  | _ => false

def listener? : Step → Option Listener
  | subscribePattern _ _ listener => listener
  | request _ r _ => r.listener?
  | _ => none

def callback? : Step → Option Callback
  | request _ r _ => r.callback?
  | _ => none

end Step

-- Scripts are reached through options and requests, so these have functions of their own: a recursion
-- under `Option.map` or `Request.map` would not be structural.
mutual

/-- A step that pauses nothing in the scripts of its callbacks. -/
def Step.unpaused : Step → Step
  | .subscribePattern c pattern listener => .subscribePattern c pattern (unpausedListener? listener)
  | .request c r wait => .request c (unpausedRequest r) wait
  | step => step

def unpausedScript : List Step → List Step
  | [] => []
  | step :: rest => if step.pauses then unpausedScript rest else step.unpaused :: unpausedScript rest

def unpausedListener : Listener → Listener
  | ⟨name, revoked, assigned⟩ => ⟨name, unpausedScript revoked, unpausedScript assigned⟩

def unpausedListener? : Option Listener → Option Listener
  | none => none
  | some listener => some (unpausedListener listener)

def unpausedCallback : Callback → Callback
  | ⟨name, script⟩ => ⟨name, unpausedScript script⟩

def unpausedCallback? : Option Callback → Option Callback
  | none => none
  | some callback => some (unpausedCallback callback)

def unpausedRequest : Request Listener Callback → Request Listener Callback
  | .subscribe topics listener => .subscribe topics (unpausedListener? listener)
  | .subscribePattern pattern listener => .subscribePattern pattern (unpausedListener? listener)
  | .commit callback => .commit (unpausedCallback? callback)
  | .commitOffsets offsets callback => .commitOffsets offsets (unpausedCallback? callback)
  | r => r

end

def besides : List Step → List α → List α
  | step :: steps, a :: as => if step.pauses then besides steps as else a :: besides steps as
  | _, _ => []

/-- The steps of a scenario, with those in the scripts of its callbacks. -/
inductive Step.OccursIn (steps : List Step) : Step → Prop
  | top {step : Step} (h : step ∈ steps) : OccursIn steps step
  | told {outer step : Step} {listener : Listener} {call : Call} (houter : OccursIn steps outer)
    (h : outer.listener? = some listener) (hstep : step ∈ listener.script call) : OccursIn steps step
  | called {outer step : Step} {callback : Callback} (houter : OccursIn steps outer)
    (h : outer.callback? = some callback) (hstep : step ∈ callback.script) : OccursIn steps step

def ListenerOf.OccursIn (steps : List Step) (listener : Listener) : Prop :=
  ∃ step, Step.OccursIn steps step ∧ step.listener? = some listener

def CallbackOf.OccursIn (steps : List Step) (callback : Callback) : Prop :=
  ∃ step, Step.OccursIn steps step ∧ step.callback? = some callback

abbrev ListenerIn (steps : List Step) := { listener : Listener // listener.OccursIn steps }

abbrev CallbackIn (steps : List Step) := { callback : Callback // callback.OccursIn steps }

def View.unpaused (v : View) : View := { v with paused := .empty }

def Answer.unpaused (a : Answer) : Answer := { a with view := a.view.map .unpaused }

def Report.unpaused (script : List Step) (r : Report) : Report :=
  ⟨(besides script r.answers).map .unpaused, r.stop⟩

/-- The same callback of a scenario has ended in the same way, but that its script paused nothing. -/
inductive Event.Twin (steps : List Step) : Event → Event → Prop
  | told {listener : Listener} (h : listener.OccursIn steps) (call : Call)
    (partitions : SortedSet Partition) (answers : List Answer) :
    Twin steps (.told listener.name call partitions answers)
      (.told listener.name call partitions ((besides (listener.script call) answers).map .unpaused))
  | committed {callback : Callback} (h : callback.OccursIn steps) (offsets : OffsetMap)
    (result : Except Failure Unit) (answers : List Answer) :
    Twin steps (.committed callback.name offsets result answers)
      (.committed callback.name offsets result ((besides callback.script answers).map .unpaused))

variable {steps : List Step}

theorem unpausedListener?_eq (listener : Option Listener) :
    unpausedListener? listener = listener.map unpausedListener := by cases listener <;> rfl

theorem unpausedCallback?_eq (callback : Option Callback) :
    unpausedCallback? callback = callback.map unpausedCallback := by cases callback <;> rfl

theorem unpausedRequest_eq (r : Request Listener Callback) :
    unpausedRequest r = r.map unpausedListener unpausedCallback := by
  cases r <;> simp only [unpausedRequest, Request.map, unpausedListener?_eq, unpausedCallback?_eq]

theorem unpausedListener_name (listener : Listener) :
    (unpausedListener listener).name = listener.name := by cases listener; rfl

theorem unpausedListener_script (listener : Listener) (call : Call) :
    (unpausedListener listener).script call = unpausedScript (listener.script call) := by
  cases listener; cases call <;> rfl

theorem unpausedCallback_name (callback : Callback) :
    (unpausedCallback callback).name = callback.name := by cases callback; rfl

theorem unpausedCallback_script (callback : Callback) :
    (unpausedCallback callback).script = unpausedScript callback.script := by cases callback; rfl

theorem Step.shown?_unpaused (step : Step) : step.unpaused.shown? = step.shown? := by
  cases step with
  | request c r wait => cases r <;> rfl
  | _ => rfl

theorem Step.awaited?_unpaused (step : Step) : step.unpaused.awaited? = step.awaited? := by
  cases step with
  | request c r wait => cases wait <;> rfl
  | _ => rfl

theorem besides_cons (step : Step) (script : List Step) (a : α) (as : List α) :
    besides (step :: script) (a :: as) =
      if step.pauses then besides script as else a :: besides script as := rfl

theorem unpausedScript_cons (step : Step) (script : List Step) :
    unpausedScript (step :: script) =
      if step.pauses then unpausedScript script else step.unpaused :: unpausedScript script := rfl

theorem Report.unpaused_cons (step : Step) (script : List Step) (a : Answer) (r : Report) :
    Report.unpaused (step :: script) ⟨a :: r.answers, r.stop⟩ =
      if step.pauses then r.unpaused script
      else ⟨a.unpaused :: (r.unpaused script).answers, r.stop⟩ := by
  unfold Report.unpaused
  rw [besides_cons]
  split <;> rfl

theorem Step.pauses_unpaused (step : Step) : step.unpaused.pauses = step.pauses := by
  cases step with
  | request c r wait => cases r <;> rfl
  | _ => rfl

theorem Step.listener?_unpaused (step : Step) :
    step.unpaused.listener? = step.listener?.map unpausedListener := by
  cases step with
  | subscribePattern c pattern listener => exact unpausedListener?_eq listener
  | request c r wait =>
    cases r with
    | subscribe topics listener | subscribePattern pattern listener =>
      exact unpausedListener?_eq listener
    | _ => rfl
  | _ => rfl

theorem Step.callback?_unpaused (step : Step) :
    step.unpaused.callback? = step.callback?.map unpausedCallback := by
  cases step with
  | request c r wait =>
    cases r with
    | commit callback | commitOffsets offsets callback => exact unpausedCallback?_eq callback
    | _ => rfl
  | _ => rfl

theorem exists_of_mem_unpausedScript {step : Step} {script : List Step}
    (h : step ∈ unpausedScript script) :
    ∃ step₀ : Step, step = step₀.unpaused ∧ step₀.pauses = false := by
  induction script with
  | nil => cases h
  | cons step₀ rest ih =>
    rw [unpausedScript_cons] at h
    cases hpauses : step₀.pauses with
    | true => exact ih (by simpa [hpauses] using h)
    | false =>
      simp only [hpauses, Bool.false_eq_true, if_false] at h
      rcases List.mem_cons.1 h with rfl | h
      · exact ⟨step₀, rfl, hpauses⟩
      · exact ih h

theorem pauses_of_occursIn {step : Step} (h : step.OccursIn (unpausedScript steps)) :
    step.pauses = false := by
  have hkept : ∃ step₀ : Step, step = step₀.unpaused ∧ step₀.pauses = false := by
    induction h with
    | top h => exact exists_of_mem_unpausedScript h
    | told _ h hstep ih =>
      obtain ⟨step₀, rfl, -⟩ := ih
      rw [Step.listener?_unpaused] at h
      obtain ⟨listener, -, rfl⟩ := Option.map_eq_some_iff.1 h
      rw [unpausedListener_script] at hstep
      exact exists_of_mem_unpausedScript hstep
    | called _ h hstep ih =>
      obtain ⟨step₀, rfl, -⟩ := ih
      rw [Step.callback?_unpaused] at h
      obtain ⟨callback, -, rfl⟩ := Option.map_eq_some_iff.1 h
      rw [unpausedCallback_script] at hstep
      exact exists_of_mem_unpausedScript hstep
  obtain ⟨step₀, rfl, hpauses⟩ := hkept
  rw [Step.pauses_unpaused, hpauses]

end LogConsumer
