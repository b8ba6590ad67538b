import LogConsumer.Proofs.Stages
import LogConsumer.Scenario.Play

/-! Scenarios as runs. What a scenario does to its world is an orderly run, and a script resumes only
consumers that it has brought to a stop itself, and polls that go on beside the steps. So the script
of a listener never resumes the consumer that calls the listener. Main statements:
`world_stageAfter`, `isHeld_script`. -/
namespace LogConsumer

variable {α β : Type}

namespace Step

/-- Whether a step asks for operations and waits until they are over. -/
def asks : Step → Bool
  | configure .. | subscribePattern .. | request .. | commitBlocking | positions .. => true
  | _ => false

def isBeside : Step → Bool
  | spawnPoll _ | joinPoll _ => true
  | _ => false

def looks : Step → Bool
  | inFlight _ | groupId _ | behaviour _ | inspect _ | wakeup _ | debug _ => true
  | _ => false

def isPooling : Step → Bool
  | poolNew .. | poolWithCapacity .. | poolCreate .. | poolAdd .. | poolState .. => true
  | _ => false

end Step

namespace Play

open Stage

def on (p : Play α) (s : Stage) : Except Stop α × Stage := p.run.run s

theorem on_bind (p : Play α) (f : α → Play β) (s : Stage) :
    (p >>= f).on s =
      match p.on s with
      | (.ok a, s') => (f a).on s'
      | (.error e, s') => (.error e, s') := by
  simp only [on, ExceptT.run_bind, StateT.run_bind]
  cases h : p.run.run s with
  | mk r s' => cases r <;> rfl

theorem on_tryCatch (p : Play α) (f : Stop → Play α) (s : Stage) :
    (tryCatch p f).on s =
      match p.on s with
      | (.ok a, s') => (.ok a, s')
      | (.error e, s') => (f e).on s' := by
  simp only [on, ExceptT.run_tryCatch, StateT.run_bind]
  cases h : p.run.run s with
  | mk r s' => cases r <;> rfl

@[simp] theorem on_pure (a : α) (s : Stage) : (pure a : Play α).on s = (.ok a, s) := rfl

@[simp] theorem on_throw (e : Stop) (s : Stage) : (throw e : Play α).on s = (.error e, s) := rfl

@[simp] theorem on_get (s : Stage) : (get : Play Stage).on s = (.ok s, s) := rfl

@[simp] theorem on_modify (f : Stage → Stage) (s : Stage) :
    (modify f : Play Unit).on s = (.ok (), f s) := rfl

@[simp] theorem on_modifyWorld (f : World Listener Callback → World Listener Callback) (s : Stage) :
    (modifyWorld f).on s = (.ok (), { s with world := f s.world }) := rfl

@[simp] theorem on_updateWorld (f : World Listener Callback → α × World Listener Callback)
    (s : Stage) :
    (updateWorld f).on s = (.ok (f s.world).1, { s with world := (f s.world).2 }) := rfl

@[simp] theorem on_orFail (x : Except Failure α) (s : Stage) :
    (orFail x).on s = (x.mapError .failure, s) := by cases x <;> rfl

theorem on_run (run : Runner) (steps : List Step) (s : Stage) :
    (liftM (run steps) : Play Report).on s = (.ok ((run steps).run s).1, ((run steps).run s).2) := rfl

/-- A part of a scenario leads on from `s`, and has `post` where it does not stop. -/
structure Does (except : Option ConsumerId) (s : Stage) (p : Play α) (post : α → Stage → Prop) :
    Prop where
  leads : Leads except s (p.on s).2
  post : ∀ a s', p.on s = (.ok a, s') → post a s'

section Does

variable {except : Option ConsumerId} {s : Stage} {p : Play α} {f : α → Play β}
  {post : α → Stage → Prop} {post' : β → Stage → Prop}

theorem Does.bind (hp : Does except s p post)
    (hf : ∀ a s', post a s' → s'.Sound → Does except s' (f a) post') :
    Does except s (p >>= f) post' := by
  obtain ⟨hleads, hpost⟩ := hp
  cases hr : p.on s with
  | mk r s' =>
    rw [hr] at hleads
    cases r with
    | ok a =>
      obtain ⟨hleads', hpost'⟩ := hf a s' (hpost a s' hr) hleads.sound
      have heq : (p >>= f).on s = (f a).on s' := by rw [on_bind, hr]
      exact ⟨heq ▸ hleads.trans hleads', fun b s'' h => hpost' b s'' (heq ▸ h)⟩
    | error e =>
      have heq : (p >>= f).on s = (.error e, s') := by rw [on_bind, hr]
      exact ⟨heq ▸ hleads, fun b s'' h => nomatch heq.symm.trans h⟩

theorem Does.tryCatch {f : Stop → Play α} (hp : Does except s p post)
    (hf : ∀ e s', p.on s = (.error e, s') → s'.Sound → Does except s' (f e) post) :
    Does except s (tryCatch p f) post := by
  obtain ⟨hleads, hpost⟩ := hp
  cases hr : p.on s with
  | mk r s' =>
    rw [hr] at hleads
    cases r with
    | ok a =>
      have heq : (MonadExcept.tryCatch p f).on s = p.on s := by rw [on_tryCatch, hr]
      exact ⟨heq ▸ hr ▸ hleads, fun a s'' h => hpost a s'' (heq ▸ h)⟩
    | error e =>
      obtain ⟨hleads', hpost'⟩ := hf e s' hr hleads.sound
      have heq : (MonadExcept.tryCatch p f).on s = (f e).on s' := by rw [on_tryCatch, hr]
      exact ⟨heq ▸ hleads.trans hleads', fun a s'' h => hpost' a s'' (heq ▸ h)⟩

theorem Does.of_on {r : Except Stop α} (hs : s.Sound) (hr : p.on s = (r, s))
    (hpost : ∀ a, r = .ok a → post a s) : Does except s p post := by
  refine ⟨by rw [hr]; exact .refl _ hs, fun a s' h => ?_⟩
  cases hr.symm.trans h
  exact hpost a rfl

theorem Does.of_throw (hs : s.Sound) (e : Stop) : Does except s (throw e) post :=
  .of_on hs (on_throw e s) nofun

theorem Does.get_bind {f : Stage → Play β} (h : Does except s (f s) post') :
    Does except s (get >>= f) post' := by
  have heq : (get >>= f).on s = (f s).on s := by rw [on_bind, on_get]
  exact ⟨heq ▸ h.leads, fun b s' hr => h.post b s' (heq ▸ hr)⟩

end Does

/-- From every stage, a part of a scenario resumes nobody who stands. -/
def Steady (p : Play α) : Prop := ∀ s, s.Sound → Leads none s (p.on s).2

namespace Steady

variable {p : Play α} {s : Stage} {id : ConsumerId}

theorem does (h : Steady p) (hs : s.Sound) (except : Option ConsumerId) :
    Does except s p fun _ _ => True := ⟨(h s hs).weaken except, fun _ _ _ => trivial⟩

theorem stands (h : Steady p) (hs : s.Sound) {activity : Activity Listener}
    (hstands : s.Stands id activity) : (p.on s).2.Stands id activity :=
  (h s hs).stands nofun hstands

theorem does_stands (h : Steady p) (hs : s.Sound) {activity : Activity Listener}
    (hstands : s.Stands id activity) (except : Option ConsumerId) :
    Does except s p fun _ s' => s'.Stands id activity := by
  refine ⟨(h s hs).weaken except, fun a s' hr => ?_⟩
  have hstands' := h.stands hs hstands
  rwa [hr] at hstands'

theorem of_on (h : ∀ s, (p.on s).2 = s) : Steady p := fun s hs => by
  rw [h]
  exact .refl _ hs

theorem pure (a : α) : Steady (Pure.pure a) := of_on fun _ => rfl

theorem throw (e : Stop) : Steady (MonadExcept.throw e : Play α) := of_on fun _ => rfl

theorem get : Steady MonadState.get := of_on fun _ => rfl

theorem orFail (x : Except Failure α) : Steady (Play.orFail x) := of_on fun _ => by simp

theorem bind {f : α → Play β} (hp : Steady p) (hf : ∀ a, Steady (f a)) : Steady (p >>= f) :=
  fun _ hs => ((hp.does hs none).bind fun a _ _ hs' => (hf a).does hs' none).leads

theorem map (f : α → β) (hp : Steady p) : Steady (f <$> p) := by
  rw [map_eq_pure_bind]
  exact hp.bind fun a => .pure (f a)

theorem tryCatch {f : Stop → Play α} (hp : Steady p) (hf : ∀ e, Steady (f e)) :
    Steady (MonadExcept.tryCatch p f) :=
  fun _ hs => ((hp.does hs none).tryCatch fun e _ _ hs' => (hf e).does hs' none).leads

theorem mapM {f : α → Play β} (hf : ∀ a, Steady (f a)) (l : List α) : Steady (l.mapM f) := by
  induction l with
  | nil => exact .pure []
  | cons a l ih =>
    rw [List.mapM_cons]
    exact (hf a).bind fun b => ih.bind fun bs => .pure (b :: bs)

theorem modify {f : Stage → Stage} (hworld : ∀ s, (f s).world = s.world)
    (hpolls : ∀ s, (f s).polls = s.polls) : Steady (modify f : Play Unit) := fun s hs =>
  .of_fewer hs (hworld s) fun _ _ h => by simpa only [Waits, on_modify, hpolls] using h

theorem updateWorld {f : World Listener Callback → α × World Listener Callback}
    (m : Move Listener Callback) (hf : ∀ w, (f w).2 = w.after m) (hm : m.isQuiet = true) :
    Steady (Play.updateWorld f) := fun s hs => by
  rw [on_updateWorld, hf]
  exact .of_isQuiet hs hm

theorem modifyWorld {f : World Listener Callback → World Listener Callback}
    (m : Move Listener Callback) (hf : ∀ w, f w = w.after m) (hm : m.isQuiet = true) :
    Steady (Play.modifyWorld f) := fun s hs => by
  rw [on_modifyWorld, hf]
  exact .of_isQuiet hs hm

end Steady

def IsSteady (run : Runner) : Prop := ∀ steps, Steady (liftM (run steps) : Play Report)

section Runner

variable {run : Runner} {limit : Nat} {id : ConsumerId} {s : Stage}

theorem startCommit_eq (id : ConsumerId) (w : World Listener Callback) :
    (w.startCommit id).2 = w.after (.act id .startCommit) := by
  simp only [World.after, World.step, World.act]
  split <;> simp_all

theorem startCommit_eq_self {w : World Listener Callback} (h : (w.startCommit id).1 = none) :
    (w.startCommit id).2 = w := by
  simp only [World.startCommit] at h ⊢
  cases hc : w.consumer? id with
  | none => rfl
  | some c => cases hs : c.commits.start? w.cluster <;> simp_all

theorem on_runCommit (run : Runner) {commit : Commit Callback} {result : Except Failure Unit}
    (h : (s.world.startCommit id).1 = some (commit, result)) {s₁ : Stage}
    (hs₁ : s₁ = { s with world := s.world.after (.act id .startCommit) }) :
    ∃ outcome s₂, (runCommit run id).on s =
        (outcome, { s₂ with world := s₂.world.after (.act id .finishCommit) }) ∧
      ((commit.callback = none ∧ outcome = .ok () ∧ s₂ = s₁) ∨
        ∃ callback report events, commit.callback = some callback ∧
          report = ((run callback.script).run s₁).1 ∧
          s₂ = { ((run callback.script).run s₁).2 with events } ∧
          (report.stop ≠ some .exhausted → outcome = .ok ())) := by
  unfold runCommit
  rw [on_bind, on_updateWorld, startCommit_eq, h, ← hs₁]
  dsimp only
  cases hcallback : commit.callback with
  | none => exact ⟨_, _, rfl, .inl ⟨rfl, rfl, rfl⟩⟩
  | some callback =>
    simp only [on_bind, on_run, on_modify, on_modifyWorld]
    cases hstop : ((run callback.script).run s₁).1.stop with
    | none => exact ⟨_, _, rfl, .inr ⟨callback, _, _, rfl, rfl, rfl, fun _ => rfl⟩⟩
    | some stop =>
      cases stop with
      | exhausted => exact ⟨_, _, rfl, .inr ⟨callback, _, _, rfl, rfl, rfl, fun h => absurd hstop h⟩⟩
      | _ => exact ⟨_, _, rfl, .inr ⟨callback, _, _, rfl, rfl, rfl, fun _ => rfl⟩⟩

/-- A commit that is due runs, and is over when the next part of the scenario begins. -/
theorem leads_runCommit (hrun : IsSteady run) (id : ConsumerId) (hs : s.Sound)
    (hdue : ∀ due, s.world.due? id = some due → due ≤ s.world.clock) :
    Leads none s ((runCommit run id).on s).2 := by
  have hs₁ : Sound { s with world := s.world.after (.act id .startCommit) } :=
    hs.after fun _ _ _ => by simp [Move.resumes, Move.act?]
  cases hstarted : (s.world.startCommit id).1 with
  | none =>
    have hon : ((runCommit run id).on s).2 = s := by
      unfold runCommit
      rw [on_bind, on_updateWorld, hstarted, startCommit_eq_self hstarted]
      rfl
    rw [hon]
    exact .refl _ hs
  | some started =>
    obtain ⟨outcome, s₂, hon, hcases⟩ := on_runCommit run hstarted rfl
    rw [hon]
    refine .of_commit id hdue ?_
    rcases hcases with ⟨-, -, rfl⟩ | ⟨callback, report, events, -, -, rfl, -⟩
    · exact .refl _ hs₁
    · have hscript := hrun callback.script _ hs₁
      exact hscript.trans (.of_fewer hscript.sound rfl fun _ _ h => h)

theorem does_advance (hs : s.Sound) {time : Time} (horderly : s.world.Orderly (.advance time)) :
    Does none s (modifyWorld (·.advance time)) fun _ s' =>
      s' = { s with world := s.world.after (.advance time) } := by
  refine ⟨.of_move (m := .advance time) hs horderly (by simp) ?_, fun _ _ h => ?_⟩
  · simp [Move.resumes, Move.act?]
  · cases h
    rfl

theorem steady_passUntil (hrun : IsSteady run) (bound : Nat) (time : Time) :
    Steady (passUntil run bound time) := by
  induction bound with
  | zero => exact .throw _
  | succ bound ih =>
    refine fun s hs => (?_ : Does none s _ fun _ _ => True).leads
    unfold passUntil
    refine .get_bind ?_
    dsimp only
    split
    next hnone =>
      have hpass := does_advance hs (World.orderly_advance_of_none hnone)
      exact ⟨hpass.leads, fun _ _ _ => trivial⟩
    next id due hnext =>
      have hdue : s.world.due? id = some due := (World.nextDue?_eq_some hnext).1
      have hpass := does_advance hs (World.orderly_advance_of_some hnext)
      refine hpass.bind fun _ s₁ heq hs₁ => ?_
      have hnow : ∀ due', s₁.world.due? id = some due' → due' ≤ s₁.world.clock := by
        subst heq
        intro due' hdue'
        cases hdue.symm.trans hdue'
        exact Nat.le_max_right ..
      have hcommit : Does none s₁ (runCommit run id) fun _ _ => True :=
        ⟨leads_runCommit hrun id hs₁ hnow, fun _ _ _ => trivial⟩
      exact hcommit.bind fun _ _ _ hs₂ => ih.does hs₂ none

theorem steady_drainUntil (hrun : IsSteady run) (limit : Nat) (id : ConsumerId)
    (deadline : Option Time) (bound : Nat) : Steady (drainUntil limit run id deadline bound) := by
  have hpass (time : Time) : Steady (passUntil run limit time) := steady_passUntil hrun limit time
  induction bound with
  | zero => exact .throw _
  | succ bound ih =>
    unfold drainUntil
    refine Steady.get.bind fun s => ?_
    dsimp only
    split
    · exact .pure ()
    · split
      · exact (hpass _).bind fun _ => ih
      · split
        · exact (hpass _).bind fun _ => ih
        · exact hpass _
      · exact hpass _
      · exact .pure ()

theorem steady_tell (hrun : IsSteady run) (listener : Listener) (call : Call) (id : ConsumerId) :
    Steady (tell run listener call id) := by
  unfold tell
  refine Steady.get.bind fun s => (hrun (listener.script call)).bind fun report => .bind ?_ fun _ => ?_
  · exact .modify (fun _ => rfl) fun _ => rfl
  · split
    · exact .throw _
    · exact .pure ()

def Stopped (id : ConsumerId) (progress : Progress Listener) (s : Stage) : Prop :=
  (∃ result, progress = .answered result) ∨
    ∃ activity, progress.Stops activity ∧ s.Stands id activity

theorem does_proceed {activity : Activity Listener} (hs : s.Sound) (hstands : s.Stands id activity) :
    Does (some id) s (updateWorld (·.proceed id)) (Stopped id) := by
  have hafter : (s.world.proceed id).2 = s.world.after (.act id .proceed) := by
    simp [World.after, World.step, World.act, hstands.held]
  have houtcome : s.world.outcome (.act id .proceed) = .progress (s.world.proceed id).1 := by
    simp [World.outcome, World.step, World.act, hstands.held]
  refine ⟨?_, ?_⟩
  · rw [on_updateWorld, hafter]
    refine .of_move hs trivial (by simp) fun id' hresumes => ?_
    rcases Move.resumes_iff.1 hresumes with h | h <;> cases h
    exact ⟨rfl, hstands.apart⟩
  · rintro progress s' h
    simp only [on_updateWorld, hafter, Prod.mk.injEq, Except.ok.injEq] at h
    obtain ⟨rfl, rfl⟩ := h
    refine (World.stops_after houtcome).imp_right ?_
    rintro ⟨activity, hstops, hholder⟩
    exact ⟨activity, hstops, hholder, hstands.apart⟩

theorem does_tellOrAbandon (hrun : IsSteady run) (listener : Listener) (call : Call)
    {activity : Activity Listener} (hs : s.Sound) (htelling : activity.isTelling = true)
    (hstands : s.Stands id activity) :
    Does (some id) s
      (tryCatch (tell run listener call id) fun stop => do
        modifyWorld (·.abandon id)
        throw stop)
      fun _ s' => s'.Stands id activity := by
  have htell := steady_tell hrun listener call id
  refine (htell.does_stands hs hstands _).tryCatch fun e s' hr hs' => ?_
  have hstands' := htell.stands hs hstands
  rw [hr] at hstands'
  have hafter : s'.world.abandon id = s'.world.after (.act id .abandon) := by
    simp [World.after, World.step, World.act, hstands'.held, htelling]
  have habandon : Does (some id) s' (modifyWorld (·.abandon id)) fun _ _ => True := by
    refine ⟨?_, fun _ _ _ => trivial⟩
    rw [on_modifyWorld, hafter]
    refine .of_move hs' trivial (by simp) fun id' hresumes => ?_
    rcases Move.resumes_iff.1 hresumes with h | h <;> cases h
    exact ⟨rfl, hstands'.apart⟩
  exact habandon.bind fun _ _ _ hs'' => .of_throw hs'' e

theorem on_follow_answered (limit : Nat) (run : Runner) (id : ConsumerId) (bound : Nat)
    (result : Except Failure Reply) (s : Stage) :
    (follow limit run id bound (.answered result)).on s =
      ((result.mapError .failure).map .inl, s) := by
  cases bound <;> cases result <;> rfl

theorem on_carryOut_answered {r : Request Listener Callback} {result : Except Failure Reply}
    (h : (s.world.request id r).1 = .answered result) :
    (carryOut limit run id r).on s =
      (result.mapError .failure, { s with world := (s.world.request id r).2 }) := by
  simp only [carryOut, on_bind, on_updateWorld, h, on_follow_answered]
  cases result <;> rfl

theorem on_request_of_unknown {c : String} {r : Request Listener Callback} {wait : Bool}
    (hname : s.names.get? c = none) :
    (perform limit run (.request c r wait)).on s = (.error (.unknownName c), s) := by
  simp only [perform, idOf, on_bind, on_get, hname, on_throw]

theorem on_request_answered {c : String} {r : Request Listener Callback} {wait : Bool}
    {result : Except Failure Reply} (hname : s.names.get? c = some id)
    (h : (s.world.request id r).1 = .answered result) :
    (perform limit run (.request c r wait)).on s =
      ((result.mapError .failure).map .ofReply, { s with world := (s.world.request id r).2 }) := by
  simp only [perform, idOf, on_bind, on_get, hname, on_pure, map_eq_pure_bind,
    on_carryOut_answered h]
  cases result <;> rfl

/-- Where an operation is carried on to the time that it waits for, it is a poll. -/
theorem does_follow (hrun : IsSteady run) (limit : Nat) (id : ConsumerId) (bound : Nat)
    (progress : Progress Listener) (hs : s.Sound) (hstopped : Stopped id progress s) :
    Does (some id) s (follow limit run id bound progress)
      fun r s' => ∀ time, r = .inr time → s'.Stands id .fetching := by
  induction bound, progress using follow.induct generalizing s with
  | case1 bound result =>
    refine .of_on hs (on_follow_answered limit run id bound result s) ?_
    rintro _ h time rfl
    cases result <;> cases h
  | case2 bound time =>
    refine .of_on (r := .ok (.inr time)) hs (by cases bound <;> rfl) fun _ _ _ _ => ?_
    obtain ⟨_, h⟩ | ⟨_, rfl, hstands⟩ := hstopped
    · cases h
    · exact hstands
  | case3 progress hanswered hwait =>
    cases progress with
    | answered result => exact absurd rfl (hanswered result)
    | waitUntil time => exact absurd rfl (hwait time)
    | _ => exact .of_throw hs .exhausted
  | case4 bound listener call ih =>
    obtain ⟨_, h⟩ | ⟨activity, htelling, hstands⟩ := hstopped
    · cases h
    simp only [follow]
    refine (does_tellOrAbandon hrun listener call hs htelling hstands).bind ?_
    intro _ s₁ hstands₁ hs₁
    exact (does_proceed hs₁ hstands₁).bind fun progress s₂ hstopped₂ hs₂ => ih progress hs₂ hstopped₂
  | case5 bound deadline ih =>
    obtain ⟨_, h⟩ | ⟨activity, -, hstands⟩ := hstopped
    · cases h
    simp only [follow]
    have hdrain := steady_drainUntil hrun limit id (some deadline) limit
    refine (hdrain.does_stands hs hstands _).bind fun _ s₁ hstands₁ hs₁ => ?_
    exact (does_proceed hs₁ hstands₁).bind fun progress s₂ hstopped₂ hs₂ => ih progress hs₂ hstopped₂

theorem does_fetchAt (hrun : IsSteady run) (limit : Nat) (time : Time) (hs : s.Sound)
    (hstands : s.Stands id .fetching) :
    Does (some id) s (fetchAt limit run id time) fun _ _ => True := by
  unfold fetchAt
  refine ((steady_passUntil hrun limit time).does_stands hs hstands _).bind ?_
  intro _ s₁ hstands₁ hs₁
  refine (does_proceed hs₁ hstands₁).bind fun progress s₂ hstopped₂ hs₂ => ?_
  refine (does_follow hrun limit id limit progress hs₂ hstopped₂).bind fun r s₃ _ hs₃ => ?_
  cases r with
  | inl reply => exact (Steady.pure reply).does hs₃ _
  | inr time => exact (Steady.throw _).does hs₃ _

theorem does_request (hs : s.Sound) (hfree : s.world.holder? id = none)
    (r : Request Listener Callback) :
    Does (some id) s (updateWorld (·.request id r)) (Stopped id) := by
  have houtcome : s.world.outcome (.act id (.request r)) = .progress (s.world.request id r).1 := rfl
  have hapart : ∀ name, ¬ s.Waits name id := hs.apart (by simp [hfree])
  refine ⟨.of_isQuiet (m := .act id (.request r)) hs rfl, ?_⟩
  rintro progress s' h
  simp only [on_updateWorld, Prod.mk.injEq, Except.ok.injEq] at h
  obtain ⟨rfl, rfl⟩ := h
  refine (World.stops_after houtcome).imp_right ?_
  rintro ⟨activity, hstops, hholder⟩
  exact ⟨activity, hstops, hholder, hapart⟩

/-- An operation is refused while the guard is held, and else resumes its own consumer only. -/
theorem leads_operation {p : Play α} (id : ConsumerId) (r : Request Listener Callback) (hs : s.Sound)
    (hfree : s.world.holder? id = none → Leads (some id) s (p.on s).2)
    (hrefused : s.world.request id r = (.answered (.error .concurrentAccess), s.world) →
      (p.on s).2 = s) : Leads none s (p.on s).2 := by
  cases hheld : s.world.holder? id with
  | some activity =>
    rw [hrefused (World.request_of_holder? hheld r)]
    exact .refl _ hs
  | none => exact (hfree hheld).of_free hheld

theorem steady_carryOut (hrun : IsSteady run) (limit : Nat) (id : ConsumerId)
    (r : Request Listener Callback) : Steady (carryOut limit run id r) := by
  refine fun s hs => leads_operation id r hs (fun hfree => ?_) fun hrefused => ?_
  · have hdoes : Does (some id) s (carryOut limit run id r) fun _ _ => True := by
      unfold carryOut
      refine (does_request hs hfree r).bind fun progress s₁ hstopped₁ hs₁ => ?_
      refine (does_follow hrun limit id limit progress hs₁ hstopped₁).bind fun r s₂ hr hs₂ => ?_
      cases r with
      | inl reply => exact (Steady.pure reply).does hs₂ _
      | inr time => exact does_fetchAt hrun limit time hs₂ (hr time rfl)
    exact hdoes.leads
  · simp only [carryOut, on_bind, on_updateWorld, hrefused, on_follow_answered]
    rfl

theorem does_spawn (hrun : IsSteady run) (limit : Nat) (id : ConsumerId) (hs : s.Sound)
    (hfree : s.world.holder? id = none) :
    Does (some id) s (spawn limit run id) fun spawned s' =>
      ∀ id' time, spawned = .waiting id' time → some id = some id' ∧ s'.Stands id' .fetching := by
  unfold spawn
  refine Does.tryCatch ?_ fun e s' _ hs' => .of_on hs' (on_pure _ s') (by rintro _ ⟨⟩ _ _ ⟨⟩)
  refine (does_request hs hfree .poll).bind fun progress s₁ hstopped₁ hs₁ => ?_
  refine (does_follow hrun limit id limit progress hs₁ hstopped₁).bind fun r s₂ hr hs₂ => ?_
  cases r with
  | inl reply => exact .of_on hs₂ (on_pure _ s₂) (by rintro _ ⟨⟩ _ _ ⟨⟩)
  | inr time =>
    have hstands := hr time rfl
    refine Does.get_bind ?_
    split
    · refine .of_on hs₂ (on_pure _ _) ?_
      rintro _ ⟨⟩ _ _ ⟨⟩
      exact ⟨rfl, hstands⟩
    · refine (does_fetchAt hrun limit time hs₂ hstands).bind fun reply s₃ _ hs₃ => ?_
      exact .of_on hs₃ (on_pure _ s₃) (by rintro _ ⟨⟩ _ _ ⟨⟩)

theorem steady_lookup {p : Stage → Play α} (o : Stage → Option α) (stop : Stop)
    (hsome : ∀ s a, o s = some a → p s = pure a) (hnone : ∀ s, o s = none → p s = throw stop) :
    Steady (get >>= p) := by
  refine Steady.get.bind fun s => ?_
  cases h : o s with
  | some a => exact hsome s a h ▸ .pure a
  | none => exact hnone s h ▸ .throw stop

theorem steady_idOf (name : String) : Steady (idOf name) :=
  steady_lookup (·.names.get? name) (.unknownName name) (fun s a h => by simp [h])
    fun s h => by simp [h]

theorem steady_consumerOf (name : String) : Steady (consumerOf name) :=
  steady_lookup (·.consumer? name) (.unknownName name) (fun s a h => by simp [h])
    fun s h => by simp [h]

theorem steady_poolOf (name : String) : Steady (poolOf name) :=
  steady_lookup (·.pools.get? name) (.unknownName name) (fun s a h => by simp [h])
    fun s h => by simp [h]

theorem steady_behaviourOf (j : Json) : Steady (behaviourOf j) := by
  unfold behaviourOf
  split
  · exact .pure _
  · exact .throw _

theorem steady_spawnPoll (hrun : IsSteady run) (limit : Nat) (id : ConsumerId) (name : String) :
    Steady (do
      let spawned ← spawn limit run id
      modify fun s => { s with polls := s.polls.insert name spawned }) := by
  refine fun s hs => ?_
  cases hheld : s.world.holder? id with
  | none =>
    have hdoes : Does (some id) s (do
        let spawned ← spawn limit run id
        modify fun s => { s with polls := s.polls.insert name spawned }) fun _ _ => True := by
      refine (does_spawn hrun limit id hs hheld).bind fun spawned s₁ hspawned hs₁ => ?_
      exact ⟨.of_insert hs₁ name hspawned, fun _ _ _ => trivial⟩
    exact hdoes.leads.of_free hheld
  | some activity =>
    have hspawn : (spawn limit run id).on s =
        (.ok (.ended (.error (.failure .concurrentAccess))), s) := by
      simp only [spawn, on_tryCatch, on_bind, on_updateWorld, World.request_of_holder? hheld,
        on_follow_answered]
      rfl
    rw [on_bind, hspawn]
    refine .of_insert hs name ?_
    rintro id' time ⟨⟩

/-- Nobody else takes the answer of a poll that is joined. -/
theorem leads_join (hrun : IsSteady run) (limit : Nat) {name : String} {spawned : Spawned}
    (hs : s.Sound) (hspawned : s.polls.get? name = some spawned) :
    Leads none s (Play.on (do
      modify fun s => { s with polls := s.polls.erase name }
      join limit run spawned) s).2 := by
  have herase (except : Option ConsumerId) :
      Leads except s { s with polls := s.polls.erase name } :=
    .of_fewer hs rfl fun name' id h => (waits_of_erase h).2
  rw [on_bind, on_modify]
  cases spawned with
  | ended result => cases result <;> exact herase none
  | waiting id time =>
    have hwaits : s.Waits name id := ⟨time, hspawned⟩
    have hstands : Stands { s with polls := s.polls.erase name } id .fetching := by
      refine ⟨hs.fetching name id hwaits, fun name' h => ?_⟩
      obtain ⟨hne, hwaits'⟩ := waits_of_erase h
      exact hne (hs.unique name' name id hwaits' hwaits)
    have hleads := (herase (some id)).trans
      (does_fetchAt hrun limit time (herase none).sound hstands).leads
    exact hleads.of_not_stands fun activity h => h.apart name hwaits

theorem steady_handOut (name : String) (options : Options) (as : String) :
    Steady (handOut name options as) := by
  unfold handOut
  refine (steady_poolOf name).bind fun pool s hs => (?_ : Does none s _ fun _ _ => True).leads
  refine .get_bind ?_
  have hout : Does none s (orFail (pool.handOut options s.world)) fun out s' =>
      s' = s ∧ pool.handOut options s.world = .ok out := by
    refine .of_on hs (on_orFail _ s) fun out h => ⟨rfl, ?_⟩
    cases hr : pool.handOut options s.world <;> simp_all [Except.mapError]
  refine hout.bind ?_
  rintro ⟨id, pool', world⟩ s ⟨rfl, hok⟩ -
  obtain ⟨-, -, rfl⟩ := Pool.handOut_eq_ok hok
  have hmove : Leads none s
      { s with world := s.world.after (.act id (.request (.configure options))) } :=
    .of_isQuiet hs rfl
  refine Does.bind ⟨hmove.trans (.of_fewer hmove.sound rfl fun _ _ h => h), fun _ _ _ => trivial⟩ ?_
  intro _ s₁ _ hs₁
  refine Steady.does (Steady.get.bind fun s => ?_) hs₁ none
  split
  · exact .pure _
  · exact .bind (.modify (fun _ => rfl) fun _ => rfl) fun _ => .pure _

theorem steady_create (b : Behaviour) : Steady (updateWorld (·.create b)) :=
  .updateWorld (.create b) (fun _ => rfl) rfl

theorem steady_createMany (b : Behaviour) (n : Nat) : Steady (createMany b n) := by
  induction n with
  | zero => exact .pure []
  | succ n ih =>
    unfold createMany
    exact (steady_create b).bind fun id => ih.bind fun ids => .pure (id :: ids)

theorem steady_set {f : Stage → Stage} (hworld : ∀ s, (f s).world = s.world)
    (hpolls : ∀ s, (f s).polls = s.polls) (value : Value) : Steady (do modify f; pure value) :=
  .bind (.modify hworld hpolls) fun _ => .pure value

theorem steady_cluster (limit : Nat) (run : Runner) (step : ClusterStep) :
    Steady (perform limit run (.cluster step)) := by
  intro s hs
  refine (Does.get_bind (?_ : Does none s _ fun _ _ => True)).leads
  cases hstep : step.run s.world.cluster with
  | ok out =>
    have heq : { s.world with cluster := out.2 } = s.world.after (.cluster step) := by
      simp [World.after, World.step, World.stepCluster, hstep]
    refine Does.bind ⟨?_, fun _ _ _ => trivial⟩ fun _ _ _ hs' => (Steady.pure out.1).does hs' none
    rw [on_modifyWorld, heq]
    exact .of_isQuiet hs rfl
  | error e => exact (Steady.throw e).does hs none

theorem steady_asking (hrun : IsSteady run) (limit : Nat) {step : Step} (h : step.asks = true) :
    Steady (perform limit run step) := by
  have hcarryOut (id : ConsumerId) (r : Request Listener Callback) :
      Steady (carryOut limit run id r) := steady_carryOut hrun limit id r
  cases step with
  | configure c options =>
    refine (Steady.orFail _).bind fun options => (steady_idOf c).bind fun id => ?_
    exact (hcarryOut id _).map _
  | subscribePattern c pattern listener =>
    simp only [perform]
    split
    · exact (steady_idOf c).bind fun id => (hcarryOut id _).map _
    · exact .throw _
  | request c r wait => exact (steady_idOf c).bind fun id => (hcarryOut id r).map _
  | commitBlocking => exact (Steady.orFail _).map _
  | positions c ps =>
    refine (steady_idOf c).bind fun id => .bind (.mapM (fun p => ?_) ps) fun results => .pure _
    refine .tryCatch ((hcarryOut id (.position p)).bind fun reply => ?_) fun stop => ?_
    · split <;> exact .pure _
    · split
      · exact .pure _
      · exact .throw _
  | _ => cases h

theorem steady_beside (hrun : IsSteady run) (limit : Nat) {step : Step} (h : step.isBeside = true) :
    Steady (perform limit run step) := by
  cases step with
  | spawnPoll c =>
    refine (steady_idOf c).bind fun id => ?_
    have hspawn := (steady_spawnPoll hrun limit id c).bind fun _ => Steady.pure Value.unit
    simpa only [bind_assoc] using hspawn
  | joinPoll c =>
    intro s hs
    refine (Does.get_bind (?_ : Does none s _ fun _ _ => True)).leads
    cases hspawned : s.polls.get? c with
    | some spawned =>
      have hjoin : Does none s _ fun _ _ => True :=
        ⟨leads_join hrun limit hs hspawned, fun _ _ _ => trivial⟩
      have hreply := hjoin.bind fun reply _ _ hs' => (Steady.pure (Value.ofReply reply)).does hs' none
      simp only [map_eq_pure_bind]
      simpa only [bind_assoc] using hreply
    | none => exact (Steady.throw _).does hs none
  | _ => cases h

theorem steady_pooling (limit : Nat) (run : Runner) {step : Step} (h : step.isPooling = true) :
    Steady (perform limit run step) := by
  cases step with
  | poolNew pool consumers =>
    refine (Steady.mapM steady_idOf consumers).bind fun ids => ?_
    refine steady_set ?_ ?_ _ <;> intro s <;> rfl
  | poolWithCapacity pool behaviour size =>
    refine (steady_behaviourOf behaviour).bind fun b => (steady_createMany b size).bind fun ids => ?_
    refine steady_set ?_ ?_ _ <;> intro s <;> rfl
  | poolCreate pool options as =>
    exact (Steady.orFail _).bind fun options => (steady_handOut pool options as).map _
  | poolAdd pool c =>
    refine (steady_poolOf pool).bind fun p => (steady_idOf c).bind fun id => ?_
    refine steady_set ?_ ?_ _ <;> intro s <;> rfl
  | poolState pool =>
    exact (steady_poolOf pool).bind fun p => Steady.get.bind fun s => .pure _
  | _ => cases h

theorem steady_perform (hrun : IsSteady run) (limit : Nat) (step : Step) :
    Steady (perform limit run step) := by
  cases step with
  | cluster step => exact steady_cluster limit run step
  | configure | subscribePattern | request | commitBlocking | positions =>
    exact steady_asking hrun limit rfl
  | spawnPoll | joinPoll => exact steady_beside hrun limit rfl
  | poolNew | poolWithCapacity | poolCreate | poolAdd | poolState =>
    exact steady_pooling limit run rfl
  | new c behaviour =>
    refine (steady_behaviourOf behaviour).bind fun b => (steady_create b).bind fun id => ?_
    refine steady_set ?_ ?_ _ <;> intro s <;> rfl
  | drop c =>
    refine Steady.get.bind fun s => ?_
    refine steady_set ?_ ?_ _ <;> intro s <;> rfl
  | drain c =>
    refine (steady_idOf c).bind fun id => ?_
    exact (steady_drainUntil hrun limit id none limit).bind fun _ => Steady.get.bind fun s => .pure _
  | addFault c kind fault count =>
    refine (steady_idOf c).bind fun id => .bind ?_ fun _ => .pure _
    exact .modifyWorld (.act id (.addFault kind fault count)) (fun _ => rfl) rfl
  | inFlight c | groupId c | behaviour c | inspect c | wakeup c | debug c =>
    exact (steady_consumerOf c).bind fun consumer => .pure _
  | sleep time =>
    exact Steady.get.bind fun s => (steady_passUntil hrun limit _).bind fun _ => .pure _
  | metrics =>
    exact .bind (.updateWorld .resetCounters (fun _ => rfl) rfl) fun totals => .pure _
  | panic message => exact .throw _

theorem steady_awaitCommits (hrun : IsSteady run) (limit : Nat) (step : Step) :
    Steady (awaitCommits limit run step) := by
  refine Steady.get.bind fun s => ?_
  split
  · exact steady_drainUntil hrun limit _ none limit
  · exact .pure ()

end Runner

end Play

open Stage Play

variable {s : Stage}

def Stop.ends : Stop → Bool
  | panic _ | exhausted => true
  | _ => false

/-- A script goes on after the answer of a step, or the step ends it. -/
theorem runScript_cons (perform : Step → Play Value) (step : Step) (rest : List Step) (s : Stage)
    {outcome : Except Stop Value} {t : Stage} (hstep : (perform step).on s = (outcome, t))
    {after : Report × Stage} (hafter : after = (runScript perform rest).run t) :
    (∃ stop, outcome = .error stop ∧ stop.ends = true ∧
        (runScript perform (step :: rest)).run s = (⟨[], some stop⟩, t)) ∨
      (∀ stop, outcome = .error stop → stop.ends = false) ∧
        (runScript perform (step :: rest)).run s =
          (⟨⟨outcome, step.shown?.bind t.view?⟩ :: after.1.answers, after.1.stop⟩, after.2) := by
  subst hafter
  have hrun : (perform step).run.run s = (outcome, t) := hstep
  simp only [runScript, StateT.run_bind, hrun]
  cases outcome with
  | ok value => exact .inr ⟨nofun, rfl⟩
  | error stop =>
    cases stop with
    | panic | exhausted => exact .inl ⟨_, rfl, rfl, rfl⟩
    | _ => exact .inr ⟨by simp [Stop.ends], rfl⟩

theorem leads_runScript {perform : Step → Play Value} (hperform : ∀ step, Steady (perform step))
    (steps : List Step) (hs : s.Sound) : Leads none s ((runScript perform steps).run s).2 := by
  induction steps generalizing s with
  | nil => exact .refl _ hs
  | cons step rest ih =>
    have hstep := hperform step s hs
    rcases runScript_cons perform step rest s rfl rfl with ⟨_, -, -, heq⟩ | ⟨-, heq⟩
    · rw [heq]
      exact hstep
    · rw [heq]
      exact hstep.trans (ih hstep.sound)

theorem isSteady_runWithin (limit : Nat) : IsSteady (runWithin limit) := by
  induction limit with
  | zero => exact fun _ => .of_on fun _ => rfl
  | succ limit ih => exact fun steps s hs => leads_runScript (steady_perform ih limit) steps hs

theorem leads_playStep (limit : Nat) (step : Step) (hs : s.Sound) :
    Leads none s ((playStep limit step).run s).2 := by
  have hrun := isSteady_runWithin limit
  have hclear : Leads none s { s with events := [] } := .of_fewer hs rfl fun _ _ h => h
  have hstep := steady_perform hrun limit step _ hclear.sound
  exact hclear.trans (hstep.trans (steady_awaitCommits hrun limit step _ hstep.sound))

def stageAfter (limit : Nat) (steps : List Step) : Stage :=
  ((steps.mapM (playStep limit)).run .initial).2

theorem leads_stageAfter (limit : Nat) (steps : List Step) :
    Leads none .initial (stageAfter limit steps) := by
  unfold stageAfter
  have hs := sound_initial
  generalize Stage.initial = s at hs
  induction steps generalizing s with
  | nil => exact .refl _ hs
  | cons step steps ih =>
    rw [List.mapM_cons]
    have hstep := leads_playStep limit step hs
    exact hstep.trans (ih _ hstep.sound)

/-- What a scenario does to its world is an orderly run. -/
theorem world_stageAfter (limit : Nat) (steps : List Step) :
    ∃ ms, (stageAfter limit steps).world = World.initial.run ms ∧
      World.initial.Throughout World.Orderly ms := by
  obtain ⟨ms, hworld, horderly, -⟩ := (leads_stageAfter limit steps).moves
  exact ⟨ms, hworld, horderly⟩

/-- The script of a listener never resumes the consumer that calls the listener, which stays as it
was but for its faults and commits. -/
theorem isHeld_script {id : ConsumerId} {c : Consumer Listener Callback}
    {activity : Activity Listener} (hs : s.Sound) (hheld : s.world.IsHeld activity c id)
    (htelling : activity.isTelling = true) (limit : Nat) (script : List Step) :
    ∃ ms, ((runWithin limit script).run s).2.world = s.world.run ms ∧
      (∀ m ∈ ms, m.resumes id = false) ∧ (s.world.run ms).IsHeld activity c id := by
  have hne : s.world.holder? id ≠ some .fetching := by
    rw [hheld.holder?]
    rintro ⟨⟩
    cases htelling
  have hstands : s.Stands id activity := ⟨hheld.holder?, hs.apart hne⟩
  obtain ⟨ms, hworld, -, hms⟩ := (isSteady_runWithin limit script s hs).moves
  have hresumes := (hms id activity nofun hstands).1
  exact ⟨ms, hworld, hresumes, World.isHeld_run hheld hresumes⟩

end LogConsumer
