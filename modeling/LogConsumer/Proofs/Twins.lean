import LogConsumer.Proofs.Scripts
import LogConsumer.Proofs.Unpaused
import Mathlib.Data.List.Forall2

/-! Two stages side by side, of a scenario and of what is left of it when nothing may be paused. All that
they differ in is which partitions are paused, and each part of the scenario keeps it so and has the same
result on both. Main statement: `alike_perform`. -/
namespace LogConsumer

variable {α β γ δ : Type}

section

variable (steps : List Step)

/-- A world as it is, when nobody asks where its listeners and callbacks come from. -/
def whole : Recast (ListenerIn steps) (CallbackIn steps) Listener Callback :=
  ⟨Subtype.val, Subtype.val, id, rfl⟩

/-- A world in which nothing is paused, nor will be. -/
def stripped : Recast (ListenerIn steps) (CallbackIn steps) Listener Callback :=
  ⟨unpausedListener ∘ Subtype.val, unpausedCallback ∘ Subtype.val, fun _ => .empty, rfl⟩

/-- Two stages of one scenario that differ only in what is paused. -/
structure Stage.Twin (s s' : Stage) : Prop where
  /-- Behind both is one world, whose listeners and callbacks are those of the scenario. -/
  world : ∃ w : World (ListenerIn steps) (CallbackIn steps),
    s.world = w.recast (whole steps) ∧ s'.world = w.recast (stripped steps)
  names : s'.names = s.names
  pools : s'.pools = s.pools
  polls : s'.polls = s.polls
  events : List.Forall₂ (Event.Twin steps) s.events s'.events

end

variable {steps : List Step} {s s' : Stage}

theorem exists_request {r : Request Listener Callback}
    (hlistener : ∀ listener, r.listener? = some listener → listener.OccursIn steps)
    (hcallback : ∀ callback, r.callback? = some callback → callback.OccursIn steps) :
    ∃ r₀ : Request (ListenerIn steps) (CallbackIn steps), r₀.pauses = r.pauses ∧
      r = r₀.map (whole steps).listener (whole steps).callback ∧
      unpausedRequest r = r₀.map (stripped steps).listener (stripped steps).callback := by
  refine ⟨r.attachWith _ _ hlistener hcallback, r.pauses_attachWith .., ?_, ?_⟩
  · exact r.map_id_id.symm.trans (r.map_attachWith id id hlistener hcallback).symm
  · rw [unpausedRequest_eq]
    exact (r.map_attachWith unpausedListener unpausedCallback hlistener hcallback).symm

namespace Stage.Twin

theorem clock (h : Twin steps s s') : s'.world.clock = s.world.clock := by
  obtain ⟨w, hw, hw'⟩ := h.world
  rw [hw, hw']
  rfl

theorem cluster (h : Twin steps s s') : s'.world.cluster = s.world.cluster := by
  obtain ⟨w, hw, hw'⟩ := h.world
  rw [hw, hw']
  rfl

theorem inFlight (h : Twin steps s s') (id : ConsumerId) :
    s'.world.inFlight id = s.world.inFlight id := by
  obtain ⟨w, hw, hw'⟩ := h.world
  rw [hw, hw', World.inFlight_recast, World.inFlight_recast]

theorem nextDue? (h : Twin steps s s') (time : Time) :
    s'.world.nextDue? time = s.world.nextDue? time := by
  obtain ⟨w, hw, hw'⟩ := h.world
  rw [hw, hw', World.nextDue?_recast, World.nextDue?_recast]

theorem world_consumer? (h : Twin steps s s') (id : ConsumerId) :
    ∃ c : Option (Consumer (ListenerIn steps) (CallbackIn steps)),
      s.world.consumer? id = c.map (.recast (whole steps)) ∧
        s'.world.consumer? id = c.map (.recast (stripped steps)) := by
  obtain ⟨w, hw, hw'⟩ := h.world
  exact ⟨w.consumer? id, by rw [hw, World.consumer?_recast], by rw [hw', World.consumer?_recast]⟩

theorem consumer? (h : Twin steps s s') (name : String) :
    ∃ c : Option (Consumer (ListenerIn steps) (CallbackIn steps)),
      s.consumer? name = c.map (.recast (whole steps)) ∧
        s'.consumer? name = c.map (.recast (stripped steps)) := by
  simp only [Stage.consumer?, h.names]
  cases s.names.get? name with
  | none => exact ⟨none, rfl, rfl⟩
  | some id => exact h.world_consumer? id

theorem map_consumer? (h : Twin steps s s') (id : ConsumerId) (f : Consumer Listener Callback → α)
    (hf : ∀ c : Consumer (ListenerIn steps) (CallbackIn steps),
      f (c.recast (stripped steps)) = f (c.recast (whole steps))) :
    (s'.world.consumer? id).map f = (s.world.consumer? id).map f := by
  obtain ⟨c, hc, hc'⟩ := h.world_consumer? id
  rw [hc, hc']
  cases c with
  | none => rfl
  | some c => exact congrArg some (hf c)

theorem view? (h : Twin steps s s') (name : String) :
    s'.view? name = (s.view? name).map .unpaused := by
  obtain ⟨c, hc, hc'⟩ := h.consumer? name
  simp only [Stage.view?, hc, hc']
  cases c with
  | none => rfl
  | some c =>
    have htopics := (c.subscription.topics_recast (stripped steps)).trans
      (c.subscription.topics_recast (whole steps)).symm
    exact congrArg (fun topics => some (View.mk c.subscription.assignment topics .empty c.closed))
      htopics

theorem nameOf? (h : Twin steps s s') (id : ConsumerId) : s'.nameOf? id = s.nameOf? id := by
  simp only [Stage.nameOf?, h.names]

theorem record {e e' : Event} (h : Twin steps s s') (he : Event.Twin steps e e') :
    Twin steps (s.record e) (s'.record e') :=
  { h with events := List.rel_append h.events (.cons he .nil) }

theorem shown? (h : Twin steps s s') (step : Step) :
    step.unpaused.shown?.bind s'.view? = (step.shown?.bind s.view?).map .unpaused := by
  rw [Step.shown?_unpaused]
  cases step.shown? with
  | none => rfl
  | some name => exact h.view? name

protected theorem initial : Twin steps .initial .initial where
  world := ⟨.initial, rfl, rfl⟩
  names := rfl
  pools := rfl
  polls := rfl
  events := .nil

end Stage.Twin

namespace Play

/-- Two parts of scenarios have results that correspond, or stop for the same reason. -/
inductive SameEnd (R : α → β → Prop) : Except Stop α → Except Stop β → Prop
  | ok {a : α} {b : β} (h : R a b) : SameEnd R (.ok a) (.ok b)
  | error (stop : Stop) : SameEnd R (.error stop) (.error stop)

theorem SameEnd.eq {r r' : Except Stop α} (h : SameEnd Eq r r') : r = r' := by
  cases h with
  | ok h => exact congrArg _ h
  | error stop => rfl

/-- From stages that differ only in what is paused, two parts of scenarios end alike and lead to such
stages. -/
def Alike (steps : List Step) (R : α → β → Prop) (p : Play α) (p' : Play β) : Prop :=
  ∀ s s', Stage.Twin steps s s' →
    SameEnd R (p.on s).1 (p'.on s').1 ∧ Stage.Twin steps (p.on s).2 (p'.on s').2

namespace Alike

variable {R : α → β → Prop} {S : γ → δ → Prop} {p : Play α} {p' : Play β}

theorem pure {a : α} {b : β} (h : R a b) : Alike steps R (Pure.pure a) (Pure.pure b) :=
  fun _ _ htwin => ⟨.ok h, htwin⟩

theorem throw (stop : Stop) :
    Alike steps R (MonadExcept.throw stop : Play α) (MonadExcept.throw stop : Play β) :=
  fun _ _ htwin => ⟨.error stop, htwin⟩

theorem bind {f : α → Play γ} {f' : β → Play δ} (hp : Alike steps R p p')
    (hf : ∀ a b, R a b → Alike steps S (f a) (f' b)) : Alike steps S (p >>= f) (p' >>= f') := by
  intro s s' htwin
  obtain ⟨hend, htwin⟩ := hp s s' htwin
  rw [on_bind, on_bind]
  cases hr : p.on s with
  | mk r t =>
    cases hr' : p'.on s' with
    | mk r' t' =>
      rw [hr, hr'] at hend htwin
      cases hend with
      | ok h => exact hf _ _ h t t' htwin
      | error stop => exact ⟨.error stop, htwin⟩

theorem tryCatch {f : Stop → Play α} {f' : Stop → Play β} (hp : Alike steps R p p')
    (hf : ∀ stop, Alike steps R (f stop) (f' stop)) :
    Alike steps R (MonadExcept.tryCatch p f) (MonadExcept.tryCatch p' f') := by
  intro s s' htwin
  obtain ⟨hend, htwin⟩ := hp s s' htwin
  rw [on_tryCatch, on_tryCatch]
  cases hr : p.on s with
  | mk r t =>
    cases hr' : p'.on s' with
    | mk r' t' =>
      rw [hr, hr'] at hend htwin
      cases hend with
      | ok h => exact ⟨.ok h, htwin⟩
      | error stop => exact hf stop t t' htwin

theorem map {f : α → γ} {f' : β → δ} (hp : Alike steps R p p')
    (hf : ∀ a b, R a b → S (f a) (f' b)) : Alike steps S (f <$> p) (f' <$> p') := by
  rw [map_eq_pure_bind, map_eq_pure_bind]
  exact hp.bind fun a b h => .pure (hf a b h)

theorem andThen {p p' : Play α} {f : α → Play γ} {f' : α → Play δ} (hp : Alike steps Eq p p')
    (hf : ∀ a, Alike steps S (f a) (f' a)) : Alike steps S (p >>= f) (p' >>= f') :=
  hp.bind fun a _ h => h ▸ hf a

theorem get : Alike steps (Stage.Twin steps) MonadState.get MonadState.get :=
  fun _ _ htwin => ⟨.ok htwin, htwin⟩

theorem orFail (x : Except Failure α) : Alike steps Eq (Play.orFail x) (Play.orFail x) := by
  cases x with
  | ok a => exact .pure rfl
  | error e => exact .throw _

theorem modify {f f' : Stage → Stage}
    (h : ∀ s s', Stage.Twin steps s s' → Stage.Twin steps (f s) (f' s')) :
    Alike steps Eq (modify f : Play Unit) (modify f') :=
  fun s s' htwin => ⟨.ok rfl, h s s' htwin⟩

theorem updateWorld {f : World Listener Callback → α × World Listener Callback}
    {f' : World Listener Callback → β × World Listener Callback} {out : γ → α} {out' : γ → β}
    (g : World (ListenerIn steps) (CallbackIn steps) →
      γ × World (ListenerIn steps) (CallbackIn steps))
    (hf : ∀ w, f (w.recast (whole steps)) = (out (g w).1, (g w).2.recast (whole steps)))
    (hf' : ∀ w, f' (w.recast (stripped steps)) = (out' (g w).1, (g w).2.recast (stripped steps))) :
    Alike steps (fun a b => ∃ c, a = out c ∧ b = out' c) (Play.updateWorld f) (Play.updateWorld f') := by
  intro s s' htwin
  obtain ⟨w, hw, hw'⟩ := htwin.world
  simp only [on_updateWorld, hw, hw', hf, hf']
  exact ⟨.ok ⟨_, rfl, rfl⟩, { htwin with world := ⟨_, rfl, rfl⟩ }⟩

theorem updateWorld_same {f : World Listener Callback → α × World Listener Callback}
    (g : World (ListenerIn steps) (CallbackIn steps) →
      α × World (ListenerIn steps) (CallbackIn steps))
    (hf : ∀ R : Recast (ListenerIn steps) (CallbackIn steps) Listener Callback, ∀ w,
      f (w.recast R) = ((g w).1, (g w).2.recast R)) :
    Alike steps Eq (Play.updateWorld f) (Play.updateWorld f) := by
  intro s s' htwin
  obtain ⟨w, hw, hw'⟩ := htwin.world
  simp only [on_updateWorld, hw, hw', hf]
  exact ⟨.ok rfl, { htwin with world := ⟨_, rfl, rfl⟩ }⟩

theorem modifyWorld {f : World Listener Callback → World Listener Callback}
    (g : World (ListenerIn steps) (CallbackIn steps) → World (ListenerIn steps) (CallbackIn steps))
    (hf : ∀ R : Recast (ListenerIn steps) (CallbackIn steps) Listener Callback, ∀ w,
      f (w.recast R) = (g w).recast R) :
    Alike steps Eq (Play.modifyWorld f) (Play.modifyWorld f) := by
  intro s s' htwin
  obtain ⟨w, hw, hw'⟩ := htwin.world
  simp only [on_modifyWorld, hw, hw', hf]
  exact ⟨.ok rfl, { htwin with world := ⟨_, rfl, rfl⟩ }⟩

theorem mapM {f f' : α → Play β} (hf : ∀ a, Alike steps Eq (f a) (f' a)) (l : List α) :
    Alike steps Eq (l.mapM f) (l.mapM f') := by
  induction l with
  | nil => exact .pure rfl
  | cons a l ih =>
    rw [List.mapM_cons, List.mapM_cons]
    exact (hf a).andThen fun b => ih.andThen fun bs => .pure rfl

end Alike

def RunsAlike (steps : List Step) (run run' : Runner) : Prop :=
  ∀ script : List Step, (∀ step ∈ script, step.OccursIn steps) → ∀ s s', Stage.Twin steps s s' →
    ((run' (unpausedScript script)).run s').1 = ((run script).run s).1.unpaused script ∧
      Stage.Twin steps ((run script).run s).2 ((run' (unpausedScript script)).run s').2

theorem RunsAlike.alike {run run' : Runner} (h : RunsAlike steps run run') {script : List Step}
    (hscript : ∀ step ∈ script, step.OccursIn steps) :
    Alike steps (fun r r' => r' = r.unpaused script) (liftM (run script))
      (liftM (run' (unpausedScript script))) := by
  intro s s' htwin
  obtain ⟨hreport, htwin'⟩ := h script hscript s s' htwin
  rw [on_run, on_run]
  exact ⟨.ok hreport, htwin'⟩

section Runner

variable {run run' : Runner} {limit : Nat}

theorem alike_proceed (id : ConsumerId) :
    Alike steps
      (fun p p' => ∃ q : Progress (ListenerIn steps),
        p = q.map (whole steps).listener ∧ p' = q.map (stripped steps).listener)
      (updateWorld (·.proceed id)) (updateWorld (·.proceed id)) :=
  .updateWorld (·.proceed id) (World.proceed_recast _ · id) (World.proceed_recast _ · id)

theorem alike_request (id : ConsumerId) {r : Request (ListenerIn steps) (CallbackIn steps)}
    (hr : r.pauses = false) :
    Alike steps
      (fun p p' => ∃ q : Progress (ListenerIn steps),
        p = q.map (whole steps).listener ∧ p' = q.map (stripped steps).listener)
      (updateWorld (·.request id (r.map (whole steps).listener (whole steps).callback)))
      (updateWorld (·.request id (r.map (stripped steps).listener (stripped steps).callback))) :=
  .updateWorld (·.request id r) (World.request_recast _ · id (.inl hr))
    (World.request_recast _ · id (.inl hr))

theorem alike_advance (time : Time) :
    Alike steps Eq (modifyWorld (·.advance time)) (modifyWorld (·.advance time)) :=
  .modifyWorld (·.advance time) fun _ _ => rfl

theorem alike_record {e e' : Event} (h : Event.Twin steps e e') :
    Alike steps Eq (modify (·.record e)) (modify (·.record e')) :=
  .modify fun _ _ htwin => htwin.record h

theorem alike_runCommit (hrun : RunsAlike steps run run') (id : ConsumerId) :
    Alike steps Eq (runCommit run id) (runCommit run' id) := by
  have hfinish : Alike steps Eq (modifyWorld (·.finishCommit id)) (modifyWorld (·.finishCommit id)) :=
    .modifyWorld (·.finishCommit id) (World.finishCommit_recast · · id)
  unfold runCommit
  refine (Alike.updateWorld (·.startCommit id) (World.startCommit_recast _ · id)
    (World.startCommit_recast _ · id)).bind ?_
  rintro _ _ ⟨started, rfl, rfl⟩
  cases started with
  | none => exact .pure rfl
  | some started =>
    obtain ⟨⟨group, offsets, callback⟩, result⟩ := started
    cases callback with
    | none => exact hfinish
    | some callback =>
      obtain ⟨callback, outer, houter, hcallback⟩ := callback
      have hscript := hrun.alike fun step (h : step ∈ callback.script) => .called houter hcallback h
      have hevent := Event.Twin.committed ⟨outer, houter, hcallback⟩ offsets result
      simp only [Option.map_some, Commit.map, whole, stripped, Function.comp_apply,
        unpausedCallback_name, unpausedCallback_script]
      refine hscript.bind ?_
      rintro report _ rfl
      refine (alike_record (hevent report.answers)).andThen fun _ => hfinish.andThen fun _ => ?_
      simp only [Report.unpaused]
      split
      · exact .throw _
      · exact .pure rfl

theorem alike_passUntil (hrun : RunsAlike steps run run') (bound : Nat) (time : Time) :
    Alike steps Eq (passUntil run bound time) (passUntil run' bound time) := by
  induction bound with
  | zero => exact .throw _
  | succ bound ih =>
    unfold passUntil
    refine Alike.get.bind fun s s' htwin => ?_
    simp only [htwin.clock, htwin.nextDue?]
    split
    · exact alike_advance time
    · exact (alike_advance _).andThen fun _ => (alike_runCommit hrun _).andThen fun _ => ih

theorem alike_drainUntil (hrun : RunsAlike steps run run') (limit : Nat) (id : ConsumerId)
    (deadline : Option Time) (bound : Nat) :
    Alike steps Eq (drainUntil limit run id deadline bound)
      (drainUntil limit run' id deadline bound) := by
  have hpass (time : Time) := alike_passUntil hrun limit time
  induction bound with
  | zero => exact .throw _
  | succ bound ih =>
    unfold drainUntil
    refine Alike.get.bind fun s s' htwin => ?_
    have hdue : (s'.world.consumer? id).bind (·.commits.nextDue?) =
        (s.world.consumer? id).bind (·.commits.nextDue?) := by
      obtain ⟨c, hc, hc'⟩ := htwin.world_consumer? id
      rw [hc, hc']
      cases c with
      | none => rfl
      | some c => exact (Commits.nextDue?_map ..).trans (Commits.nextDue?_map ..).symm
    simp only [htwin.inFlight, hdue]
    split
    · exact .pure rfl
    · split
      · exact (hpass _).andThen fun _ => ih
      · split
        · exact (hpass _).andThen fun _ => ih
        · exact hpass _
      · exact hpass _
      · exact .pure rfl

theorem alike_tell (hrun : RunsAlike steps run run') (listener : ListenerIn steps) (call : Call)
    (id : ConsumerId) :
    Alike steps Eq (tell run ((whole steps).listener listener) call id)
      (tell run' ((stripped steps).listener listener) call id) := by
  obtain ⟨listener, outer, houter, hlistener⟩ := listener
  have hscript := hrun.alike fun step (h : step ∈ listener.script call) => .told houter hlistener h
  have hevent := Event.Twin.told ⟨outer, houter, hlistener⟩ call
  unfold tell
  simp only [whole, stripped, Function.comp_apply, unpausedListener_name, unpausedListener_script]
  refine Alike.get.bind fun s s' htwin => ?_
  rw [htwin.map_consumer? id (·.subscription.assignment) fun _ => rfl]
  refine hscript.bind ?_
  rintro report _ rfl
  refine (alike_record (hevent _ report.answers)).andThen fun _ => ?_
  simp only [Report.unpaused]
  split
  · exact .throw _
  · exact .pure rfl

theorem alike_follow (hrun : RunsAlike steps run run') (limit : Nat) (id : ConsumerId) (bound : Nat)
    (q : Progress (ListenerIn steps)) :
    Alike steps Eq (follow limit run id bound (q.map (whole steps).listener))
      (follow limit run' id bound (q.map (stripped steps).listener)) := by
  induction bound generalizing q with
  | zero =>
    cases q with
    | answered result => exact (Alike.orFail result).map fun _ _ h => congrArg _ h
    | waitUntil time => exact .pure rfl
    | tell | drainUntil => exact .throw _
  | succ bound ih =>
    have hproceed : Alike steps Eq
        (do follow limit run id bound (← updateWorld (·.proceed id)))
        (do follow limit run' id bound (← updateWorld (·.proceed id))) := by
      refine (alike_proceed id).bind ?_
      rintro _ _ ⟨q, rfl, rfl⟩
      exact ih q
    cases q with
    | answered result => exact (Alike.orFail result).map fun _ _ h => congrArg _ h
    | waitUntil time => exact .pure rfl
    | tell listener call =>
      simp only [Progress.map, follow]
      refine (Alike.tryCatch (alike_tell hrun listener call id) fun stop => ?_).andThen fun _ =>
        hproceed
      have habandon : Alike steps Eq (modifyWorld (·.abandon id)) (modifyWorld (·.abandon id)) :=
        .modifyWorld (·.abandon id) (World.abandon_recast · · id)
      exact habandon.andThen fun _ => .throw _
    | drainUntil deadline =>
      simp only [Progress.map, follow]
      exact (alike_drainUntil hrun limit id (some deadline) limit).andThen fun _ => hproceed

theorem alike_fetchAt (hrun : RunsAlike steps run run') (limit : Nat) (id : ConsumerId) (time : Time) :
    Alike steps Eq (fetchAt limit run id time) (fetchAt limit run' id time) := by
  unfold fetchAt
  refine (alike_passUntil hrun limit time).andThen fun _ => (alike_proceed id).bind ?_
  rintro _ _ ⟨q, rfl, rfl⟩
  refine (alike_follow hrun limit id limit q).andThen fun r => ?_
  cases r with
  | inl reply => exact .pure rfl
  | inr time => exact .throw _

theorem alike_carryOut (hrun : RunsAlike steps run run') (limit : Nat) (id : ConsumerId)
    {r : Request (ListenerIn steps) (CallbackIn steps)} (hr : r.pauses = false) :
    Alike steps Eq
      (carryOut limit run id (r.map (whole steps).listener (whole steps).callback))
      (carryOut limit run' id (r.map (stripped steps).listener (stripped steps).callback)) := by
  unfold carryOut
  refine (alike_request id hr).bind ?_
  rintro _ _ ⟨q, rfl, rfl⟩
  refine (alike_follow hrun limit id limit q).andThen fun r => ?_
  cases r with
  | inl reply => exact .pure rfl
  | inr time => exact alike_fetchAt hrun limit id time

theorem alike_asked (hrun : RunsAlike steps run run') (limit : Nat) (id : ConsumerId)
    {r : Request Listener Callback}
    (hlistener : ∀ listener, r.listener? = some listener → listener.OccursIn steps)
    (hcallback : ∀ callback, r.callback? = some callback → callback.OccursIn steps)
    (hr : r.pauses = false) :
    Alike steps Eq (carryOut limit run id r) (carryOut limit run' id (unpausedRequest r)) := by
  obtain ⟨r₀, hr₀, heq, heq'⟩ := exists_request hlistener hcallback
  rw [heq', heq]
  exact alike_carryOut hrun limit id (hr₀.trans hr)

theorem alike_spawn (hrun : RunsAlike steps run run') (limit : Nat) (id : ConsumerId) :
    Alike steps Eq (spawn limit run id) (spawn limit run' id) := by
  unfold spawn
  refine .tryCatch ((alike_request id (r := .poll) rfl).bind ?_) fun stop => .pure rfl
  rintro _ _ ⟨q, rfl, rfl⟩
  refine (alike_follow hrun limit id limit q).andThen fun r => ?_
  cases r with
  | inl reply => exact .pure rfl
  | inr time =>
    refine Alike.get.bind fun s s' htwin => ?_
    rw [htwin.clock]
    split
    · exact .pure rfl
    · exact (alike_fetchAt hrun limit id time).andThen fun reply => .pure rfl

theorem alike_join (hrun : RunsAlike steps run run') (limit : Nat) (spawned : Spawned) :
    Alike steps Eq (join limit run spawned) (join limit run' spawned) := by
  cases spawned with
  | ended result =>
    cases result with
    | ok reply => exact .pure rfl
    | error stop => exact .throw stop
  | waiting id time => exact alike_fetchAt hrun limit id time

theorem alike_idOf (name : String) : Alike steps Eq (idOf name) (idOf name) := by
  unfold idOf
  refine Alike.get.bind fun s s' htwin => ?_
  rw [htwin.names]
  split
  · exact .pure rfl
  · exact .throw _

theorem alike_poolOf (name : String) : Alike steps Eq (poolOf name) (poolOf name) := by
  unfold poolOf
  refine Alike.get.bind fun s s' htwin => ?_
  rw [htwin.pools]
  split
  · exact .pure rfl
  · exact .throw _

theorem alike_behaviourOf (j : Json) : Alike steps Eq (behaviourOf j) (behaviourOf j) := by
  unfold behaviourOf
  split
  · exact .pure rfl
  · exact .throw _

theorem alike_consumerOf (name : String) (f : Consumer Listener Callback → α)
    (hf : ∀ c : Consumer (ListenerIn steps) (CallbackIn steps),
      f (c.recast (stripped steps)) = f (c.recast (whole steps))) :
    Alike steps Eq (do return f (← consumerOf name)) (do return f (← consumerOf name)) := by
  have hconsumer : Alike steps (fun c c' => f c' = f c) (consumerOf name) (consumerOf name) := by
    unfold consumerOf
    refine Alike.get.bind fun s s' htwin => ?_
    obtain ⟨c, hc, hc'⟩ := htwin.consumer? name
    rw [hc, hc']
    cases c with
    | none => exact .throw _
    | some c => exact .pure (hf c)
  exact hconsumer.bind fun c c' h => .pure h.symm

theorem alike_handOut (name : String) (options : Options) (as : String) :
    Alike steps Eq (handOut name options as) (handOut name options as) := by
  unfold handOut
  refine (alike_poolOf name).andThen fun pool => Alike.get.bind fun s s' htwin => ?_
  obtain ⟨w, hw, hw'⟩ := htwin.world
  rw [hw, hw', Pool.handOut_recast, Pool.handOut_recast]
  cases pool.handOut options w with
  | error e => exact .throw _
  | ok out =>
    obtain ⟨id, pool, world⟩ := out
    simp only [Except.map, orFail, pure_bind]
    have hstage : Alike steps Eq
        (modify fun s : Stage =>
          { s with world := world.recast (whole steps), pools := s.pools.insert name pool })
        (modify fun s : Stage =>
          { s with world := world.recast (stripped steps), pools := s.pools.insert name pool }) :=
      .modify fun s s' htwin =>
        { htwin with world := ⟨world, rfl, rfl⟩, pools := congrArg (·.insert name pool) htwin.pools }
    refine hstage.andThen fun _ => Alike.get.bind fun s s' htwin => ?_
    rw [htwin.nameOf?]
    split
    · exact .pure rfl
    · refine (Alike.modify fun s s' htwin => ?_).andThen fun _ => .pure rfl
      exact { htwin with names := congrArg (·.insert as id) htwin.names }

theorem alike_create (b : Behaviour) :
    Alike steps Eq (updateWorld (·.create b)) (updateWorld (·.create b)) :=
  .updateWorld_same (·.create b) (World.create_recast · · b)

theorem alike_createMany (b : Behaviour) (n : Nat) :
    Alike steps Eq (createMany b n) (createMany b n) := by
  induction n with
  | zero => exact .pure rfl
  | succ n ih =>
    unfold createMany
    exact (alike_create b).andThen fun id => ih.andThen fun ids => .pure rfl

theorem alike_reply {p p' : Play Reply} (h : Alike steps Eq p p') :
    Alike steps Eq (Value.ofReply <$> p) (Value.ofReply <$> p') :=
  h.map fun _ _ heq => congrArg _ heq

theorem alike_set {f : Stage → Stage} (value : Value)
    (h : ∀ s s', Stage.Twin steps s s' → Stage.Twin steps (f s) (f s')) :
    Alike steps Eq (do modify f; pure value) (do modify f; pure value) :=
  (Alike.modify h).andThen fun _ => .pure rfl

theorem alike_cluster (limit : Nat) (step : ClusterStep) :
    Alike steps Eq (perform limit run (.cluster step)) (perform limit run' (.cluster step)) := by
  refine Alike.get.bind fun s s' htwin => ?_
  rw [htwin.cluster]
  split
  next value cluster _ =>
    have hcluster : Alike steps Eq (modifyWorld ({ · with cluster }))
        (modifyWorld ({ · with cluster })) := .modifyWorld ({ · with cluster }) fun _ _ => rfl
    exact hcluster.andThen fun _ => .pure rfl
  next => exact .throw _

theorem alike_asking (hrun : RunsAlike steps run run') (limit : Nat) {step : Step}
    (hstep : step.OccursIn steps) (hpauses : step.pauses = false) (h : step.asks = true) :
    Alike steps Eq (perform limit run step) (perform limit run' step.unpaused) := by
  cases step with
  | configure c options =>
    refine (Alike.orFail _).andThen fun options => (alike_idOf c).andThen fun id => ?_
    exact alike_reply (alike_carryOut hrun limit id (r := .configure options) rfl)
  | subscribePattern c pattern listener =>
    simp only [perform, Step.unpaused]
    split
    next p _ =>
      refine (alike_idOf c).andThen fun id => alike_reply ?_
      exact alike_asked hrun limit id (r := .subscribePattern p listener)
        (fun listener h => ⟨_, hstep, h⟩) (by simp [Request.callback?]) rfl
    next => exact .throw _
  | request c r wait =>
    refine (alike_idOf c).andThen fun id => alike_reply ?_
    exact alike_asked hrun limit id (fun listener h => ⟨_, hstep, h⟩)
      (fun callback h => ⟨_, hstep, h⟩) hpauses
  | commitBlocking => exact alike_reply (.orFail _)
  | positions c ps =>
    refine (alike_idOf c).andThen fun id => (Alike.mapM (fun p => ?_) ps).andThen fun _ => .pure rfl
    have hposition := alike_carryOut hrun limit id (r := .position p) rfl
    refine .tryCatch (hposition.andThen fun reply => ?_) fun stop => ?_
    · split <;> exact .pure rfl
    · split
      · exact .pure rfl
      · exact .throw _
  | _ => cases h

theorem alike_beside (hrun : RunsAlike steps run run') (limit : Nat) {step : Step}
    (h : step.isBeside = true) :
    Alike steps Eq (perform limit run step) (perform limit run' step.unpaused) := by
  cases step with
  | spawnPoll c =>
    refine (alike_idOf c).andThen fun id => (alike_spawn hrun limit id).andThen fun spawned => ?_
    exact alike_set _ fun s s' htwin =>
      { htwin with polls := congrArg (·.insert c spawned) htwin.polls }
  | joinPoll c =>
    refine Alike.get.bind fun s s' htwin => ?_
    rw [htwin.polls]
    split
    · refine (Alike.modify fun s s' htwin => ?_).andThen fun _ =>
        alike_reply (alike_join hrun limit _)
      exact { htwin with polls := congrArg (·.erase c) htwin.polls }
    · exact .throw _
  | _ => cases h

theorem alike_looking (limit : Nat) {step : Step} (h : step.looks = true) :
    Alike steps Eq (perform limit run step) (perform limit run' step.unpaused) := by
  cases step with
  | inFlight c =>
    refine alike_consumerOf c (fun c => Value.number c.commits.inFlight) fun c => ?_
    exact congrArg (fun n : Nat => Value.number n)
      ((Commits.inFlight_map ..).trans (Commits.inFlight_map ..).symm)
  | groupId c => exact alike_consumerOf c (fun c => Value.text c.options.group) fun _ => rfl
  | behaviour c => exact alike_consumerOf c (fun c => Value.behaviour c.behaviour) fun _ => rfl
  | inspect c | wakeup c => exact alike_consumerOf c (fun _ => Value.unit) fun _ => rfl
  | debug c =>
    refine alike_consumerOf c (fun c => Value.text c.debugText) fun c => congrArg Value.text ?_
    rw [Consumer.debugText_recast, Consumer.debugText_recast]
  | _ => cases h

theorem alike_pooling (limit : Nat) {step : Step} (h : step.isPooling = true) :
    Alike steps Eq (perform limit run step) (perform limit run' step.unpaused) := by
  have hpool (name : String) (pool : Pool) (value : Value) :
      Alike steps Eq
        (do modify fun s => { s with pools := s.pools.insert name pool }; pure value)
        (do modify fun s => { s with pools := s.pools.insert name pool }; pure value) :=
    alike_set value fun s s' htwin =>
      { htwin with pools := congrArg (·.insert name pool) htwin.pools }
  cases step with
  | poolNew pool consumers =>
    exact (Alike.mapM alike_idOf consumers).andThen fun ids => hpool _ _ _
  | poolWithCapacity pool behaviour size =>
    refine (alike_behaviourOf behaviour).andThen fun b => ?_
    exact (alike_createMany b size).andThen fun ids => hpool _ _ _
  | poolCreate pool options as =>
    refine (Alike.orFail _).andThen fun options => ?_
    exact (alike_handOut pool options as).map fun _ _ h => congrArg _ h
  | poolAdd pool c =>
    exact (alike_poolOf pool).andThen fun p => (alike_idOf c).andThen fun id => hpool _ _ _
  | poolState pool =>
    refine (alike_poolOf pool).andThen fun p => Alike.get.bind fun s s' htwin => .pure ?_
    have hnames : s'.nameOf? = s.nameOf? := funext htwin.nameOf?
    rw [hnames]
  | _ => cases h

/-- A step that pauses nothing has the same answer. -/
theorem alike_perform (hrun : RunsAlike steps run run') (limit : Nat) {step : Step}
    (hstep : step.OccursIn steps) (hpauses : step.pauses = false) :
    Alike steps Eq (perform limit run step) (perform limit run' step.unpaused) := by
  cases step with
  | cluster step => exact alike_cluster limit step
  | configure | subscribePattern | request | commitBlocking | positions =>
    exact alike_asking hrun limit hstep hpauses rfl
  | spawnPoll | joinPoll => exact alike_beside hrun limit rfl
  | inFlight | groupId | behaviour | inspect | wakeup | debug => exact alike_looking limit rfl
  | poolNew | poolWithCapacity | poolCreate | poolAdd | poolState => exact alike_pooling limit rfl
  | new c behaviour =>
    refine (alike_behaviourOf behaviour).andThen fun b => (alike_create b).andThen fun id => ?_
    exact alike_set _ fun s s' htwin => { htwin with names := congrArg (·.insert c id) htwin.names }
  | drop c =>
    refine Alike.get.bind fun s s' htwin => ?_
    rw [htwin.names]
    exact alike_set _ fun s s' htwin => { htwin with names := congrArg (·.erase c) htwin.names }
  | drain c =>
    refine (alike_idOf c).andThen fun id => ?_
    refine (alike_drainUntil hrun limit id none limit).andThen fun _ => ?_
    exact Alike.get.bind fun s s' htwin => .pure (by rw [htwin.inFlight])
  | addFault c kind fault count =>
    refine (alike_idOf c).andThen fun id => ?_
    have hfault : Alike steps Eq (modifyWorld (·.addFault kind fault count id))
        (modifyWorld (·.addFault kind fault count id)) :=
      .modifyWorld (·.addFault kind fault count id) (World.addFault_recast · · id kind fault count)
    exact hfault.andThen fun _ => .pure rfl
  | sleep time =>
    refine Alike.get.bind fun s s' htwin => ?_
    rw [htwin.clock]
    exact (alike_passUntil hrun limit _).andThen fun _ => .pure rfl
  | metrics =>
    exact (Alike.updateWorld_same (fun w => (w.counters.report, { w with counters := .zero }))
      fun _ _ => rfl).andThen fun totals => .pure rfl
  | panic message => exact .throw _

theorem alike_awaitCommits (hrun : RunsAlike steps run run') (limit : Nat) (step : Step) :
    Alike steps Eq (awaitCommits limit run step) (awaitCommits limit run' step.unpaused) := by
  refine Alike.get.bind fun s s' htwin => ?_
  rw [htwin.names, Step.awaited?_unpaused]
  split
  · exact alike_drainUntil hrun limit _ none limit
  · exact .pure rfl

/-- To pause or to resume makes no difference to what differs in what is paused only, and ends no
script. -/
theorem twin_perform_of_pauses (limit : Nat) (run : Runner) {step : Step}
    (hstep : step.OccursIn steps) (hpauses : step.pauses = true) (htwin : Stage.Twin steps s s') :
    Stage.Twin steps ((perform limit run step).on s).2 s' ∧
      ∀ stop, ((perform limit run step).on s).1 = .error stop → stop.ends = false := by
  cases step with
  | request c r wait =>
    cases hname : s.names.get? c with
    | none =>
      rw [on_request_of_unknown hname]
      refine ⟨htwin, ?_⟩
      rintro _ ⟨⟩
      rfl
    | some id =>
      obtain ⟨r₀, hr₀, heq, -⟩ := exists_request (fun listener h => ⟨_, hstep, h⟩)
        (fun callback h => ⟨_, hstep, h⟩)
      obtain ⟨w, hw, hw'⟩ := htwin.world
      obtain ⟨result, hresult, hsame⟩ := World.request_of_pauses (stripped steps) w id
        (fun _ => rfl) (hr₀.trans hpauses)
      have hrequest := World.request_recast (whole steps) w id (r := r₀) (.inr fun _ => rfl)
      rw [← heq, ← hw, hresult] at hrequest
      rw [on_request_answered hname (congrArg Prod.fst hrequest), congrArg Prod.snd hrequest]
      refine ⟨{ htwin with world := ⟨(w.request id r₀).2, rfl, hw'.trans hsame.symm⟩ }, ?_⟩
      cases result with
      | ok reply => nofun
      | error e =>
        rintro _ ⟨⟩
        rfl
  | _ => cases hpauses

end Runner

end Play

end LogConsumer
