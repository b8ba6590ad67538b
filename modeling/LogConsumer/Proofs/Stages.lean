import LogConsumer.Proofs.Schedule
import LogConsumer.Scenario.Stage

/-! Stages that moves lead to, in the order of a scheduler. A consumer that stands at a stop is left
there, whatever else is done, until whoever carries its operation on resumes it; a poll that goes on
beside the steps stands for nobody, since whoever joins it resumes it. -/
namespace LogConsumer

section Stops

variable {ℓ κ : Type}

def Progress.Stops : Progress ℓ → Activity ℓ → Prop
  | .answered _, _ => False
  | .tell .., activity => activity.isTelling = true
  | .waitUntil _, activity => activity = .fetching
  | .drainUntil _, activity => activity = .closing

/-- A part of an operation ends with an answer, or the guard tells where it has stopped. -/
theorem Consumer.stops_perform {cluster : Cluster} {now : Time} {c : Consumer ℓ κ}
    {a : Act ℓ κ} {q : Part ℓ κ} (hq : c.part? cluster now a = some q) :
    (∃ result, (c.perform cluster now q).progress = .answered result) ∨
      ∃ activity, (c.perform cluster now q).progress.Stops activity ∧
        (c.perform cluster now q).consumer.guard.holder = some activity := by
  by_cases hlast : q.isLast = true
  · exact .inl (perform_of_isLast hlast).1
  · cases carries_of_part? hq with
    | refused | closedAgain => exact .inl ⟨_, rfl⟩
    | changed | activated => exact absurd rfl hlast
    | awaited | expired => exact .inr ⟨_, rfl, rfl⟩
    | toldOfChange | toldOfAssignment | toldOfExpiry =>
      refine .inr ⟨_, ?_, rfl⟩
      rfl
    | @served r =>
      rw [perform_serve]
      rcases serve_cases cluster now c r with ⟨_, _, _, _, _, _, heq, -⟩ | ⟨_, heq⟩
      · exact .inl ⟨_, congrArg Turn.progress heq⟩
      · rw [heq]
        exact .inr ⟨.closing, rfl, rfl⟩
    | @proceeded activity _ _ hnext =>
      subst hnext
      cases activity with
      | expiring => exact .inr ⟨_, rfl, rfl⟩
      | _ => exact absurd rfl hlast

theorem World.stops_after {w : World ℓ κ} {id : ConsumerId} {a : Act ℓ κ} {progress : Progress ℓ}
    (h : w.outcome (.act id a) = .progress progress) :
    (∃ result, progress = .answered result) ∨
      ∃ activity, progress.Stops activity ∧ (w.after (.act id a)).holder? id = some activity := by
  cases hc : w.consumer? id with
  | none =>
    left
    cases a with
    | request r =>
      simp only [outcome, step, act, World.request, takeTurn, hc] at h
      cases h
      exact ⟨_, rfl⟩
    | proceed => simp [outcome, step, act, World.holder?, hc] at h
    | startCommit => simp [outcome, step, act, World.startCommit, hc] at h
    | _ => simp [outcome, step, act] at h
  | some c =>
    rw [outcome_act hc] at h
    rw [holder?_of_consumer (consumer?_after_act hc a)]
    cases hq : c.part? w.cluster w.clock a with
    | none =>
      rcases Consumer.outcome_of_part?_none hq with houtcome | ⟨_, -, -, houtcome⟩
      all_goals cases houtcome.symm.trans h
    | some q =>
      rw [Consumer.outcome_of_part? hq] at h
      cases h
      rw [Consumer.act_of_part? hq]
      exact Consumer.stops_perform hq

end Stops

namespace Stage

def Waits (s : Stage) (name : String) (id : ConsumerId) : Prop :=
  ∃ time, s.polls.get? name = some (.waiting id time)

/-- A poll that goes on beside the steps holds the guard, and goes by one name. -/
structure Sound (s : Stage) : Prop where
  fetching : ∀ name id, s.Waits name id → s.world.holder? id = some .fetching
  unique : ∀ name name' id, s.Waits name id → s.Waits name' id → name = name'

/-- The consumer is stopped at that activity, and not at a poll that goes on beside the steps. -/
structure Stands (s : Stage) (id : ConsumerId) (activity : Activity Listener) : Prop where
  held : s.world.holder? id = some activity
  apart : ∀ name, ¬ s.Waits name id

/-- Orderly moves lead from `s` to `s'`. A consumer that stands is not resumed by them, but `except`,
and commits that they start to run are over. -/
structure Leads (except : Option ConsumerId) (s s' : Stage) : Prop where
  moves : ∃ ms, s'.world = s.world.run ms ∧ s.world.Throughout World.Orderly ms ∧
    ∀ id activity, except ≠ some id → s.Stands id activity →
      (∀ m ∈ ms, m.resumes id = false) ∧ s'.Stands id activity
  idle : ∀ id, s.world.executing id = none → s'.world.executing id = none
  sound : s'.Sound

variable {except : Option ConsumerId} {s s' s'' : Stage} {id : ConsumerId}
  {activity : Activity Listener}

theorem sound_initial : initial.Sound := by
  have hnot (name : String) (id : ConsumerId) : ¬ initial.Waits name id := by simp [Waits, initial]
  exact ⟨fun name id h => absurd h (hnot name id), fun name _ id h => absurd h (hnot name id)⟩

theorem Sound.apart (h : s.Sound) (hheld : s.world.holder? id ≠ some .fetching) (name : String) :
    ¬ s.Waits name id := fun hwaits => hheld (h.fetching name id hwaits)

theorem Sound.after (h : s.Sound) {m : Move Listener Callback}
    (hm : ∀ name id, s.Waits name id → m.resumes id = false) :
    Sound { s with world := s.world.after m } :=
  ⟨fun name id hwaits => World.holder?_after (h.fetching name id hwaits) (hm name id hwaits),
    h.unique⟩

theorem Stands.after (h : s.Stands id activity) {m : Move Listener Callback}
    (hm : m.resumes id = false) : Stands { s with world := s.world.after m } id activity :=
  ⟨World.holder?_after h.held hm, h.apart⟩

namespace Leads

theorem refl (except : Option ConsumerId) (h : s.Sound) : Leads except s s :=
  ⟨⟨[], rfl, trivial, fun _ _ _ hstands => ⟨by simp, hstands⟩⟩, fun _ hidle => hidle, h⟩

theorem trans (h : Leads except s s') (h' : Leads except s' s'') : Leads except s s'' := by
  obtain ⟨⟨ms, hworld, horderly, hms⟩, hidle, -⟩ := h
  obtain ⟨⟨ms', hworld', horderly', hms'⟩, hidle', hsound⟩ := h'
  refine ⟨⟨ms ++ ms', ?_, ?_, fun id activity hne hstands => ?_⟩, ?_, hsound⟩
  · rw [hworld', hworld, World.run_append]
  · exact World.throughout_append.2 ⟨horderly, hworld ▸ horderly'⟩
  · obtain ⟨hfirst, hstands'⟩ := hms id activity hne hstands
    obtain ⟨hsecond, hstands''⟩ := hms' id activity hne hstands'
    exact ⟨fun m hm => (List.mem_append.1 hm).elim (hfirst m) (hsecond m), hstands''⟩
  · exact fun id h => hidle' id (hidle id h)

theorem weaken (h : Leads none s s') (except : Option ConsumerId) : Leads except s s' := by
  obtain ⟨ms, hworld, horderly, hms⟩ := h.moves
  exact ⟨⟨ms, hworld, horderly, fun id activity _ hstands => hms id activity nofun hstands⟩, h.idle,
    h.sound⟩

theorem of_not_stands (h : Leads (some id) s s') (hnot : ∀ activity, ¬ s.Stands id activity) :
    Leads none s s' := by
  obtain ⟨ms, hworld, horderly, hms⟩ := h.moves
  refine ⟨⟨ms, hworld, horderly, fun id' activity _ hstands => hms id' activity ?_ hstands⟩, h.idle,
    h.sound⟩
  rintro ⟨⟩
  exact hnot activity hstands

theorem of_free (h : Leads (some id) s s') (hfree : s.world.holder? id = none) : Leads none s s' :=
  h.of_not_stands fun _ hstands => nomatch hfree.symm.trans hstands.held

theorem stands (h : Leads except s s') (hne : except ≠ some id) (hstands : s.Stands id activity) :
    s'.Stands id activity := by
  obtain ⟨ms, -, -, hms⟩ := h.moves
  exact (hms id activity hne hstands).2

theorem of_move (hs : s.Sound) {m : Move Listener Callback} (horderly : s.world.Orderly m)
    (hstart : ∀ id, m ≠ .act id .startCommit)
    (hm : ∀ id, m.resumes id = true → except = some id ∧ ∀ name, ¬ s.Waits name id) :
    Leads except s { s with world := s.world.after m } := by
  refine ⟨⟨[m], rfl, ⟨horderly, trivial⟩, fun id activity hne hstands => ?_⟩,
    fun id => World.executing_after_of_ne (hstart id), hs.after fun name id hwaits => ?_⟩
  · have hresumes : m.resumes id = false :=
      Bool.eq_false_iff.2 fun hresumes => hne (hm id hresumes).1
    exact ⟨by simpa using hresumes, hstands.after hresumes⟩
  · exact Bool.eq_false_iff.2 fun hresumes => (hm id hresumes).2 name hwaits

theorem of_isQuiet (hs : s.Sound) {m : Move Listener Callback} (hm : m.isQuiet = true) :
    Leads except s { s with world := s.world.after m } :=
  of_move hs (World.orderly_of_isQuiet hm _) (Move.ne_startCommit_of_isQuiet hm) fun id hresumes =>
    absurd (Move.resumes_of_isQuiet hm id) (by simp [hresumes])

theorem of_commit (id : ConsumerId)
    (hdue : ∀ due, s.world.due? id = some due → due ≤ s.world.clock)
    (h : Leads none { s with world := s.world.after (.act id .startCommit) } s') :
    Leads none s { s' with world := s'.world.after (.act id .finishCommit) } := by
  obtain ⟨ms, hworld, horderly, hms⟩ := h.moves
  have hquiet : (Move.act id .finishCommit : Move Listener Callback).isQuiet = true := rfl
  have hstart (id' : ConsumerId) :
      (Move.act id .startCommit : Move Listener Callback).resumes id' = false := by
    simp [Move.resumes, Move.act?]
  have hfinish := Move.resumes_of_isQuiet hquiet
  refine ⟨⟨.act id .startCommit :: (ms ++ [.act id .finishCommit]), ?_, ?_, ?_⟩, ?_,
    h.sound.after fun _ id' _ => hfinish id'⟩
  · rw [World.run_cons, World.run_append, hworld]
    rfl
  · exact ⟨hdue, World.throughout_append.2 ⟨horderly, World.orderly_of_isQuiet hquiet _, trivial⟩⟩
  · intro id' activity _ hstands
    obtain ⟨hresumes, hstands'⟩ := hms id' activity (by simp) (hstands.after (hstart id'))
    refine ⟨?_, hstands'.after (hfinish id')⟩
    simp only [List.forall_mem_cons, List.forall_mem_append]
    exact ⟨hstart id', hresumes, hfinish id', by simp⟩
  · intro id' hidle
    by_cases hid : id = id'
    · exact hid ▸ World.executing_after_finishCommit id s'.world
    · have hne : (Move.act id .startCommit : Move Listener Callback) ≠ .act id' .startCommit := by
        simpa using hid
      have hfirst := h.idle id' (World.executing_after_of_ne hne hidle)
      exact World.executing_after_of_ne (Move.ne_startCommit_of_isQuiet hquiet id') hfirst

/-- Beside its world a stage does not matter, if no more polls wait. -/
theorem of_fewer (hs : s.Sound) (hworld : s'.world = s.world)
    (hwaits : ∀ name id, s'.Waits name id → s.Waits name id) : Leads except s s' := by
  refine ⟨⟨[], hworld, trivial, fun id activity _ hstands => ⟨by simp, ?_, ?_⟩⟩, ?_, ?_, ?_⟩
  · exact hworld ▸ hstands.held
  · exact fun name h => hstands.apart name (hwaits name id h)
  · exact fun id hidle => hworld ▸ hidle
  · exact fun name id h => hworld ▸ hs.fetching name id (hwaits name id h)
  · exact fun name name' id h h' => hs.unique name name' id (hwaits _ _ h) (hwaits _ _ h')

theorem of_insert (hs : s.Sound) (name : String) {spawned : Spawned}
    (hspawned : ∀ id time, spawned = .waiting id time → except = some id ∧ s.Stands id .fetching) :
    Leads except s { s with polls := s.polls.insert name spawned } := by
  have hwaits {name' : String} {id : ConsumerId}
      (h : Waits { s with polls := s.polls.insert name spawned } name' id) :
      (name' = name ∧ except = some id ∧ s.Stands id .fetching) ∨ s.Waits name' id := by
    obtain ⟨time, h⟩ := h
    by_cases hname : name' = name
    · subst hname
      rw [SortedMap.get?_insert_self] at h
      exact .inl ⟨rfl, hspawned id time (Option.some.inj h)⟩
    · exact .inr ⟨time, (s.polls.get?_insert_of_ne hname spawned).symm.trans h⟩
  refine ⟨⟨[], rfl, trivial, fun id activity hne hstands => ⟨by simp, hstands.held, ?_⟩⟩,
    fun _ hidle => hidle, ?_, ?_⟩
  · rintro name' h
    rcases hwaits h with ⟨-, hexcept, -⟩ | h
    · exact hne hexcept
    · exact hstands.apart name' h
  · rintro name' id h
    rcases hwaits h with ⟨-, -, hstands⟩ | h
    · exact hstands.held
    · exact hs.fetching name' id h
  · rintro name₁ name₂ id h₁ h₂
    rcases hwaits h₁ with ⟨hname₁, -, hstands₁⟩ | h₁
      <;> rcases hwaits h₂ with ⟨hname₂, -, hstands₂⟩ | h₂
    · exact hname₁.trans hname₂.symm
    · exact absurd h₂ (hstands₁.apart name₂)
    · exact absurd h₁ (hstands₂.apart name₁)
    · exact hs.unique name₁ name₂ id h₁ h₂

end Leads

theorem waits_of_erase {name name' : String}
    (h : Waits { s with polls := s.polls.erase name } name' id) : name' ≠ name ∧ s.Waits name' id := by
  obtain ⟨time, h⟩ := h
  refine ⟨?_, time, ?_⟩
  · rintro rfl
    simp at h
  · have hget : (s.polls.get? name').filter _ = some (.waiting id time) :=
      (SortedMap.get?_filter _ _ _).symm.trans h
    exact (Option.filter_eq_some_iff.1 hget).1

end Stage

end LogConsumer
