import LogConsumer.Proofs.Twins

/-! Pausing as bookkeeping. A scenario is played beside what is left of it when nothing may be paused,
and the steps that are left have the answers that they had. Main statement:
`playWithin_unpausedScript`. -/
namespace LogConsumer

open Play

variable {steps : List Step} {s s' : Stage}

theorem runScript_cons_both {perform perform' : Step → Play Value} {step step' : Step}
    {rest rest' : List Step} {outcome : Except Stop Value} {t t' : Stage}
    (hon : (perform step).on s = (outcome, t)) (hon' : (perform' step').on s' = (outcome, t'))
    {after after' : Report × Stage} (hafter : after = (runScript perform rest).run t)
    (hafter' : after' = (runScript perform' rest').run t') :
    (∃ stop, (runScript perform (step :: rest)).run s = (⟨[], some stop⟩, t) ∧
        (runScript perform' (step' :: rest')).run s' = (⟨[], some stop⟩, t')) ∨
      (runScript perform (step :: rest)).run s =
          (⟨⟨outcome, step.shown?.bind t.view?⟩ :: after.1.answers, after.1.stop⟩, after.2) ∧
        (runScript perform' (step' :: rest')).run s' =
          (⟨⟨outcome, step'.shown?.bind t'.view?⟩ :: after'.1.answers, after'.1.stop⟩,
            after'.2) := by
  rcases runScript_cons perform step rest s hon hafter with ⟨stop, rfl, hends, heq⟩ | ⟨hgoes, heq⟩
  · rcases runScript_cons perform' step' rest' s' hon' hafter' with ⟨_, ⟨⟩, -, heq'⟩ | ⟨hgoes, -⟩
    · exact .inl ⟨stop, heq, heq'⟩
    · cases hends.symm.trans (hgoes stop rfl)
  · rcases runScript_cons perform' step' rest' s' hon' hafter' with ⟨stop, rfl, hends, -⟩ | ⟨-, heq'⟩
    · cases hends.symm.trans (hgoes stop rfl)
    · exact .inr ⟨heq, heq'⟩

/-- A script has the same answers without the steps that pause or resume. -/
theorem runsAlike_runScript {run run' : Runner} (hrun : RunsAlike steps run run') (limit : Nat) :
    RunsAlike steps (runScript (perform limit run)) (runScript (perform limit run')) := by
  intro script hscript
  induction script with
  | nil => exact fun s s' htwin => ⟨rfl, htwin⟩
  | cons step rest ih =>
    obtain ⟨hstep, hrest⟩ := List.forall_mem_cons.1 hscript
    intro s s' htwin
    rw [unpausedScript_cons]
    cases hon : (perform limit run step).on s with
    | mk outcome t =>
    cases hpauses : step.pauses with
    | true =>
      obtain ⟨htwin₁, hends⟩ := twin_perform_of_pauses limit run hstep hpauses htwin
      rw [hon] at htwin₁ hends
      -- what is left of the script stays where it is while the script takes the step
      obtain ⟨hreport, htwin₂⟩ := ih hrest t s' htwin₁
      rcases runScript_cons (perform limit run) step rest s hon rfl with
        ⟨stop, hstop, hend, -⟩ | ⟨-, heq⟩
      · cases hend.symm.trans (hends stop hstop)
      · rw [heq, Report.unpaused_cons, hpauses]
        exact ⟨hreport, htwin₂⟩
    | false =>
      obtain ⟨hend, htwin₁⟩ := alike_perform hrun limit hstep hpauses s s' htwin
      cases hon' : (perform limit run' step.unpaused).on s' with
      | mk outcome' t' =>
      rw [hon, hon'] at hend htwin₁
      cases hend.eq
      obtain ⟨hreport, htwin₂⟩ := ih hrest t t' htwin₁
      simp only [Bool.false_eq_true, if_false]
      rcases runScript_cons_both hon hon' rfl rfl with ⟨stop, heq, heq'⟩ | ⟨heq, heq'⟩
      · rw [heq, heq']
        exact ⟨rfl, htwin₁⟩
      · rw [heq, heq', Report.unpaused_cons, hpauses, hreport, htwin₁.shown?]
        exact ⟨rfl, htwin₂⟩

theorem runsAlike_runWithin (limit : Nat) : RunsAlike steps (runWithin limit) (runWithin limit) := by
  induction limit with
  | zero =>
    intro script _ s s' htwin
    refine ⟨?_, htwin⟩
    cases script <;> rfl
  | succ limit ih => exact runsAlike_runScript ih limit

theorem playStep_run (limit : Nat) (step : Step) (s : Stage) {performed : Except Stop Value × Stage}
    {awaited : Except Stop Unit × Stage}
    (hperformed : performed = (perform limit (runWithin limit) step).on { s with events := [] })
    (hawaited : awaited = (awaitCommits limit (runWithin limit) step).on performed.2) :
    (playStep limit step).run s =
      ((⟨awaited.1.bind fun _ => performed.1, step.shown?.bind awaited.2.view?⟩, awaited.2.events),
        awaited.2) := by
  subst hperformed hawaited
  rfl

/-- What a step of a scenario has, and what it has if nothing is paused: the same answer but for the
paused partitions that it shows, and the same callbacks. -/
def SamePlay (steps : List Step) (played played' : Answer × List Event) : Prop :=
  played'.1 = played.1.unpaused ∧ List.Forall₂ (Event.Twin steps) played.2 played'.2

theorem samePlay_playStep (limit : Nat) {step : Step} (hstep : step.OccursIn steps)
    (hpauses : step.pauses = false)
    (htwin : Stage.Twin steps { s with events := [] } { s' with events := [] }) :
    SamePlay steps ((playStep limit step).run s).1 ((playStep limit step.unpaused).run s').1 ∧
      Stage.Twin steps ((playStep limit step).run s).2 ((playStep limit step.unpaused).run s').2 := by
  have hrun : RunsAlike steps (runWithin limit) (runWithin limit) := runsAlike_runWithin limit
  obtain ⟨hend, htwin₁⟩ := alike_perform hrun limit hstep hpauses _ _ htwin
  obtain ⟨hend', htwin₂⟩ := alike_awaitCommits hrun limit step _ _ htwin₁
  rw [playStep_run limit step s rfl rfl, playStep_run limit step.unpaused s' rfl rfl, ← hend.eq,
    ← hend'.eq, htwin₂.shown?]
  exact ⟨⟨rfl, htwin₂.events⟩, htwin₂⟩

theorem twin_playStep_of_pauses (limit : Nat) {step : Step} (hstep : step.OccursIn steps)
    (hpauses : step.pauses = true) (hwait : step.awaited? = none)
    (htwin : Stage.Twin steps { s with events := [] } { s' with events := [] }) :
    ((playStep limit step).run s).1.2 = [] ∧
      Stage.Twin steps { ((playStep limit step).run s).2 with events := [] }
        { s' with events := [] } := by
  obtain ⟨htwin₁, -⟩ := twin_perform_of_pauses limit (runWithin limit) hstep hpauses htwin
  have hawait (t : Stage) : (awaitCommits limit (runWithin limit) step).on t = (.ok (), t) := by
    simp only [awaitCommits, hwait, Option.bind_none, on_bind, on_get, on_pure]
  -- nothing has ended on the other stage meanwhile
  have hevents := List.forall₂_nil_right_iff.1 htwin₁.events
  rw [playStep_run limit step s rfl (hawait _).symm]
  exact ⟨hevents, { htwin₁ with events := .nil }⟩

/-- By induction along the scenario, with what has been reported set aside on both stages as it is before
each step. -/
theorem samePlay_mapM (limit : Nat) {script : List Step}
    (hscript : ∀ step ∈ script, step.OccursIn steps)
    (hwait : ∀ step ∈ script, step.pauses = true → step.awaited? = none)
    (htwin : Stage.Twin steps { s with events := [] } { s' with events := [] }) :
    List.Forall₂ (SamePlay steps) (besides script ((script.mapM (playStep limit)).run s).1)
        (((unpausedScript script).mapM (playStep limit)).run s').1 ∧
      ∀ entry ∈ script.zip ((script.mapM (playStep limit)).run s).1,
        entry.1.pauses = true → entry.2.2 = [] := by
  induction script generalizing s s' with
  | nil => exact ⟨.nil, nofun⟩
  | cons step rest ih =>
    obtain ⟨hstep, hrest⟩ := List.forall_mem_cons.1 hscript
    obtain ⟨hwaits, hwaits'⟩ := List.forall_mem_cons.1 hwait
    have hcons (step : Step) (rest : List Step) (s : Stage) :
        ((step :: rest).mapM (playStep limit)).run s =
          (((playStep limit step).run s).1 ::
              ((rest.mapM (playStep limit)).run ((playStep limit step).run s).2).1,
            ((rest.mapM (playStep limit)).run ((playStep limit step).run s).2).2) := by
      rw [List.mapM_cons]
      rfl
    rw [hcons, unpausedScript_cons]
    simp only [besides_cons, List.zip_cons_cons, List.forall_mem_cons]
    cases hpauses : step.pauses with
    | true =>
      obtain ⟨hnone, htwin₁⟩ := twin_playStep_of_pauses limit hstep hpauses (hwaits hpauses) htwin
      obtain ⟨hsame, hnone'⟩ := ih hrest hwaits' htwin₁
      exact ⟨hsame, fun _ => hnone, hnone'⟩
    | false =>
      obtain ⟨hone, htwin₁⟩ := samePlay_playStep limit hstep hpauses htwin
      obtain ⟨hsame, hnone⟩ := ih hrest hwaits' { htwin₁ with events := .nil }
      simp only [Bool.false_eq_true, if_false, hcons]
      exact ⟨.cons hone hsame, nofun, hnone⟩

/-- A scenario plays in the same way without the steps that pause or resume, but for the paused
partitions that answers show. Only steps that commit may wait for commits. -/
theorem playWithin_unpausedScript (limit : Nat) (steps : List Step)
    (hwait : ∀ step ∈ steps, step.pauses = true → step.awaited? = none) :
    (∀ step : Step, step.OccursIn (unpausedScript steps) → step.pauses = false) ∧
      List.Forall₂ (SamePlay steps) (besides steps (playWithin limit steps))
        (playWithin limit (unpausedScript steps)) ∧
      ∀ entry ∈ steps.zip (playWithin limit steps), entry.1.pauses = true → entry.2.2 = [] :=
  ⟨fun _ => pauses_of_occursIn, samePlay_mapM limit (fun _ h => .top h) hwait Stage.Twin.initial⟩

def samplePausing : List Step :=
  [.cluster (.createTopic "t" 1), .new "c" (.object []),
    .request "c" (.subscribe (.setOf ["t"])
      (some ⟨"l", [], [.request "c" (.pause [⟨"t", 0⟩]) false, .inspect "c"]⟩)) false,
    .request "c" .poll false, .request "c" (.pause [⟨"t", 0⟩]) false,
    .cluster (.appendMany ⟨"t", 0⟩ 2), .request "c" .poll false,
    .request "c" (.commit
      (some ⟨"k", [.request "c" (.resume [⟨"t", 0⟩]) false, .inspect "c"]⟩)) true]

theorem playWithin_unpausedScript_sample :
    (∀ step ∈ samplePausing, step.pauses = true → step.awaited? = none) ∧
      List.Forall₂ (SamePlay samplePausing) (besides samplePausing (playWithin 9 samplePausing))
        (playWithin 9 (unpausedScript samplePausing)) ∧
      (besides samplePausing (playWithin 9 samplePausing)).map
          (fun played => played.1.view.map (·.paused.keys)) =
        [none, none, some [], some [], none, some [⟨"t", 0⟩], none] ∧
      (playWithin 9 (unpausedScript samplePausing)).map
          (fun played => played.1.view.map (·.paused.keys)) =
        [none, none, some [], some [], none, some [], none] := by
  have hwait : ∀ step ∈ samplePausing, step.pauses = true → step.awaited? = none := by decide
  exact ⟨hwait, (playWithin_unpausedScript 9 samplePausing hwait).2.1, by decide +kernel,
    by decide +kernel⟩

end LogConsumer
