import LogConsumer.Proofs.Ledger
import LogConsumer.Proofs.Reentrance

/-! When commits run. Time passes no further than to where the next commit is due, and none runs
before. Commits wait in the order in which they are due. Main statements: `inStep_run`,
`timetable_run`, `executed_on_time`. -/
namespace LogConsumer

variable {ℓ κ : Type}

/-- The sooner of two commits that are due; of two at once, the first. -/
def sooner (first : Option (ConsumerId × Time)) (due : ConsumerId × Time) :
    Option (ConsumerId × Time) :=
  match first with
  | some f => if due.2 < f.2 then some due else some f
  | none => some due

theorem foldl_sooner_some (f : ConsumerId × Time) (dues : List (ConsumerId × Time)) :
    ∃ d, dues.foldl sooner (some f) = some d ∧ d ∈ f :: dues ∧ ∀ d' ∈ f :: dues, d.2 ≤ d'.2 := by
  induction dues generalizing f with
  | nil => exact ⟨f, rfl, by simp, by simp⟩
  | cons due dues ih =>
    rw [List.foldl_cons]
    by_cases hlt : due.2 < f.2
    · obtain ⟨d, heq, hmem, hfirst⟩ := ih due
      have hstep : sooner (some f) due = some due := by simp [sooner, hlt]
      refine ⟨d, by rw [hstep, heq], List.mem_cons_of_mem _ hmem, ?_⟩
      intro d' hd'
      rcases List.mem_cons.1 hd' with rfl | hd'
      · exact Nat.le_trans (hfirst due List.mem_cons_self) (Nat.le_of_lt hlt)
      · exact hfirst d' hd'
    · obtain ⟨d, heq, hmem, hfirst⟩ := ih f
      have hstep : sooner (some f) due = some f := by simp [sooner, hlt]
      refine ⟨d, by rw [hstep, heq], ?_, ?_⟩
      · rcases List.mem_cons.1 hmem with rfl | hmem
        · exact List.mem_cons_self
        · exact List.mem_cons_of_mem _ (List.mem_cons_of_mem _ hmem)
      · intro d' hd'
        have hle := hfirst f List.mem_cons_self
        rcases List.mem_cons.1 hd' with rfl | hd'
        · exact hle
        · rcases List.mem_cons.1 hd' with rfl | hd'
          · exact Nat.le_trans hle (Nat.le_of_not_lt hlt)
          · exact hfirst d' (List.mem_cons_of_mem _ hd')

namespace Commits

variable {cluster : Cluster} {now now' : Time} {q q' : Commits κ}

inductive Changes (cluster : Cluster) (now : Time) (q : Commits κ) : Commits κ → Prop
  | kept : Changes cluster now q q
  | stopped : Changes cluster now q q.stop
  | faulted (faults : FaultQueue) : Changes cluster now q { q with faults }
  | added (commit : Commit κ) : Changes cluster now q (q.add now commit)
  | started {e : Execution κ} (h : q.start? cluster = some e) : Changes cluster now q e.commits
  | finished : Changes cluster now q (q.finish now)

/-- Commits wait in the order in which they are due, none of them longer than the delay. -/
structure InStep (now : Time) (q : Commits κ) : Prop where
  ordered : q.timetable.Pairwise fun first second => first.2 ≤ second.2
  due_le : ∀ entry ∈ q.timetable, entry.2 ≤ now + q.delay.nanos

theorem InStep.mono (h : q.InStep now) (hle : now ≤ now') : q.InStep now' where
  ordered := h.ordered
  due_le entry hmem := Nat.le_trans (h.due_le entry hmem) (Nat.add_le_add_right hle _)

/-- Delays that begin now end last. -/
theorem InStep.append (h : q.InStep now) (commits : List (Commit κ)) :
    InStep now { q with timetable := q.timetable ++ commits.map (·, now + q.delay.nanos) } where
  ordered := by
    refine List.pairwise_append.2 ⟨h.ordered, List.pairwise_map.2 ?_, ?_⟩
    · exact List.pairwise_of_forall fun _ _ => Nat.le_refl _
    · intro first hfirst second hsecond
      obtain ⟨_, -, rfl⟩ := List.mem_map.1 hsecond
      exact h.due_le first hfirst
  due_le entry hmem := by
    rcases List.mem_append.1 hmem with hmem | hmem
    · exact h.due_le entry hmem
    · obtain ⟨_, -, rfl⟩ := List.mem_map.1 hmem
      exact Nat.le_refl _

theorem InStep.changes (h : q.InStep now) (hchanges : q.Changes cluster now q') :
    q'.InStep now := by
  cases hchanges with
  | kept | stopped | faulted => exact ⟨h.ordered, h.due_le⟩
  | added commit =>
    cases hrunning : q.running with
    | none =>
      have happend := h.append [commit]
      exact ⟨by simpa [add, hrunning] using happend.ordered,
        by simpa [add, hrunning] using happend.due_le⟩
    | some running => exact ⟨by simpa [add, hrunning] using h.ordered,
        by simpa [add, hrunning] using h.due_le⟩
  | @started e hs =>
    obtain ⟨-, ⟨due, htimetable⟩, heq, -⟩ := start?_eq_some hs
    have hordered := h.ordered
    have hdue := h.due_le
    rw [htimetable] at hordered hdue
    rw [heq]
    exact ⟨hordered.of_cons, fun entry hmem => hdue entry (List.mem_cons_of_mem _ hmem)⟩
  | finished =>
    have happend := h.append q.unseen
    exact ⟨happend.ordered, happend.due_le⟩

theorem Changes.timetable (h : q.Changes cluster now q') (hseen : q.unseen = [])
    (hlength : q'.waiting.length ≤ q.waiting.length) :
    q'.unseen = [] ∧ (q'.timetable = q.timetable ∨
      ∃ entry, q.timetable = entry :: q'.timetable ∧ q.nextDue? = some entry.2) := by
  cases h with
  | kept | stopped | faulted => exact ⟨hseen, .inl rfl⟩
  | added commit =>
    rw [waiting_add, List.length_append, List.length_singleton] at hlength
    omega
  | started hs =>
    obtain ⟨hrunning, ⟨due, htimetable⟩, heq, -⟩ := start?_eq_some hs
    refine ⟨by rw [heq]; rfl, .inr ⟨_, htimetable, ?_⟩⟩
    simp [nextDue?, hrunning, htimetable]
  | finished => exact ⟨rfl, .inl (by simp [finish, hseen])⟩

end Commits

namespace Consumer

variable {cluster : Cluster} {now now' : Time} {c : Consumer ℓ κ} {a : Act ℓ κ}

theorem changes_act (cluster : Cluster) (now : Time) (c : Consumer ℓ κ) (a : Act ℓ κ) :
    c.commits.Changes cluster now (c.act cluster now a).commits := by
  cases hq : c.part? cluster now a with
  | none =>
    rw [act_of_part?_none hq]
    cases a with
    | startCommit =>
      simp only [undergo]
      split
      next e hs => exact .started hs
      next => exact .kept
    | finishCommit => exact .finished
    | addFault kind => cases kind <;> constructor
    | abandon =>
      simp only [undergo]
      split <;> exact .kept
    | drop =>
      simp only [undergo]
      split
      · exact .kept
      · exact .stopped
    | _ => exact .kept
  | some q =>
    rw [act_of_part? hq]
    by_cases hserve : ∃ r, q = .serve r
    · obtain ⟨r, rfl⟩ := hserve
      rcases commits_serve_cases cluster now c r with heq | ⟨-, heq⟩ | ⟨offsets, callback, hschedule⟩
      · rw [perform_serve, heq]
        exact .kept
      · rw [perform_serve, heq]
        exact .stopped
      · rw [perform_serve, ← (Commits.schedule_eq_ok_iff.1 hschedule).2]
        exact .added _
    · rw [commits_perform fun r h => hserve ⟨r, h⟩]
      exact .kept

theorem commits_request (cluster : Cluster) (now : Time) (c : Consumer ℓ κ) (r : Request ℓ κ) :
    (c.accepted cluster now (.request r) = [] ∧
        ((c.act cluster now (.request r)).commits = c.commits ∨
          (c.act cluster now (.request r)).commits = c.commits.stop)) ∨
      ∃ commit, c.accepted cluster now (.request r) = [commit] ∧
        (c.act cluster now (.request r)).commits = c.commits.add now commit := by
  obtain ⟨q, hq⟩ : ∃ q, c.part? cluster now (.request r) = some q := ⟨_, rfl⟩
  have hledger := (c.commits_act cluster now (.request r)).1
  have hexecuted : (c.outcome cluster now (.request r)).executed = [] := by
    rw [outcome_of_part? hq]
    rfl
  rw [hexecuted, List.map_nil, List.nil_append] at hledger
  rw [act_of_part? hq] at hledger ⊢
  by_cases hserve : ∃ r, q = .serve r
  · obtain ⟨r', rfl⟩ := hserve
    rw [perform_serve] at hledger ⊢
    rcases commits_serve_cases cluster now c r' with heq | ⟨-, heq⟩ | ⟨offsets, callback, hschedule⟩
    · rw [heq, List.append_right_eq_self] at hledger
      exact .inl ⟨hledger, .inl heq⟩
    · rw [heq, Commits.waiting_stop, List.append_right_eq_self] at hledger
      exact .inl ⟨hledger, .inr heq⟩
    · have heq := (Commits.schedule_eq_ok_iff.1 hschedule).2
      rw [← heq, Commits.waiting_add] at hledger
      exact .inr ⟨_, List.append_cancel_left hledger, heq.symm⟩
  · have hne : ∀ r, q ≠ .serve r := fun r h => hserve ⟨r, h⟩
    exact .inl ⟨accepted_eq_nil hq hne, .inl (commits_perform hne)⟩

theorem inStep_ofBehaviour (b : Behaviour) (now : Time) :
    (ofBehaviour b : Consumer ℓ κ).commits.InStep now :=
  ⟨.nil, fun _ hmem => by cases hmem⟩

theorem act_of_closed (cluster : Cluster) (now : Time) (hfree : c.guard = .free)
    (hclosed : c.closed = true) (a : Act ℓ κ) :
    (∃ pollFaults commits, c.act cluster now a = { c with pollFaults, commits }) ∧
      c.accepted cluster now a = [] := by
  have henter : c.enter = .error .closed := by simp [enter, Guard.check, hfree, hclosed]
  cases hq : c.part? cluster now a with
  | none =>
    rw [act_of_part?_none hq]
    cases a with
    | request r => cases hq
    | startCommit =>
      simp only [undergo]
      split <;> exact ⟨⟨_, _, rfl⟩, rfl⟩
    | addFault kind => cases kind <;> exact ⟨⟨_, _, rfl⟩, rfl⟩
    | abandon =>
      have hnot : c.guard.holder.any (·.isTelling) = false := by
        rw [hfree]
        rfl
      simp only [undergo, hnot]
      exact ⟨⟨_, _, rfl⟩, rfl⟩
    | drop =>
      have hnot : c.guard.isHeld = false := by
        rw [hfree]
        rfl
      have hreleased : c.release = { c with commits := c.commits.stop } := by
        rw [release, ← hclosed]
      refine ⟨⟨c.pollFaults, c.commits.stop, ?_⟩, rfl⟩
      simp only [undergo, hnot, Bool.false_eq_true, if_false, hreleased]
    | _ => exact ⟨⟨_, _, rfl⟩, rfl⟩
  | some q =>
    rw [act_of_part? hq]
    cases carries_of_part? hq with
    | refused => exact ⟨⟨_, _, rfl⟩, by simp [accepted, outcome_of_part? hq, perform, Outcome.isSuccess]⟩
    | closedAgain => exact ⟨⟨_, _, rfl⟩, by simp [accepted, Request.offered?]⟩
    | proceeded hheld => simp [hfree, Guard.free] at hheld
    | toldOfChange hopen | changed hopen | toldOfAssignment hopen | activated hopen
    | toldOfExpiry hopen | expired hopen | awaited hopen | served hopen =>
      cases hopen.symm.trans henter

end Consumer

/-- Whether a move resumes nobody, starts no commit and takes no time. -/
def Move.isQuiet : Move ℓ κ → Bool
  | .advance _ | .act _ .startCommit | .act _ .proceed | .act _ .abandon => false
  | _ => true

theorem Move.resumes_of_isQuiet {m : Move ℓ κ} (h : m.isQuiet = true) (id : ConsumerId) :
    m.resumes id = false := by
  refine Bool.eq_false_iff.2 fun hresumes => ?_
  rcases resumes_iff.1 hresumes with rfl | rfl <;> cases h

theorem Move.ne_startCommit_of_isQuiet {m : Move ℓ κ} (h : m.isQuiet = true) (id : ConsumerId) :
    m ≠ .act id .startCommit := by
  rintro rfl
  cases h

namespace World

variable {w : World ℓ κ} {id : ConsumerId} {c : Consumer ℓ κ} {m : Move ℓ κ} {time : Time}

/-- When the next commit of a consumer can run; none can while the callback of another runs. -/
def due? (id : ConsumerId) (w : World ℓ κ) : Option Time :=
  (w.consumer? id).bind (·.commits.nextDue?)

theorem nextDue?_eq (w : World ℓ κ) (time : Time) :
    w.nextDue? time =
      ((w.consumers.zipIdx.filterMap fun (c, id) => c.commits.nextDue?.map (id, ·)).filter
        (·.2 ≤ time)).foldl sooner none := rfl

theorem mem_dues {due : Time} :
    (id, due) ∈ ((w.consumers.zipIdx.filterMap fun (c, id) => c.commits.nextDue?.map (id, ·)).filter
        (·.2 ≤ time)) ↔ w.due? id = some due ∧ due ≤ time := by
  simp only [List.mem_filter, List.mem_filterMap, decide_eq_true_eq, due?, consumer?,
    Option.bind_eq_some_iff, Option.map_eq_some_iff, Prod.exists, Prod.mk.injEq,
    List.mem_zipIdx_iff_getElem?]
  refine and_congr_left fun _ => ⟨?_, ?_⟩
  · rintro ⟨c, id, hc, due, hdue, rfl, rfl⟩
    exact ⟨c, hc, hdue⟩
  · rintro ⟨c, hc, hdue⟩
    exact ⟨c, id, hc, due, hdue, rfl, rfl⟩

theorem lt_of_nextDue?_eq_none (h : w.nextDue? time = none) {due : Time}
    (hdue : w.due? id = some due) : time < due := by
  rw [nextDue?_eq] at h
  cases hdues : (w.consumers.zipIdx.filterMap fun (c, id) => c.commits.nextDue?.map (id, ·)).filter
      (·.2 ≤ time) with
  | nil =>
    have hnot : ¬ (w.due? id = some due ∧ due ≤ time) := by
      rw [← mem_dues, hdues]
      exact List.not_mem_nil
    exact Nat.lt_of_not_le fun hle => hnot ⟨hdue, hle⟩
  | cons f dues =>
    rw [hdues, List.foldl_cons] at h
    obtain ⟨d, heq, -⟩ := foldl_sooner_some f dues
    cases h.symm.trans heq

theorem due_le_of_ordered {first : Commit κ × Time} {rest : List (Commit κ × Time)}
    (h : (first :: rest).Pairwise fun first second => first.2 ≤ second.2) :
    ∀ entry ∈ first :: rest, first.2 ≤ entry.2 :=
  List.forall_mem_cons.2 ⟨Nat.le_refl _, fun _ => List.rel_of_pairwise_cons h⟩

/-- What is due first is due by that time, and nothing that can run is due before. -/
theorem nextDue?_eq_some {due : Time} (h : w.nextDue? time = some (id, due)) :
    w.due? id = some due ∧ due ≤ time ∧
      ∀ id' due', w.due? id' = some due' → due ≤ due' := by
  rw [nextDue?_eq] at h
  cases hdues : (w.consumers.zipIdx.filterMap fun (c, id) => c.commits.nextDue?.map (id, ·)).filter
      (·.2 ≤ time) with
  | nil =>
    rw [hdues] at h
    cases h
  | cons f dues =>
    rw [hdues, List.foldl_cons] at h
    obtain ⟨d, heq, hmem, hfirst⟩ := foldl_sooner_some f dues
    cases h.symm.trans heq
    rw [← hdues] at hmem hfirst
    obtain ⟨hdue, hle⟩ := mem_dues.1 hmem
    refine ⟨hdue, hle, fun id' due' hdue' => ?_⟩
    by_cases hle' : due' ≤ time
    · exact hfirst (id', due') (mem_dues.2 ⟨hdue', hle'⟩)
    · exact Nat.le_trans hle (Nat.le_of_not_le hle')

/-- What a scheduler does: time passes no further than to where the next commit is due, and no
commit runs before it is due. -/
def Orderly (w : World ℓ κ) : Move ℓ κ → Prop
  | .advance time => ∀ id due, w.due? id = some due → time ≤ max w.clock due
  | .act id .startCommit => ∀ due, w.due? id = some due → due ≤ w.clock
  | _ => True

theorem orderly_advance_of_none (h : w.nextDue? (max w.clock time) = none) :
    w.Orderly (.advance time) := fun _ due hdue =>
  have hlater : max w.clock time < due := lt_of_nextDue?_eq_none h hdue
  Nat.le_trans (Nat.le_max_right ..) (Nat.le_trans (Nat.le_of_lt hlater) (Nat.le_max_right ..))

theorem orderly_advance_of_some {due : Time} (h : w.nextDue? time = some (id, due)) :
    w.Orderly (.advance due) := fun id' due' hdue' =>
  have hfirst : due ≤ due' := (nextDue?_eq_some h).2.2 id' due' hdue'
  Nat.le_trans hfirst (Nat.le_max_right ..)

theorem orderly_of_isQuiet (h : m.isQuiet = true) (w : World ℓ κ) : w.Orderly m := by
  cases m with
  | act id a => cases a <;> trivial
  | advance time => cases h
  | _ => trivial

def timetable (id : ConsumerId) (w : World ℓ κ) : List (Commit κ × Time) :=
  ((w.consumer? id).map (·.commits.timetable)).getD []

/-- The commits of a consumer that were scheduled while the callback of another has been running. -/
def unseen (id : ConsumerId) (w : World ℓ κ) : List (Commit κ) :=
  ((w.consumer? id).map (·.commits.unseen)).getD []

theorem waiting_eq (id : ConsumerId) (w : World ℓ κ) :
    w.waiting id = (w.timetable id).map (·.1) ++ w.unseen id := by
  unfold waiting timetable unseen
  cases w.consumer? id <;> rfl

theorem unseen_of_idle (h : w.executing id = none) : w.unseen id = [] := by
  cases hc : w.consumer? id with
  | none => simp [unseen, hc]
  | some c =>
    have hrunning : c.commits.running = none := by
      simpa [executing, hc, Commits.executing_eq_none_iff] using h
    simp [unseen, hc, Commits.unseen, hrunning]

theorem waiting_of_idle (h : w.executing id = none) :
    w.waiting id = (w.timetable id).map (·.1) := by
  rw [waiting_eq, unseen_of_idle h, List.append_nil]

theorem due?_eq_some_iff {due : Time} : w.due? id = some due ↔
    w.executing id = none ∧ ∃ commit rest, w.timetable id = (commit, due) :: rest := by
  cases hc : w.consumer? id with
  | none => simp [due?, executing, timetable, hc]
  | some c =>
    cases hrunning : c.commits.running <;> cases htimetable : c.commits.timetable <;>
      simp [due?, executing, timetable, hc, Commits.nextDue?, Commits.executing, hrunning,
        htimetable, Prod.ext_iff]

theorem lt_due_of_ordered
    (h : (w.timetable id).Pairwise fun first second => first.2 ≤ second.2)
    (hidle : w.executing id = none) (hlater : ∀ due, w.due? id = some due → time < due) :
    ∀ entry ∈ w.timetable id, time < entry.2 := by
  cases htimetable : w.timetable id with
  | nil => simp
  | cons first rest =>
    have hfirst : time < first.2 :=
      hlater _ (due?_eq_some_iff.2 ⟨hidle, first.1, rest, htimetable⟩)
    rw [htimetable] at h
    exact fun entry hentry => Nat.lt_of_lt_of_le hfirst (due_le_of_ordered h entry hentry)

theorem clock_act (w : World ℓ κ) (id : ConsumerId) (a : Act ℓ κ) :
    (w.act id a).2.clock = w.clock := by
  have hturn (f : Consumer ℓ κ → Turn ℓ κ) : (w.takeTurn f id).2.clock = w.clock := by
    unfold takeTurn
    split <;> rfl
  cases a with
  | request r => exact hturn _
  | proceed =>
    simp only [World.act]
    split
    · exact hturn _
    · rfl
  | startCommit =>
    simp only [World.act, World.startCommit]
    cases w.consumer? id with
    | none => rfl
    | some c =>
      cases hs : c.commits.start? w.cluster <;> simp only [hs]
      rfl
  | abandon | drop =>
    simp only [World.act]
    split <;> rfl
  | _ => rfl

theorem clock_after (w : World ℓ κ) (m : Move ℓ κ) :
    (w.after m).clock = w.clock ∨ ∃ time, m = .advance time ∧ (w.after m).clock = max w.clock time := by
  cases m with
  | advance time => exact .inr ⟨time, rfl, rfl⟩
  | act id a => exact .inl (clock_act w id a)
  | cluster step =>
    left
    simp only [after, World.step, stepCluster]
    split <;> rfl
  | _ => exact .inl rfl

theorem clock_le_after (w : World ℓ κ) (m : Move ℓ κ) : w.clock ≤ (w.after m).clock := by
  rcases clock_after w m with hsame | ⟨time, -, hlater⟩
  · exact Nat.le_of_eq hsame.symm
  · rw [hlater]
    exact Nat.le_max_left ..

theorem clock_le_run (w : World ℓ κ) (ms : List (Move ℓ κ)) : w.clock ≤ (w.run ms).clock := by
  induction ms generalizing w with
  | nil => exact Nat.le_refl _
  | cons m ms ih => exact Nat.le_trans (clock_le_after w m) (ih (w.after m))

theorem inStep_run (ms : List (Move ℓ κ)) (hc : (initial.run ms).consumer? id = some c) :
    c.commits.InStep (initial.run ms).clock := by
  induction ms using List.reverseRecOn generalizing c with
  | nil => simp [initial, consumer?] at hc
  | append_singleton ms m ih =>
    rw [run_append, run_cons, run_nil] at hc ⊢
    have hle := clock_le_after (initial.run ms) m
    rcases consumer?_after_cases hc with ⟨-, b, -, rfl⟩ | ⟨c₀, h₀, ⟨a, -, rfl⟩ | ⟨-, rfl⟩⟩
    · exact Consumer.inStep_ofBehaviour b _
    · exact ((ih h₀).changes (Consumer.changes_act ..)).mono hle
    · exact (ih h₀).mono hle

/-- In every state that can be reached, commits wait in the order in which they are due. -/
theorem ordered_timetable (id : ConsumerId) (ms : List (Move ℓ κ)) :
    ((initial.run ms).timetable id).Pairwise (fun first second => first.2 ≤ second.2) := by
  cases hc : (initial.run ms).consumer? id with
  | none => simp [timetable, hc]
  | some c => simpa [timetable, hc] using (inStep_run ms hc).ordered

theorem timetable_after_cases (hseen : w.unseen id = []) (hnone : w.accepted id m = []) :
    (w.after m).unseen id = [] ∧ ((w.after m).timetable id = w.timetable id ∨
      ∃ entry, w.timetable id = entry :: (w.after m).timetable id ∧ w.due? id = some entry.2) := by
  cases hc : w.consumer? id with
  | none =>
    cases hc' : (w.after m).consumer? id with
    | none => simp [unseen, timetable, hc, hc']
    | some c' =>
      rcases consumer?_after_cases hc' with ⟨-, b, -, rfl⟩ | ⟨c, h, -⟩
      · simp [unseen, timetable, hc, hc', Consumer.ofBehaviour, Commits.ofDelay, Commits.unseen]
      · cases hc.symm.trans h
  | some c =>
    rcases acted?_cases hc m with ⟨a, rfl, hacted, hafter⟩ | ⟨-, hafter⟩
    · have hledger := (ledger_after id w (.act id a)).1
      rw [hnone, List.append_nil] at hledger
      simp only [waiting, hc, hafter, Option.map_some, Option.getD_some] at hledger
      have hlength := congrArg List.length hledger
      rw [List.length_append] at hlength
      simp only [unseen, hc, Option.map_some, Option.getD_some] at hseen
      simpa [unseen, timetable, due?, hc, hafter] using
        (c.changes_act w.cluster w.clock a).timetable hseen (by omega)
    · exact ⟨by simpa [unseen, hc, hafter] using hseen, .inl (by simp [timetable, hc, hafter])⟩

theorem timetable_after (hseen : w.unseen id = []) (hnone : w.accepted id m = []) :
    (w.after m).unseen id = [] ∧ ∃ ran, w.timetable id = ran ++ (w.after m).timetable id ∧
      ran.map (·.1) = (w.executed id m).map (·.1) ∧ ∀ entry ∈ ran, w.due? id = some entry.2 := by
  obtain ⟨hseen', hcases⟩ := timetable_after_cases hseen hnone
  refine ⟨hseen', ?_⟩
  have hledger := (ledger_after id w m).1
  rw [hnone, List.append_nil, waiting_eq, waiting_eq, hseen, hseen', List.append_nil,
    List.append_nil] at hledger
  rcases hcases with hsame | ⟨entry, htimetable, hdue⟩
  · rw [hsame, List.self_eq_append_left] at hledger
    exact ⟨[], hsame.symm, hledger.symm, nofun⟩
  · rw [htimetable, List.map_cons, ← List.singleton_append] at hledger
    exact ⟨[entry], htimetable, List.append_cancel_right hledger, by simpa using hdue⟩

theorem due_le_clock_of_executed (horderly : w.Orderly m) {due : Time}
    (hdue : w.due? id = some due) (h : w.executed id m ≠ []) : due ≤ w.clock := by
  rcases runsOne_or id w m with ⟨_, _, rfl, -⟩ | ⟨hnone, -⟩
  · exact horderly due hdue
  · exact absurd hnone h

theorem executed_ne_nil {ran : List (Commit κ × Time)} {entry : Commit κ × Time}
    (hran : ran.map (·.1) = (w.executed id m).map (·.1)) (hmem : entry ∈ ran) :
    w.executed id m ≠ [] := by
  intro hnone
  rw [hnone] at hran
  exact List.ne_nil_of_mem hmem (List.map_eq_nil_iff.1 hran)

/-- In an orderly run in which none is accepted, those commits run that leave the timetable, and they
are due. -/
theorem timetable_run {ms : List (Move ℓ κ)} (hseen : w.unseen id = [])
    (hnone : collect (accepted id) w ms = []) (horderly : w.Throughout Orderly ms) :
    (w.run ms).unseen id = [] ∧ ∃ ran, w.timetable id = ran ++ (w.run ms).timetable id ∧
      ran.map (·.1) = (collect (executed id) w ms).map (·.1) ∧
      ∀ entry ∈ ran, entry.2 ≤ (w.run ms).clock := by
  induction ms generalizing w with
  | nil => exact ⟨hseen, [], rfl, rfl, nofun⟩
  | cons m ms ih =>
    rw [collect_cons, List.append_eq_nil_iff] at hnone
    obtain ⟨hseen₁, ran₁, hsplit₁, hran₁, hdue₁⟩ := timetable_after hseen hnone.1
    obtain ⟨hseen₂, ran₂, hsplit₂, hran₂, hdue₂⟩ := ih hseen₁ hnone.2 horderly.2
    refine ⟨hseen₂, ran₁ ++ ran₂, ?_, ?_, List.forall_mem_append.2 ⟨fun entry hmem => ?_, hdue₂⟩⟩
    · rw [hsplit₁, hsplit₂, List.append_assoc, run_cons]
    · rw [collect_cons, List.map_append, List.map_append, hran₁, hran₂]
    · have hle := due_le_clock_of_executed horderly.1 (hdue₁ entry hmem)
        (executed_ne_nil hran₁ hmem)
      exact Nat.le_trans hle (Nat.le_trans (clock_le_after w m) (clock_le_run _ ms))

theorem executing_after_of_ne (hm : m ≠ .act id .startCommit) (hidle : w.executing id = none) :
    (w.after m).executing id = none := by
  have hnone : w.executed id m = [] := by
    rcases runsOne_or id w m with ⟨_, _, hstart, -⟩ | ⟨hnone, -⟩
    · exact absurd hstart hm
    · exact hnone
  have hledger := (ledger_after id w m).2
  rw [hidle, hnone, List.map_nil, Option.toList_none, List.append_nil] at hledger
  have hempty := (List.append_eq_nil_iff.1 hledger.symm).2
  exact Option.toList_eq_nil_iff.1 hempty

theorem executing_after_finishCommit (id : ConsumerId) (w : World ℓ κ) :
    (w.after (.act id .finishCommit)).executing id = none := by
  have hafter : (w.after (.act id .finishCommit)).consumer? id =
      (w.consumer? id).map fun c => { c with commits := c.commits.finish w.clock } := by
    simp [after, step, World.act, finishCommit, modifyConsumer, consumer?]
  rw [executing, hafter]
  cases w.consumer? id <;> rfl

theorem accepted_of_holder {activity : Activity ℓ} (h : w.holder? id = some activity)
    (m : Move ℓ κ) : w.accepted id m = [] := by
  obtain ⟨c, hc, hheld⟩ := Option.bind_eq_some_iff.1 h
  cases hacted : w.acted? id m with
  | none => simp [accepted, hacted]
  | some acted =>
    obtain ⟨c', a⟩ := acted
    obtain ⟨hc', rfl⟩ := acted?_eq_some_iff.1 hacted
    cases hc.symm.trans hc'
    simp only [accepted, hacted]
    cases a with
    | request r =>
      have hrefused := (request_of_held hc hheld r).1
      rw [outcome_act hc] at hrefused
      simp [Consumer.accepted, hrefused, Outcome.isSuccess]
    | _ => rfl

theorem collect_accepted_of_holder {activity : Activity ℓ} {ms : List (Move ℓ κ)}
    (h : w.holder? id = some activity) (hms : ∀ m ∈ ms, m.resumes id = false) :
    collect (accepted id) w ms = [] := by
  induction ms generalizing w with
  | nil => rfl
  | cons m ms ih =>
    obtain ⟨hm, hms⟩ := List.forall_mem_cons.1 hms
    have hheld : (w.after m).holder? id = some activity := holder?_after h hm
    rw [collect_cons, accepted_of_holder h, ih hheld hms]
    rfl

/-- The consumer is closed and free, and otherwise is as `c` but for its faults and commits. -/
def IsClosed (c : Consumer ℓ κ) (id : ConsumerId) (w : World ℓ κ) : Prop :=
  ∃ pollFaults commits,
    w.consumer? id = some { c with guard := .free, closed := true, pollFaults, commits }

theorem isClosed_after (h : w.IsClosed c id) (m : Move ℓ κ) :
    (w.after m).IsClosed c id ∧ w.accepted id m = [] := by
  obtain ⟨pollFaults, commits, hc⟩ := h
  rcases acted?_cases hc m with ⟨a, rfl, hacted, hafter⟩ | ⟨hacted, hafter⟩
  · obtain ⟨⟨pollFaults', commits', heq⟩, hnone⟩ := Consumer.act_of_closed (c := {
      c with guard := .free, closed := true, pollFaults, commits }) w.cluster w.clock rfl rfl a
    refine ⟨⟨pollFaults', commits', hafter.trans (congrArg some heq)⟩, ?_⟩
    simp only [accepted, hacted]
    exact hnone
  · exact ⟨⟨pollFaults, commits, hafter⟩, by simp [accepted, hacted]⟩

/-- No time passes while the callback of a commit of the consumer runs. -/
def IsPrompt (id : ConsumerId) (w : World ℓ κ) (m : Move ℓ κ) : Prop :=
  ∀ time, m = .advance time → (w.executing id).isSome = true → time ≤ w.clock

/-- The worker has seen all commits of the consumer, and none of them is late. -/
structure OnTime (id : ConsumerId) (w : World ℓ κ) : Prop where
  seen : w.unseen id = []
  ordered : (w.timetable id).Pairwise fun first second => first.2 ≤ second.2
  clock_le : ∀ entry ∈ w.timetable id, w.clock ≤ entry.2

def executedAt (id : ConsumerId) (w : World ℓ κ) (m : Move ℓ κ) : List (Commit κ × Time) :=
  (w.executed id m).map fun e => (e.1, w.clock)

theorem OnTime.clock_after_le (h : w.OnTime id) (horderly : w.Orderly m)
    (hprompt : w.IsPrompt id m) : ∀ entry ∈ w.timetable id, (w.after m).clock ≤ entry.2 := by
  intro entry hmem
  rcases clock_after w m with hsame | ⟨time, rfl, hlater⟩
  · rw [hsame]
    exact h.clock_le entry hmem
  · rw [hlater]
    refine Nat.max_le.2 ⟨h.clock_le entry hmem, ?_⟩
    cases hexecuting : w.executing id with
    | some running =>
      have hle := hprompt time rfl (by rw [hexecuting]; rfl)
      exact Nat.le_trans hle (h.clock_le entry hmem)
    | none =>
      obtain ⟨first, rest, htimetable⟩ := List.exists_cons_of_ne_nil (List.ne_nil_of_mem hmem)
      have hdue : w.due? id = some first.2 :=
        due?_eq_some_iff.2 ⟨hexecuting, first.1, rest, htimetable⟩
      have hpass := horderly id first.2 hdue
      have hfirst := h.clock_le first (htimetable ▸ List.mem_cons_self)
      have hle : first.2 ≤ entry.2 :=
        due_le_of_ordered (htimetable ▸ h.ordered) entry (htimetable ▸ hmem)
      exact Nat.le_trans hpass (Nat.max_le.2 ⟨Nat.le_trans hfirst hle, hle⟩)

/-- In one move, none gets late, and what runs is due just then. -/
theorem OnTime.after (h : w.OnTime id) (hnone : w.accepted id m = []) (horderly : w.Orderly m)
    (hprompt : w.IsPrompt id m) :
    (w.after m).OnTime id ∧ w.timetable id = w.executedAt id m ++ (w.after m).timetable id := by
  obtain ⟨hseen, ran, hsplit, hran, hdue⟩ := timetable_after h.seen hnone
  have hordered := h.ordered
  rw [hsplit] at hordered
  refine ⟨⟨hseen, hordered.sublist (List.sublist_append_right ..), fun entry hmem => ?_⟩, ?_⟩
  · exact h.clock_after_le horderly hprompt entry (hsplit ▸ List.mem_append_right _ hmem)
  · have hat : ran = w.executedAt id m := by
      have hnow : ∀ entry ∈ ran, entry.2 = w.clock := by
        intro entry hmem
        have hsome : w.executed id m ≠ [] := executed_ne_nil hran hmem
        have hle := due_le_clock_of_executed horderly (hdue entry hmem) hsome
        exact Nat.le_antisymm hle (h.clock_le entry (hsplit ▸ List.mem_append_left _ hmem))
      have hmap : w.executedAt id m = (ran.map (·.1)).map (·, w.clock) := by
        rw [hran, List.map_map]
        rfl
      rw [hmap, List.map_map]
      exact (List.map_id' ran).symm.trans
        (List.map_congr_left fun entry hmem => Prod.ext rfl (hnow entry hmem))
    rw [← hat, ← hsplit]

/-- In an orderly run in which callbacks take no time, the commits of a closed consumer that are not
late run one after the other when they are due, each once. -/
theorem executed_on_time {ms : List (Move ℓ κ)} (h : w.OnTime id) (hclosed : w.IsClosed c id)
    (horderly : w.Throughout Orderly ms) (hprompt : w.Throughout (IsPrompt id) ms) :
    w.timetable id = collect (executedAt id) w ms ++ (w.run ms).timetable id ∧
      (w.run ms).OnTime id := by
  induction ms generalizing w with
  | nil => exact ⟨rfl, h⟩
  | cons m ms ih =>
    obtain ⟨hclosed', hnone⟩ := isClosed_after hclosed m
    obtain ⟨hontime, hsplit⟩ := h.after hnone horderly.1 hprompt.1
    obtain ⟨hrest, hend⟩ := ih hontime hclosed' horderly.2 hprompt.2
    refine ⟨?_, hend⟩
    rw [collect_cons, List.append_assoc, run_cons, ← hrest, hsplit]

theorem isClosed_run (h : w.IsClosed c id) (ms : List (Move ℓ κ)) : (w.run ms).IsClosed c id := by
  induction ms generalizing w with
  | nil => exact h
  | cons m ms ih => exact ih (isClosed_after h m).1

end World

end LogConsumer
