import LogConsumer.Proofs.Brief

/-! Closing a consumer. The close lets the commits run that are due by its deadline. It returns as
soon as none is in flight, or else at the deadline, and those that are left run later, when they are
due. Main statement: `close_drains`. -/
namespace LogConsumer

theorem foldl_max_eq {first last : Nat} {l : List Nat} (hfirst : first ≤ last)
    (h : ∀ x ∈ l, x ≤ last) (hlast : last = first ∨ last ∈ l) : l.foldl max first = last := by
  induction l generalizing first with
  | nil => exact (hlast.resolve_right List.not_mem_nil).symm
  | cons x l ih =>
    obtain ⟨hx, hl⟩ := List.forall_mem_cons.1 h
    refine ih (Nat.max_le.2 ⟨hfirst, hx⟩) hl ?_
    rcases hlast with rfl | hlast
    · exact .inl (Nat.max_eq_left hx).symm
    · rcases List.mem_cons.1 hlast with rfl | hlast
      · exact .inl (Nat.max_eq_right hfirst).symm
      · exact .inr hlast

theorem filter_due {κ : Type} {ran left : List (Commit κ × Time)} {deadline : Time}
    (hran : ∀ entry ∈ ran, entry.2 ≤ deadline) (hleft : ∀ entry ∈ left, deadline < entry.2) :
    (ran ++ left).filter (·.2 ≤ deadline) = ran ∧
      (ran ++ left).filter (deadline < ·.2) = left := by
  have hranNot : ∀ entry ∈ ran, ¬ deadline < entry.2 := fun entry hentry =>
    Nat.not_lt_of_le (hran entry hentry)
  have hleftNot : ∀ entry ∈ left, ¬ entry.2 ≤ deadline := fun entry hentry =>
    Nat.not_le_of_lt (hleft entry hentry)
  rw [List.filter_append, List.filter_append]
  refine ⟨?_, ?_⟩
  · rw [List.filter_eq_self.2 (by simpa using hran),
      List.filter_eq_nil_iff.2 (by simpa using hleftNot), List.append_nil]
  · rw [List.filter_eq_nil_iff.2 (by simpa using hranNot),
      List.filter_eq_self.2 (by simpa using hleft), List.nil_append]

section Close

variable {ℓ κ : Type} {w : World ℓ κ} {id : ConsumerId} {c : Consumer ℓ κ}

namespace World

theorem request_close (hc : w.consumer? id = some c) (h : c.enter = .ok ())
    (timeout : Option Duration) :
    w.request id (.close timeout) =
      (.drainUntil (w.clock + (timeout.getD c.options.closeTimeout).nanos),
        w.setConsumer id ({ c with commits := c.commits.stop }.hold .closing)) := by
  simp only [World.request, takeTurn, hc, Consumer.request, h]
  rfl

theorem after_close (hc : w.consumer? id = some c) (h : c.enter = .ok ()) {timeout : Option Duration}
    {w' : World ℓ κ} (hw : w' = w.after (.act id (.request (.close timeout)))) (cost : Time → κ → Nat) :
    w'.IsHeld .closing c id ∧ w'.timetable id = c.commits.timetable ∧
      w'.executing id = c.commits.executing ∧ w'.clock = w.clock ∧ w'.load cost = w.load cost := by
  have hset : w' = w.setConsumer id ({ c with commits := c.commits.stop }.hold .closing) :=
    hw.trans (congrArg (·.2) (request_close hc h timeout))
  have hafter : w'.consumer? id = some ({ c with commits := c.commits.stop }.hold .closing) :=
    hset ▸ consumer?_setConsumer_self hc _
  refine ⟨⟨c.pollFaults, c.commits.stop, hafter⟩, ?_, ?_, by rw [hset]; rfl, ?_⟩
  · rw [timetable, hafter]
    rfl
  · rw [executing, hafter]
    rfl
  · have hload := load_setConsumer hc ({ c with commits := c.commits.stop }.hold .closing) cost
    rw [← hset] at hload
    exact Nat.add_right_cancel hload

theorem proceed_of_closing (h : w.IsHeld .closing c id) :
    (w.proceed id).1 = .answered (.ok .done) ∧ (w.after (.act id .proceed)).IsClosed c id ∧
      (w.after (.act id .proceed)).timetable id = w.timetable id ∧
      (w.after (.act id .proceed)).executing id = w.executing id := by
  obtain ⟨pollFaults, commits, hc⟩ := h
  have hafter : (w.after (.act id .proceed)).consumer? id =
      some { c with guard := .free, closed := true, pollFaults, commits } :=
    consumer?_after_act hc .proceed
  refine ⟨?_, ⟨pollFaults, commits, hafter⟩, ?_, ?_⟩
  · simp only [World.proceed, takeTurn, hc]
    rfl
  · simp [timetable, hc, hafter]
  · simp [executing, hc, hafter]

end World

end Close

open Stage Play

namespace Stage

variable {terms : Terms} {id : ConsumerId} {s s' s'' : Stage} {time time' : Time}

/-- The wait goes on from `s` to `s'` and to that time, and callbacks keep to the terms. -/
structure Passes (terms : Terms) (s s' : Stage) (time : Time) : Prop where
  leads : Leads none s s'
  clock : s'.world.clock = time
  load_le : s'.world.load terms.cost ≤ s.world.load terms.cost
  calls : s'.world.CallsOnly terms.admits
  known : terms.known s'

theorem Passes.trans (h : Passes terms s s' time) (h' : Passes terms s' s'' time') :
    Passes terms s s'' time' :=
  ⟨h.leads.trans h'.leads, h'.clock, Nat.le_trans h'.load_le h.load_le, h'.calls, h'.known⟩

theorem Passes.isClosing (h : Passes terms s s' time) (hs : s.IsClosing terms id) :
    s'.IsClosing terms id := ⟨h.leads.sound, h.leads.stands (by simp) hs.stands, h.calls, h.known⟩

theorem IsClosing.passes (hs : s.IsClosing terms id) : Passes terms s s s.world.clock :=
  ⟨.refl none hs.sound, rfl, Nat.le_refl _, hs.calls, hs.known⟩

/-- The wait goes on by moves that leave the consumer's guard alone. Of its commits the first ones
run, and they are due by then. -/
theorem Passes.moves (h : Passes terms s s' time) (hs : s.IsClosing terms id)
    (hidle : s.world.executing id = none) :
    ∃ ms ran, s'.world = s.world.run ms ∧ (∀ m ∈ ms, m.resumes id = false) ∧
      (World.collect (World.executed id) s.world ms).map (·.1) = ran.map (·.1) ∧
      s.world.timetable id = ran ++ s'.world.timetable id ∧ ∀ entry ∈ ran, entry.2 ≤ time := by
  obtain ⟨ms, hworld, horderly, hms⟩ := h.leads.moves
  have hresumes := (hms id _ (by simp) hs.stands).1
  obtain ⟨-, ran, hsplit, hran, hdue⟩ := World.timetable_run (World.unseen_of_idle hidle)
    (World.collect_accepted_of_holder hs.stands.held hresumes) horderly
  rw [← hworld] at hsplit hdue
  exact ⟨ms, ran, hworld, hresumes, hran.symm, hsplit, h.clock ▸ hdue⟩

theorem Passes.clock_le (h : Passes terms s s' time) : s.world.clock ≤ time := by
  obtain ⟨ms, hworld, -⟩ := h.leads.moves
  rw [← h.clock, hworld]
  exact World.clock_le_run s.world ms

/-- How a wait ends that began in `s`: at the time at which the last commit was due, with none in
flight any more, or else at the deadline, with none that is due by then. -/
inductive Ends (id : ConsumerId) (deadline : Time) (s s' : Stage) (time : Time) : Prop
  | drained (hnone : s'.world.timetable id = []) (hby : time ≤ deadline)
      (hlast : time = s.world.clock ∨ ∃ entry ∈ s.world.timetable id, entry.2 = time)
  | timedOut (hsome : s'.world.timetable id ≠ []) (htime : time = deadline)
      (hlater : ∀ due, s'.world.due? id = some due → deadline < due)

/-- What ran and what is left when the wait ends are told by the deadline. -/
theorem Passes.split {deadline : Time} (h : Passes terms s s' time) (hs : s.IsClosing terms id)
    (hend : Ends id deadline s s' time) (hidle : s.world.executing id = none)
    (hordered : (s.world.timetable id).Pairwise fun first second => first.2 ≤ second.2) :
    ∃ ms, s'.world = s.world.run ms ∧ (∀ m ∈ ms, m.resumes id = false) ∧ time ≤ deadline ∧
      (World.collect (World.executed id) s.world ms).map (·.1) =
        ((s.world.timetable id).filter (·.2 ≤ deadline)).map (·.1) ∧
      s'.world.timetable id = (s.world.timetable id).filter (deadline < ·.2) ∧
      (s'.world.timetable id = [] →
        time = ((s.world.timetable id).map (·.2)).foldl max s.world.clock) ∧
      (s'.world.timetable id ≠ [] → time = deadline) := by
  obtain ⟨ms, ran, hworld, hresumes, hran, hsplit, hranDue⟩ := h.moves hs hidle
  obtain ⟨hby, hleftDue⟩ :
      time ≤ deadline ∧ ∀ entry ∈ s'.world.timetable id, deadline < entry.2 := by
    cases hend with
    | drained hnone hby => exact ⟨hby, by simp [hnone]⟩
    | timedOut _ htime hlater =>
      have hleftOrdered := (hsplit ▸ hordered).sublist (List.sublist_append_right ran _)
      have hidle' := h.leads.idle id hidle
      exact ⟨Nat.le_of_eq htime, World.lt_due_of_ordered hleftOrdered hidle' hlater⟩
  obtain ⟨hfirst, hrest⟩ :=
    filter_due (fun entry hmem => Nat.le_trans (hranDue entry hmem) hby) hleftDue
  rw [← hsplit] at hfirst hrest
  refine ⟨ms, hworld, hresumes, hby, hfirst.symm ▸ hran, hrest.symm, ?_, ?_⟩
  · intro hnone
    have hall : s.world.timetable id = ran := by rw [hsplit, hnone, List.append_nil]
    cases hend with
    | drained _ _ hlast =>
      rw [hall] at hlast ⊢
      exact (foldl_max_eq h.clock_le (List.forall_mem_map.2 hranDue)
        (hlast.imp_right List.mem_map.2)).symm
    | timedOut hsome => exact absurd hnone hsome
  · intro hsome
    cases hend with
    | drained hnone => exact absurd hnone hsome
    | timedOut _ htime => exact htime

end Stage

section Wait

variable {run : Runner} {terms : Terms} {id : ConsumerId} {deadline : Time} {s : Stage}

theorem passes_runCommit (hrun : IsSteady run) (hkeeps : Keeps run terms id deadline)
    (hs : s.IsClosing terms id) (hby : s.world.clock ≤ deadline) {id' : ConsumerId} {due : Time}
    (hdue : s.world.due? id' = some due) (hle : due ≤ s.world.clock) :
    ∃ s', (runCommit run id').on s = (.ok (), s') ∧ s.Passes terms s' s.world.clock ∧
      s'.world.load terms.cost < s.world.load terms.cost := by
  obtain ⟨commit, result, hstarted, hmem, hload⟩ := World.startCommit_of_due hdue terms.cost
  have hnow : ∀ due', s.world.due? id' = some due' → due' ≤ s.world.clock := by
    intro due' hdue'
    exact Option.some.inj (hdue.symm.trans hdue') ▸ hle
  obtain ⟨s₁, heq⟩ : ∃ s₁, s₁ = { s with world := s.world.after (.act id' .startCommit) } := ⟨_, rfl⟩
  have hs₁ : s₁.IsClosing terms id := by
    have hstart (id : ConsumerId) :
        (Move.act id' .startCommit : Move Listener Callback).resumes id = false := by
      simp [Move.resumes, Move.act?]
    subst heq
    exact ⟨hs.sound.after fun _ id _ => hstart id, hs.stands.after (hstart id),
      hs.calls.after fun id'' => by simp [World.accepted_eq_nil], hkeeps.waited hs.known rfl⟩
  have hclock₁ : s₁.world.clock = s.world.clock := heq ▸ World.clock_act s.world id' .startCommit
  have hload₁ : s₁.world.load terms.cost + commit.load terms.cost due =
      s.world.load terms.cost := by
    subst heq
    exact startCommit_eq id' s.world ▸ hload
  obtain ⟨outcome, s₂, hon, hcases⟩ := on_runCommit run hstarted heq
  obtain ⟨n, hn, rfl, hspends⟩ : ∃ n, n < commit.load terms.cost due ∧ outcome = .ok () ∧
      Spends terms n s₁ s₂ := by
    rcases hcases with ⟨-, hok, rfl⟩ | ⟨callback, report, events, hcallback, rfl, rfl, hok⟩
    · exact ⟨0, commit.load_pos terms.cost due, hok, hs₁.spends 0⟩
    · have hadmits : terms.admits callback := hs.calls id' commit hmem callback hcallback
      have hle₁ : due ≤ s₁.world.clock := hclock₁ ▸ hle
      have hby₁ : s₁.world.clock ≤ deadline := hclock₁ ▸ hby
      have hspends := hkeeps.spends hadmits hs₁ hle₁ hby₁
      have hcost : commit.load terms.cost due = 1 + terms.cost due callback := by
        simp [Commit.load, hcallback]
      exact ⟨terms.cost due callback, by omega, hok (hkeeps.ends hadmits hs₁ hle₁ hby₁),
        hspends.clock, hspends.load_le, hspends.calls, hkeeps.reported hspends.known⟩
  have hfinish : (s₂.world.after (.act id' .finishCommit)).load terms.cost =
      s₂.world.load terms.cost := World.load_finishCommit s₂.world id' terms.cost
  have hload₂ := hspends.load_le
  have hleads := leads_runCommit hrun id' hs.sound hnow
  rw [hon] at hleads
  refine ⟨_, hon, ⟨hleads, ?_, ?_, ?_, hkeeps.waited hspends.known rfl⟩, ?_⟩
  · exact (World.clock_act ..).trans (hspends.clock.trans hclock₁)
  · dsimp only
    omega
  · exact hspends.calls.after fun id'' => by simp [World.accepted_eq_nil]
  · dsimp only
    omega

/-- Time passes, and all commits run that are due by then. -/
theorem passes_passUntil (hrun : IsSteady run) (hkeeps : Keeps run terms id deadline)
    (hs : s.IsClosing terms id) {time : Time} (hby : max s.world.clock time ≤ deadline) {bound : Nat}
    (hbound : s.world.load terms.cost < bound) :
    ∃ s', (passUntil run bound time).on s = (.ok (), s') ∧
      s.Passes terms s' (max s.world.clock time) ∧
      (∀ id' due, s'.world.due? id' = some due → max s.world.clock time < due) ∧
      (s'.world.load terms.cost < s.world.load terms.cost ∨
        ∀ id' due, s.world.due? id' = some due → max s.world.clock time < due) := by
  induction bound generalizing s with
  | zero => omega
  | succ bound ih =>
    have hadvance {time' : Time} (horderly : s.world.Orderly (.advance time')) :
        s.Passes terms { s with world := s.world.advance time' } (max s.world.clock time') :=
      ⟨(does_advance hs.sound horderly).leads, rfl, World.load_advance terms.wanes .., hs.calls,
        hkeeps.waited (m := .advance time') hs.known rfl⟩
    unfold passUntil
    rw [on_bind, on_get]
    dsimp only
    cases hnext : s.world.nextDue? (max s.world.clock time) with
    | none =>
      have hlater (id' : ConsumerId) (due : Time) (hdue : s.world.due? id' = some due) :
          max s.world.clock time < due := World.lt_of_nextDue?_eq_none hnext hdue
      exact ⟨_, rfl, hadvance (World.orderly_advance_of_none hnext), hlater, .inr hlater⟩
    | some next =>
      obtain ⟨id', due⟩ := next
      obtain ⟨hdue, hle, -⟩ := World.nextDue?_eq_some hnext
      have hpass := hadvance (World.orderly_advance_of_some hnext)
      have hmax : max s.world.clock due ≤ max s.world.clock time :=
        Nat.max_le.2 ⟨Nat.le_max_left .., hle⟩
      obtain ⟨s₁, hon₁, hpass₁, hless⟩ := passes_runCommit hrun hkeeps (hpass.isClosing hs)
        (s := { s with world := s.world.advance due }) (Nat.le_trans hmax hby) hdue
        (Nat.le_max_right ..)
      have hpasses : s.Passes terms s₁ (max s.world.clock due) := hpass.trans hpass₁
      have hload₁ : s₁.world.load terms.cost < s.world.load terms.cost :=
        Nat.lt_of_lt_of_le hless (World.load_advance terms.wanes ..)
      have htime : max s₁.world.clock time = max s.world.clock time := by
        rw [hpasses.clock]
        refine Nat.le_antisymm (Nat.max_le.2 ⟨hmax, Nat.le_max_right ..⟩) ?_
        have hstart := Nat.le_trans (Nat.le_max_left s.world.clock due) (Nat.le_max_left _ time)
        exact Nat.max_le.2 ⟨hstart, Nat.le_max_right ..⟩
      obtain ⟨s₂, hon₂, hpass₂, hlater, -⟩ :=
        ih (hpasses.isClosing hs) (htime ▸ hby) (Nat.lt_of_lt_of_le hload₁ (Nat.le_of_lt_succ hbound))
      rw [htime] at hpass₂ hlater
      refine ⟨s₂, ?_, hpasses.trans hpass₂, hlater, .inl (Nat.lt_of_le_of_lt hpass₂.load_le hload₁)⟩
      dsimp only
      rw [on_bind, on_modifyWorld]
      dsimp only
      rw [on_bind, hon₁]
      exact hon₂

/-- The wait of a close is over when no commit is in flight any more, and then no time has passed
since the last one was due; or else it is over at the deadline. -/
theorem passes_drainUntil (hrun : IsSteady run) (hkeeps : Keeps run terms id deadline)
    (hs : s.IsClosing terms id) (hidle : s.world.executing id = none)
    (hle : s.world.clock ≤ deadline) {limit : Nat} (hlimit : s.world.load terms.cost < limit)
    {bound : Nat} (hbound : s.world.load terms.cost < bound) :
    ∃ s' time, (drainUntil limit run id (some deadline) bound).on s = (.ok (), s') ∧
      s.Passes terms s' time ∧ Ends id deadline s s' time := by
  induction bound generalizing s with
  | zero => omega
  | succ bound ih =>
    unfold drainUntil
    rw [on_bind, on_get]
    dsimp only
    have hwaiting := World.waiting_of_idle hidle
    cases htimetable : s.world.timetable id with
    | nil =>
      have hnone : s.world.inFlight id = 0 := by
        simp [World.inFlight_eq, hwaiting, htimetable, hidle]
      rw [if_pos hnone]
      exact ⟨s, _, rfl, hs.passes, .drained htimetable hle (.inl rfl)⟩
    | cons first rest =>
      have hsome : s.world.inFlight id ≠ 0 := by
        simp [World.inFlight_eq, hwaiting, htimetable]
      have hdue : s.world.due? id = some first.2 :=
        World.due?_eq_some_iff.2 ⟨hidle, first.1, rest, htimetable⟩
      have hnext : (s.world.consumer? id).bind (·.commits.nextDue?) = some first.2 := hdue
      rw [if_neg hsome, hnext]
      dsimp only
      by_cases hby : first.2 ≤ deadline
      · rw [if_pos hby]
        have hby₁ : max s.world.clock first.2 ≤ deadline := Nat.max_le.2 ⟨hle, hby⟩
        obtain ⟨s₁, hon₁, hpass₁, hlater, hless⟩ := passes_passUntil hrun hkeeps hs hby₁ hlimit
        obtain ⟨-, ran, -, -, -, hran, -⟩ := hpass₁.moves hs hidle
        have hload₁ : s₁.world.load terms.cost < s.world.load terms.cost := by
          refine hless.resolve_right fun hlater => ?_
          exact Nat.not_lt_of_le (Nat.le_max_right s.world.clock first.2) (hlater id _ hdue)
        have hle₁ : s₁.world.clock ≤ deadline := hpass₁.clock ▸ hby₁
        obtain ⟨s', time, hon, hpass, hend⟩ := ih (hpass₁.isClosing hs) (hpass₁.leads.idle id hidle)
          hle₁ (Nat.lt_trans hload₁ hlimit) (Nat.lt_of_lt_of_le hload₁ (Nat.le_of_lt_succ hbound))
        refine ⟨s', time, by rw [on_bind, hon₁]; exact hon, hpass₁.trans hpass, ?_⟩
        cases hend with
        | timedOut hsome htime hlater => exact .timedOut hsome htime hlater
        | drained hnone hby hlast =>
          refine .drained hnone hby ?_
          rcases hlast with hsame | ⟨entry, hmem, hentry⟩
          · rw [hsame, hpass₁.clock]
            rcases Nat.le_total s.world.clock first.2 with hfirst | hfirst
            · exact .inr ⟨first, by simp [htimetable], (Nat.max_eq_right hfirst).symm⟩
            · exact .inl (Nat.max_eq_left hfirst)
          · exact .inr ⟨entry, hran ▸ List.mem_append_right _ hmem, hentry⟩
      · rw [if_neg hby]
        have htime : max s.world.clock deadline = deadline := Nat.max_eq_right hle
        obtain ⟨s₁, hon₁, hpass₁, hlater, -⟩ :=
          passes_passUntil hrun hkeeps hs (Nat.le_of_eq htime) hlimit
        rw [htime] at hpass₁ hlater
        refine ⟨s₁, deadline, hon₁, hpass₁, .timedOut ?_ rfl (hlater id)⟩
        intro hnone
        obtain ⟨-, ran, -, -, -, hran, hranDue⟩ := hpass₁.moves hs hidle
        rw [hnone, List.append_nil, htimetable] at hran
        exact hby (hranDue first (hran ▸ List.mem_cons_self))

theorem on_carryOut_close {c : Consumer Listener Callback} (hc : s.world.consumer? id = some c)
    (hopen : c.enter = .ok ()) (timeout : Option Duration) {deadline : Time}
    (hdeadline : deadline = s.world.clock + (timeout.getD c.options.closeTimeout).nanos)
    {bound : Nat} {s₁ s₂ : Stage}
    (hs₁ : s₁ = { s with world := s.world.after (.act id (.request (.close timeout))) })
    (hdrain : (drainUntil (bound + 1) run id (some deadline) (bound + 1)).on s₁ = (.ok (), s₂))
    {c₁ : Consumer Listener Callback} (hheld : s₂.world.IsHeld .closing c₁ id) :
    (carryOut (bound + 1) run id (.close timeout)).on s =
      (.ok .done, { s₂ with world := s₂.world.after (.act id .proceed) }) := by
  have hrequest : s.world.request id (.close timeout) =
      (.drainUntil deadline, s.world.after (.act id (.request (.close timeout)))) := by
    refine Prod.ext ?_ rfl
    rw [World.request_close hc hopen, hdeadline]
  have hproceed : s₂.world.proceed id =
      (.answered (.ok .done), s₂.world.after (.act id .proceed)) := by
    refine Prod.ext (World.proceed_of_closing hheld).1 ?_
    simp [World.after, World.step, World.act, hheld.holder?]
  simp only [carryOut, follow, on_bind, on_updateWorld, hrequest, ← hs₁, hdrain, hproceed]
  rfl

theorem isClosing_request {c : Consumer Listener Callback} (hs : s.Sound)
    (hc : s.world.consumer? id = some c) (hopen : c.enter = .ok ())
    (hcalls : s.world.CallsOnly terms.admits) {timeout : Option Duration} {s₁ : Stage}
    (hs₁ : s₁ = { s with world := s.world.after (.act id (.request (.close timeout))) })
    (hknown : terms.known s₁) :
    s₁.IsClosing terms id := by
  obtain ⟨m, hm⟩ : ∃ m : Move Listener Callback, m = .act id (.request (.close timeout)) := ⟨_, rfl⟩
  have hquiet : m.isQuiet = true := hm ▸ rfl
  have hnot : ∀ id' r, m = .act id' (.request r) → r.isCommit = false := by
    rintro id' r rfl
    cases hm
    rfl
  have hheld := (World.after_close hc hopen (congrArg s.world.after hm) terms.cost).1.holder?
  have hfree : s.world.holder? id = none := by
    simp [World.holder?, hc, (Consumer.enter_eq_ok_iff.1 hopen).1]
  rw [← hm] at hs₁
  subst hs₁
  exact ⟨hs.after fun _ id _ => Move.resumes_of_isQuiet hquiet id,
    ⟨hheld, hs.apart (by simp [hfree])⟩,
    hcalls.after fun id' => by simp [World.accepted_eq_nil hnot], hknown⟩

def World.RefusesAll (id : ConsumerId) (w : World Listener Callback) : Prop :=
  ∃ c, w.consumer? id = some c ∧ c.closed = false ∧ ∀ r,
    w.outcome (.act id (.request r)) = .progress (.answered (.error .concurrentAccess)) ∧
      w.after (.act id (.request r)) = w

theorem World.IsHeld.refusesAll {w : World Listener Callback} {c : Consumer Listener Callback}
    (h : w.IsHeld .closing c id) (hopen : c.closed = false) : w.RefusesAll id := by
  obtain ⟨pollFaults, commits, hc⟩ := h
  exact ⟨_, hc, hopen, World.request_of_held hc rfl⟩

end Wait

def insistent : Callback :=
  ⟨"insistent", [.request "c" (.commitOffsets .empty none) false, .request "c" (.close none) false,
    .inspect "c"]⟩

/-- A consumer with two commits in flight. The second was scheduled while the callback of one before
them took a millisecond, and is due ten milliseconds after that was over. -/
def sampleInFlight : Stage :=
  { Stage.initial with
    names := SortedMap.empty.insert "c" 0
    world := World.initial.run
      [.create .standard, .act 0 (.request (.commitOffsets .empty none)), .advance 5000000,
        .act 0 (.request (.commitOffsets .empty (some insistent))), .advance 10000000,
        .act 0 .startCommit, .act 0 (.request (.commitOffsets .empty (some insistent))),
        .advance 11000000, .act 0 .finishCommit] }

end LogConsumer
