import LogConsumer.Proofs.Refusals
import LogConsumer.Proofs.Schedule

/-! A consumer that is closed is closed for good. Nothing that is done later, to it or to others, by
pools or from callbacks, changes more of it than its faults and the commits that were left. Main
statement: `closed_for_good`. -/
namespace LogConsumer

variable {ℓ κ : Type}

namespace Consumer

variable {cluster : Cluster} {now : Time} {c : Consumer ℓ κ} {a : Act ℓ κ}

/-- A consumer that is closed holds nothing, and accepts no commits from when it begins to close. -/
structure Stopped (c : Consumer ℓ κ) : Prop where
  free : c.closed = true → c.guard = .free
  refusing : c.closed = true ∨ c.guard.holder = some .closing → c.commits.accepting = false

theorem stopped_ofBehaviour (b : Behaviour) : (ofBehaviour b : Consumer ℓ κ).Stopped :=
  ⟨fun _ => rfl, by simp [ofBehaviour, Guard.free]⟩

theorem Stopped.of_open (hclosed : c.closed = false) (hholder : c.guard.holder ≠ some .closing) :
    c.Stopped := by
  refine ⟨fun h => ?_, ?_⟩
  · cases hclosed.symm.trans h
  · rintro (h | h)
    · cases hclosed.symm.trans h
    · exact absurd h hholder

theorem Stopped.undergo (h : c.Stopped) : (c.undergo cluster now a).Stopped := by
  cases a with
  | abandon =>
    simp only [Consumer.undergo]
    split
    next htelling =>
      refine ⟨fun _ => rfl, ?_⟩
      rintro (hclosed | hholder)
      · exact h.refusing (.inl hclosed)
      · cases hholder
    next => exact h
  | startCommit =>
    simp only [Consumer.undergo]
    split
    next e hs =>
      refine ⟨h.free, fun hstopped => ?_⟩
      exact (congrArg (·.accepting) (Commits.start?_eq_some hs).2.2.1).trans (h.refusing hstopped)
    next => exact h
  | drop =>
    simp only [Consumer.undergo]
    split
    next => exact h
    next hfree =>
      have hnone : c.guard.holder = none := by simpa [Guard.isHeld] using hfree
      exact ⟨fun _ => Guard.eq_of_holder_eq hnone, fun _ => rfl⟩
  | finishCommit => exact ⟨h.free, h.refusing⟩
  | addFault kind => cases kind <;> exact ⟨h.free, h.refusing⟩
  | _ => exact h

theorem Stopped.act (h : c.Stopped) : (c.act cluster now a).Stopped := by
  cases hq : c.part? cluster now a with
  | none =>
    rw [act_of_part?_none hq]
    exact h.undergo
  | some q =>
    rw [act_of_part? hq]
    -- The guard is free when an operation is over.
    have hover (hclosed : c.closed = false) (hlast : q.isLast = true) (hq : q ≠ .shut) :
        (c.perform cluster now q).consumer.Stopped := by
      refine .of_open ((closed_perform hq).trans hclosed) ?_
      rw [guard_perform_of_isLast hlast]
      exact nofun
    cases carries_of_part? hq with
    | refused | closedAgain => exact h
    | toldOfChange hopen | toldOfAssignment hopen | toldOfExpiry hopen | expired hopen
    | awaited hopen => exact .of_open (enter_eq_ok_iff.1 hopen).2 nofun
    | changed hopen | activated hopen => exact hover (enter_eq_ok_iff.1 hopen).2 rfl nofun
    | @served r hopen =>
      have hclosed := (enter_eq_ok_iff.1 hopen).2
      rw [perform_serve]
      rcases serve_cases cluster now c r with ⟨_, _, _, _, _, _, heq, -⟩ | ⟨_, heq⟩
      · rw [heq]
        exact .of_open hclosed nofun
      · rw [heq]
        exact ⟨fun hc => (by cases hclosed.symm.trans hc), fun _ => rfl⟩
    | @proceeded activity _ hheld hnext =>
      subst hnext
      -- A closed consumer would hold nothing to go on with.
      have hclosed : c.closed = false := by
        refine Bool.eq_false_iff.2 fun hclosed => ?_
        rw [h.free hclosed] at hheld
        cases hheld
      cases activity with
      | closing => exact ⟨fun _ => rfl, fun _ => h.refusing (.inr hheld)⟩
      | expiring => exact .of_open hclosed nofun
      | _ => exact hover hclosed rfl nofun

theorem enter_of_closed (h : c.Stopped) (hclosed : c.closed = true) : c.enter = .error .closed := by
  simp [enter, Guard.check, h.free hclosed, hclosed]

end Consumer

namespace World

variable {w : World ℓ κ} {id : ConsumerId} {c : Consumer ℓ κ} {m : Move ℓ κ}

def startsNext (id : ConsumerId) (w : World ℓ κ) (m : Move ℓ κ) : Bool :=
  match m.act? id with
  | some .startCommit => (w.executing id).isNone
  | _ => false

theorem startsNext_iff :
    w.startsNext id m = true ↔ m = .act id .startCommit ∧ w.executing id = none := by
  unfold startsNext
  rw [← Move.act?_eq_some_iff]
  cases m.act? id with
  | none => simp
  | some a => cases a <;> simp

/-- If no more are accepted, the commits that wait run in turn, one with each such move. -/
theorem executed_of_no_accepted (hnone : w.accepted id m = []) :
    (w.executed id m).map (·.1) = (w.waiting id).take (w.startsNext id m).toNat ∧
      (w.after m).waiting id = (w.waiting id).drop (w.startsNext id m).toNat := by
  have hledger := (ledger_after id w m).1
  rw [hnone, List.append_nil] at hledger
  rcases runsOne_or id w m with ⟨commit, result, hm, hone, hidle, hwaiting, -⟩ | ⟨hexecuted, -, hidle, -⟩
  · rw [startsNext_iff.2 ⟨hm, hidle⟩, hone, hwaiting]
    exact ⟨rfl, rfl⟩
  · rw [hexecuted] at hledger ⊢
    cases hstarts : w.startsNext id m with
    | false => exact ⟨rfl, hledger.symm⟩
    | true =>
      -- A commit that could run would have run, so none waits.
      obtain ⟨hm, hexecuting⟩ := startsNext_iff.1 hstarts
      rw [hidle hm hexecuting] at hledger ⊢
      exact ⟨rfl, hledger.symm⟩

theorem told_of_isClosed (h : w.IsClosed c id) (m : Move ℓ κ) : w.told id m = [] := by
  obtain ⟨_, _, hc⟩ := h
  rcases acted?_cases hc m with ⟨a, rfl, -, -⟩ | ⟨hacted, -⟩
  · rw [told_act hc]
    rcases Consumer.told_cases w.cluster w.clock _ a with hnil | ⟨_, _, _, hopen, -⟩
    · exact hnil
    · cases (Consumer.enter_eq_ok_iff.1 hopen).2
  · simp [told, hacted]

theorem silent_run (h : w.IsClosed c id) (ms : List (Move ℓ κ)) :
    collect (accepted id) w ms = [] ∧ collect (told id) w ms = [] := by
  induction ms generalizing w with
  | nil => exact ⟨rfl, rfl⟩
  | cons m ms ih =>
    obtain ⟨hclosed, hnone⟩ := isClosed_after h m
    obtain ⟨haccepted, htold⟩ := ih hclosed
    rw [collect_cons, collect_cons, hnone, told_of_isClosed h, haccepted, htold]
    exact ⟨rfl, rfl⟩

theorem leftovers_run (h : w.IsClosed c id) (ms : List (Move ℓ κ)) :
    (collect (executed id) w ms).map (·.1) = (w.waiting id).take (w.tally (startsNext id) ms) ∧
      (w.run ms).waiting id = (w.waiting id).drop (w.tally (startsNext id) ms) := by
  induction ms generalizing w with
  | nil => simp [tally]
  | cons m ms ih =>
    obtain ⟨hclosed, hnone⟩ := isClosed_after h m
    obtain ⟨hexecuted, hwaiting⟩ := executed_of_no_accepted hnone
    obtain ⟨hran, hleft⟩ := ih hclosed
    refine ⟨?_, ?_⟩
    · rw [collect_cons, List.map_append, hexecuted, hran, hwaiting, tally, List.take_add]
    · rw [run_cons, hleft, hwaiting, List.drop_drop, tally]

theorem isClosed_of_closed (hc : w.consumer? id = some c) (h : c.Stopped) (hclosed : c.closed = true) :
    w.IsClosed c id := by
  refine ⟨c.pollFaults, c.commits, ?_⟩
  rw [hc, ← h.free hclosed, ← hclosed]

theorem close_of_closed (hc : w.consumer? id = some c) (h : c.enter = .error .closed)
    (timeout : Option Duration) :
    w.outcome (.act id (.request (.close timeout))) = .progress (.answered (.ok .done)) ∧
      w.after (.act id (.request (.close timeout))) = w := by
  have hq : c.part? w.cluster w.clock (.request (.close timeout)) = some .closeAgain := by
    simp only [Consumer.part?, Consumer.requestPart, h]
  exact act_of_unchanged hc hq rfl

end World

namespace PooledWorld

variable {s : PooledWorld ℓ κ} {id : ConsumerId} {c : Consumer ℓ κ}

theorem stopped_run (ds : List (Deed ℓ κ)) (hc : (initial.run ds).world.consumer? id = some c) :
    c.Stopped ∧ c.IsAccepting := by
  rw [world_run_trace] at hc
  exact ⟨World.consumer_invariant Consumer.stopped_ofBehaviour (fun _ _ _ _ h => h.act) _ hc,
    World.consumer_invariant Consumer.isAccepting_ofBehaviour (fun _ _ _ _ h => h.act) _ hc⟩

/-- A consumer that is closed stays as it is but for its faults and commits. The commits that are
left run in order, no listener is told any more, and all that is asked fails but to close again. -/
theorem closed_for_good (ds : List (Deed ℓ κ)) {s : PooledWorld ℓ κ} (hs : s = initial.run ds)
    (hc : s.world.consumer? id = some c) :
    (c.guard.holder = none → (c.closed = true ↔ c.commits.accepting = false)) ∧
      (c.closed = true → ∀ (later : List (Deed ℓ κ)) (t : PooledWorld ℓ κ), t = s.run later →
        (∃ pollFaults commits, t.world.consumer? id = some { c with pollFaults, commits } ∧
          commits.accepting = false) ∧
        (World.collect (World.executed id) s.world (s.trace later)).map (·.1) =
          (s.world.waiting id).take (s.world.tally (World.startsNext id) (s.trace later)) ∧
        t.world.waiting id =
          (s.world.waiting id).drop (s.world.tally (World.startsNext id) (s.trace later)) ∧
        t.world.inFlight id + (World.collect (World.finished id) s.world (s.trace later)).length =
          s.world.inFlight id ∧
        World.collect (World.told id) s.world (s.trace later) = [] ∧
        (∀ timeout,
          t.world.outcome (.act id (.request (.close timeout))) = .progress (.answered (.ok .done)) ∧
            t.after (.move (.act id (.request (.close timeout)))) = t) ∧
        ∀ d, t.asked? d = some id →
          (∀ timeout, d ≠ .move (.act id (.request (.close timeout)))) →
            t.failure? d = some .closed ∧ t.after d = t) := by
  subst hs
  obtain ⟨hstopped, haccepting⟩ := stopped_run ds hc
  refine ⟨fun hfree => ⟨fun hclosed => hstopped.refusing (.inl hclosed), fun hrefusing => ?_⟩, ?_⟩
  · cases hclosed : c.closed with
    | true => rfl
    | false => cases hrefusing.symm.trans (haccepting hclosed (by simp [hfree]))
  · rintro hclosed later _ rfl
    have hisClosed := World.isClosed_of_closed hc hstopped hclosed
    obtain ⟨hran, hleft⟩ := World.leftovers_run hisClosed ((initial.run ds).trace later)
    obtain ⟨hnone, htold⟩ := World.silent_run hisClosed ((initial.run ds).trace later)
    have hflight :=
      World.inFlight_run id (initial.run ds).world ((initial.run ds).trace later)
    obtain ⟨pollFaults, commits, hc'⟩ :=
      World.isClosed_run hisClosed ((initial.run ds).trace later)
    rw [← hstopped.free hclosed, ← hclosed] at hc'
    rw [hnone, List.length_nil, Nat.add_zero] at hflight
    rw [← world_run_trace] at hc' hleft hflight
    have hstopped' : Consumer.Stopped { c with pollFaults, commits } := by
      rw [← run_append] at hc'
      exact (stopped_run (ds ++ later) hc').1
    have henter := Consumer.enter_of_closed hstopped' hclosed
    refine ⟨⟨pollFaults, commits, hc', hstopped'.refusing (.inl hclosed)⟩, hran, hleft, hflight, htold,
      fun timeout => ?_, fun d hd hne => refused_of_enter hd hc' henter fun _ => hne⟩
    obtain ⟨houtcome, hafter⟩ := World.close_of_closed hc' henter timeout
    exact ⟨houtcome, by simp only [after, hafter]⟩

def sampleClosing : List (Deed Unit Unit) :=
  [.move (.cluster (.createTopic "t" 1)), .move (.create .standard), .makePool [0],
    .move (.act 0 (.request (.subscribe (.setOf ["t"]) (some ())))),
    .move (.act 0 (.request (.commit (some ())))), .move (.act 0 (.request (.commit none))),
    .move (.act 0 (.request (.close none))), .move (.act 0 .proceed)]

def sampleLeftovers : List (Deed Unit Unit) :=
  [.handOut 0 .standard, .move (.act 0 .startCommit), .move (.act 0 .finishCommit),
    .move (.act 0 .startCommit)]

theorem closed_for_good_sample :
    ∃ s : PooledWorld Unit Unit, s = initial.run sampleClosing ∧
      (World.collect (World.executed 0) s.world (s.trace sampleLeftovers)).map (·.1) =
        s.world.waiting 0 ∧
      (s.world.waiting 0).length = 2 ∧ (s.run sampleLeftovers).world.waiting 0 = [] ∧
      (s.run sampleLeftovers).failure? (.handOut 0 .standard) = some .closed := by
  obtain ⟨c, hc⟩ : ∃ c, (initial.run sampleClosing).world.consumer? 0 = some c := ⟨_, rfl⟩
  have hclosed : c.closed = true := by
    cases hc
    rfl
  obtain ⟨-, hran, hleft, -, -, -, hrefused⟩ :=
    (closed_for_good sampleClosing rfl hc).2 hclosed sampleLeftovers _ rfl
  have htwo : (initial.run sampleClosing).world.tally (World.startsNext 0)
      ((initial.run sampleClosing).trace sampleLeftovers) = 2 := by decide
  have hlength : ((initial.run sampleClosing).world.waiting 0).length = 2 := by decide
  rw [htwo, List.take_of_length_le (Nat.le_of_eq hlength)] at hran
  rw [htwo, List.drop_of_length_le (Nat.le_of_eq hlength)] at hleft
  exact ⟨_, rfl, hran, hlength, hleft, (hrefused (.handOut 0 .standard) rfl nofun).1⟩

end PooledWorld

end LogConsumer
