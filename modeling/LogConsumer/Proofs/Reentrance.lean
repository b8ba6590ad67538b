import LogConsumer.Proofs.Pooled
import LogConsumer.Proofs.Rebalance

/-! Calls from within the call of a listener. They may go to any consumer, through pools and
through the listeners and commit callbacks of others, but those that reach the consumer whose
listener is called are refused. Main statement: `unchanged_while_told`. -/
namespace LogConsumer

variable {ℓ κ : Type}

def Deed.resumes (id : ConsumerId) : Deed ℓ κ → Bool
  | .move m => m.resumes id
  | _ => false

namespace Consumer

variable {cluster : Cluster} {now : Time} {c : Consumer ℓ κ} {activity : Activity ℓ}

theorem enter_of_held (h : c.guard.holder = some activity) : c.enter = .error .concurrentAccess := by
  simp [enter, Guard.check, Guard.isHeld, h]

/-- Whatever a consumer is asked that does not let operations in is refused, unless it is closed and
asked to close. -/
theorem part?_request_of_enter {e : Failure} {r : Request ℓ κ} (h : c.enter = .error e)
    (hr : e = .closed → ∀ timeout, r ≠ .close timeout) :
    c.part? cluster now (.request r) = some (.refuse e) := by
  simp only [part?, requestPart, h]
  cases e with
  | closed =>
    cases r with
    | close timeout => exact absurd rfl (hr rfl timeout)
    | _ => rfl
  | _ => rfl

theorem part?_request_of_held (h : c.guard.holder = some activity) (r : Request ℓ κ) :
    c.part? cluster now (.request r) = some (.refuse .concurrentAccess) :=
  part?_request_of_enter (enter_of_held h) nofun

theorem part?_proceed (h : c.guard.holder = some activity) :
    c.part? cluster now .proceed = some activity.next := by
  simp [part?, proceedPart?, h]

end Consumer

namespace World

variable {w : World ℓ κ} {id : ConsumerId} {c : Consumer ℓ κ} {activity : Activity ℓ}

theorem isHeld_run {ms : List (Move ℓ κ)} (h : w.IsHeld activity c id)
    (hms : ∀ m ∈ ms, m.resumes id = false) : (w.run ms).IsHeld activity c id :=
  run_induction (fun _ _ => isHeld_after) h (throughout_of_forall hms w)

theorem isHeld_of_holder (hc : w.consumer? id = some c) (h : c.guard.holder = some activity) :
    w.IsHeld activity c id := by
  obtain ⟨_, ⟨_⟩, _⟩ := c
  cases h
  exact ⟨_, _, hc⟩

theorem IsHeld.exists_consumer (h : w.IsHeld activity c id) :
    ∃ c', w.consumer? id = some c' ∧ c'.guard.holder = some activity := by
  obtain ⟨_, _, hc⟩ := h
  exact ⟨_, hc, rfl⟩

theorem request_of_held (hc : w.consumer? id = some c) (h : c.guard.holder = some activity)
    (r : Request ℓ κ) :
    w.outcome (.act id (.request r)) = .progress (.answered (.error .concurrentAccess)) ∧
      w.after (.act id (.request r)) = w :=
  act_of_unchanged hc (Consumer.part?_request_of_held h r) rfl

theorem IsHeld.holder? {c : Consumer ℓ κ} (h : w.IsHeld activity c id) :
    w.holder? id = some activity := by
  obtain ⟨c', hc', hheld⟩ := h.exists_consumer
  rw [holder?_of_consumer hc', hheld]

theorem holder?_run {ms : List (Move ℓ κ)} (h : w.holder? id = some activity)
    (hms : ∀ m ∈ ms, m.resumes id = false) : (w.run ms).holder? id = some activity := by
  obtain ⟨c, hc, hheld⟩ := Option.bind_eq_some_iff.1 h
  exact (isHeld_run (isHeld_of_holder hc hheld) hms).holder?

theorem holder?_after {m : Move ℓ κ} (h : w.holder? id = some activity) (hm : m.resumes id = false) :
    (w.after m).holder? id = some activity := by
  have hms : ∀ n ∈ [m], n.resumes id = false := by simpa using hm
  exact holder?_run h hms

theorem request_of_holder? (h : w.holder? id = some activity) (r : Request ℓ κ) :
    w.request id r = (.answered (.error .concurrentAccess), w) := by
  obtain ⟨c, hc, hholder⟩ := Option.bind_eq_some_iff.1 h
  obtain ⟨houtcome, hafter⟩ := request_of_held hc hholder r
  exact Prod.ext (Outcome.progress.inj houtcome) hafter

theorem proceed_of_isLast (hc : w.consumer? id = some c) (h : c.guard.holder = some activity)
    {q : Part ℓ κ} (hnext : activity.next = q) (hlast : q.isLast = true) :
    (∃ result, w.outcome (.act id .proceed) = .progress (.answered result)) ∧
      (w.after (.act id .proceed)).holder? id = none := by
  have hq : c.part? w.cluster w.clock .proceed = some q := hnext ▸ Consumer.part?_proceed h
  obtain ⟨⟨result, hresult⟩, hguard⟩ :
      (∃ result, (c.perform w.cluster w.clock q).progress = .answered result) ∧
        (c.perform w.cluster w.clock q).consumer.guard = .free := Consumer.perform_of_isLast hlast
  refine ⟨⟨result, by rw [outcome_act hc, Consumer.outcome_of_part? hq, hresult]⟩, ?_⟩
  rw [holder?_of_consumer (consumer?_after_act hc _), Consumer.act_of_part? hq, hguard]
  rfl

/-- When the listener returns, the operation is answered, or a poll whose session has lapsed goes on
to wait. -/
theorem proceed_of_isTelling (hc : w.consumer? id = some c) (h : c.guard.holder = some activity)
    (htelling : activity.isTelling = true) :
    ((∃ result, w.outcome (.act id .proceed) = .progress (.answered result)) ∧
        (w.after (.act id .proceed)).holder? id = none) ∨
      ∃ time c', w.outcome (.act id .proceed) = .progress (.waitUntil time) ∧
        (w.after (.act id .proceed)).IsHeld .fetching c' id := by
  cases activity with
  | changing | activating => exact .inl (proceed_of_isLast hc h rfl rfl)
  | expiring =>
    right
    have hq : c.part? w.cluster w.clock .proceed = some .expire := Consumer.part?_proceed h
    refine ⟨w.clock + c.behaviour.requestLatency.nanos, _, ?_,
      isHeld_of_holder (consumer?_after_act hc _) ?_⟩
    · rw [outcome_act hc, Consumer.outcome_of_part? hq]
      rfl
    · rw [Consumer.act_of_part? hq]
      rfl
  | fetching | closing => cases htelling

theorem abandon_of_isTelling (hc : w.consumer? id = some c) (h : c.guard.holder = some activity)
    (htelling : activity.isTelling = true) : (w.after (.act id .abandon)).holder? id = none := by
  rw [holder?_of_consumer (consumer?_after_act hc _)]
  simp [Consumer.act, Consumer.part?, Consumer.undergo, h, htelling, Consumer.abandon, Guard.free]

end World

namespace PooledWorld

variable {s : PooledWorld ℓ κ} {id : ConsumerId} {c : Consumer ℓ κ} {activity : Activity ℓ}

theorem isHeld_run {ds : List (Deed ℓ κ)} (h : s.world.IsHeld activity c id)
    (hds : ∀ d ∈ ds, d.resumes id = false) : (s.run ds).world.IsHeld activity c id := by
  obtain ⟨ms, hworld, hms⟩ := s.world_run ds
  rw [hworld]
  refine World.isHeld_run h fun m hm => ?_
  rcases hms m hm with hmem | ⟨id', options, rfl⟩
  · exact hds _ hmem
  · unfold Move.resumes Move.act?
    split <;> simp_all

theorem refused_of_enter {d : Deed ℓ κ} {e : Failure} (hd : s.asked? d = some id)
    (hc : s.world.consumer? id = some c) (h : c.enter = .error e)
    (hne : e = .closed → ∀ timeout, d ≠ .move (.act id (.request (.close timeout)))) :
    s.failure? d = some e ∧ s.after d = s := by
  cases d with
  | move m =>
    cases m with
    | act id' a =>
      cases a with
      | request r =>
        cases hd
        have hr : e = .closed → ∀ timeout, r ≠ .close timeout := by
          rintro hclosed timeout rfl
          exact hne hclosed timeout rfl
        obtain ⟨houtcome, hafter⟩ :=
          World.act_of_unchanged hc (Consumer.part?_request_of_enter h hr) rfl
        simp [failure?, after, houtcome, hafter]
      | _ => cases hd
    | _ => cases hd
  | handOut pool options =>
    obtain ⟨p, rest, hp, hfree⟩ := asked?_handOut.1 hd
    have hout : s.handOut pool options = .error e := by
      rw [handOut_of_head hp hfree hc, Consumer.configure_of_enter h]
      rfl
    simp [failure?, after, hout]
  | _ => cases hd

/-- Whatever a consumer is asked while its guard is held, also by a pool, is refused and changes
nothing. -/
theorem refused_of_held {d : Deed ℓ κ} (hd : s.asked? d = some id)
    (hc : s.world.consumer? id = some c) (h : c.guard.holder = some activity) :
    s.failure? d = some .concurrentAccess ∧ s.after d = s :=
  refused_of_enter hd hc (Consumer.enter_of_held h) nofun

/-- While a listener is called, each call that reaches its consumer is refused, and the consumer
changes in nothing but its faults and commits. -/
theorem unchanged_while_told {m : Move ℓ κ} (hc : s.world.consumer? id = some c)
    (htold : s.world.told id m ≠ []) {inside : List (Deed ℓ κ)}
    (hinside : ∀ d ∈ inside, d.resumes id = false) {t : PooledWorld ℓ κ}
    (ht : t = (s.after (.move m)).run inside) :
    (∃ guard pollFaults commits,
        t.world.consumer? id = some { c with guard, pollFaults, commits }) ∧
      (∀ d, t.asked? d = some id → t.failure? d = some .concurrentAccess ∧ t.after d = t) ∧
      (t.world.after (.act id .abandon)).holder? id = none ∧
      (((∃ result, t.world.outcome (.act id .proceed) = .progress (.answered result)) ∧
          (t.world.after (.act id .proceed)).holder? id = none) ∨
        ∃ time, t.world.outcome (.act id .proceed) = .progress (.waitUntil time) ∧
          ∀ (rest : List (Deed ℓ κ)) (u : PooledWorld ℓ κ), (∀ d ∈ rest, d.resumes id = false) →
            u = (t.after (.move (.act id .proceed))).run rest →
              (∃ result, u.world.outcome (.act id .proceed) = .progress (.answered result)) ∧
                (u.world.after (.act id .proceed)).holder? id = none) := by
  subst ht
  obtain ⟨activity, htelling, hheld⟩ := World.isHeld_of_told hc htold
  have hkept := isHeld_run (s := s.after (.move m)) hheld hinside
  obtain ⟨c', hc', hholder⟩ := hkept.exists_consumer
  obtain ⟨pollFaults, commits, hsame⟩ := hkept
  refine ⟨⟨_, pollFaults, commits, hsame⟩, fun d hd => refused_of_held hd hc' hholder,
    World.abandon_of_isTelling hc' hholder htelling, ?_⟩
  rcases World.proceed_of_isTelling hc' hholder htelling with h | ⟨time, c'', houtcome, hfetching⟩
  · exact .inl h
  · refine .inr ⟨time, houtcome, ?_⟩
    rintro rest _ hrest rfl
    have hwaiting := isHeld_run (s := PooledWorld.after _ (.move (.act id .proceed))) hfetching hrest
    obtain ⟨c₃, hc₃, hholder₃⟩ := hwaiting.exists_consumer
    exact World.proceed_of_isLast hc₃ hholder₃ rfl rfl

def samplePool : PooledWorld Unit Unit :=
  initial.run
    [.move (.cluster (.createTopic "t" 1)), .move (.create .standard), .move (.create .standard),
      .makePool [0], .move (.act 0 (.request (.subscribe (.setOf ["t"]) (some ())))),
      .move (.act 1 (.request (.subscribe (.setOf ["t"]) (some ())))),
      .move (.act 0 (.request (.commit (some ()))))]

/-- The first listener asks the pool for its consumer and polls the second one, whose listener lets
the commit fall due; the callback of the commit then closes the first consumer. -/
def sampleNested : List (Deed Unit Unit) :=
  [.handOut 0 .standard, .move (.act 1 (.request .poll)), .move (.advance 10000000),
    .move (.act 0 .startCommit), .move (.act 0 (.request (.close none))), .move (.act 0 .finishCommit),
    .move (.act 1 .proceed)]

theorem unchanged_while_told_sample :
    samplePool.world.told 0 (.act 0 (.request .poll)) ≠ [] ∧
      (∀ d ∈ sampleNested, d.resumes 0 = false) ∧
      ∃ t, t = (samplePool.after (.move (.act 0 (.request .poll)))).run sampleNested ∧
        t.failure? (.handOut 0 .standard) = some .concurrentAccess ∧
        t.world.subscription? 0 = samplePool.world.subscription? 0 ∧
        (t.world.after (.act 0 .proceed)).holder? 0 = none := by
  have htold : samplePool.world.told 0 (.act 0 (.request .poll)) ≠ [] := by decide
  have hinside : ∀ d ∈ sampleNested, d.resumes 0 = false := by
    simp [sampleNested, Deed.resumes, Move.resumes, Move.act?]
  obtain ⟨c, hc⟩ : ∃ c, samplePool.world.consumer? 0 = some c := ⟨_, rfl⟩
  refine ⟨htold, hinside, _, rfl, ?_⟩
  obtain ⟨⟨_, _, _, hsame⟩, hrefused, -, hfree | ⟨_, hwait, -⟩⟩ :=
    unchanged_while_told hc htold hinside rfl
  · exact ⟨(hrefused (.handOut 0 .standard) rfl).1, by simp [World.subscription?, hsame, hc], hfree.2⟩
  · cases hwait

end PooledWorld

end LogConsumer
