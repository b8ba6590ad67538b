import LogConsumer.Proofs.Events

/-! The calls of rebalance listeners. From one change of subscription to the next, the listener is
told of its assignment by every poll that finds it pending, and once at most of its revocation.
Main statement: `rebalance_calls`. -/
namespace LogConsumer

variable {ℓ κ : Type}

/-- So many calls that tell a listener of its assignment, and then so many that tell it of the
revocation; none if nothing is assigned. -/
def callWord (listener : ℓ) (ps : SortedSet Partition) (a r : Nat) :
    List (ℓ × Call × SortedSet Partition) :=
  if ps.isEmpty then []
  else List.replicate a (listener, .assigned, ps) ++ List.replicate r (listener, .revoked, ps)

@[simp] theorem callWord_zero (listener : ℓ) (ps : SortedSet Partition) :
    callWord listener ps 0 0 = [] := by simp [callWord]

/-- Words follow each other if nothing is assigned any more after a revocation. -/
theorem callWord_append (listener : ℓ) (ps : SortedSet Partition) {a r a' r' : Nat}
    (h : r = 0 ∨ a' = 0) :
    callWord listener ps a r ++ callWord listener ps a' r' =
      callWord listener ps (a + a') (r + r') := by
  unfold callWord
  split
  · rfl
  · rcases h with rfl | rfl
    · simp [← List.append_assoc, List.replicate_append_replicate]
    · simp [List.append_assoc, List.replicate_append_replicate]

namespace Consumer

/-- What an act makes a consumer tell a listener, and of which partitions. -/
def told (cluster : Cluster) (now : Time) (c : Consumer ℓ κ) (a : Act ℓ κ) :
    List (ℓ × Call × SortedSet Partition) :=
  match c.outcome cluster now a with
  | .progress (.tell listener call) =>
    [(listener, call, (c.act cluster now a).subscription.assignment)]
  | _ => []

def panics (c : Consumer ℓ κ) : Act ℓ κ → Bool
  | .abandon => c.guard.holder.any (·.isTelling)
  | _ => false

def findsPending (c : Consumer ℓ κ) : Act ℓ κ → Bool
  | .request .poll => c.enter.isOk && c.subscription.pending
  | _ => false

def findsExpired (now : Time) (c : Consumer ℓ κ) : Act ℓ κ → Bool
  | .request .poll => c.enter.isOk && !c.subscription.pending && c.session.isExpired now
  | _ => false

/-- Whether an act begins a change of which a listener is to be told. -/
def endsTold (cluster : Cluster) (c : Consumer ℓ κ) : Act ℓ κ → Bool
  | .request r => c.enter.isOk && (r.change? cluster).any (·.isTold)
  | _ => false

/-- What the revocation of an assignment begins with. -/
def ends (cluster : Cluster) (now : Time) (c : Consumer ℓ κ) (a : Act ℓ κ) : Bool :=
  c.findsExpired now a || c.endsTold cluster a

/-- A subscription to `topics` that has been assigned `ps`. `begun` tells whether its revocation has
begun. -/
inductive Standing (topics : SortedSet String) (listener : ℓ) (ps : SortedSet Partition) :
    Bool → Consumer ℓ κ → Prop
  | held {c : Consumer ℓ κ} (hmode : c.subscription.mode = .subscribed topics (some listener))
    (hassignment : c.subscription.assignment = ps)
    (hchanging : ∀ change, c.guard.holder ≠ some (.changing change))
    (hexpiring : c.guard.holder ≠ some .expiring) : Standing topics listener ps false c
  | leaving {c : Consumer ℓ κ} {change : Change ℓ} (h : c.guard.holder = some (.changing change)) :
    Standing topics listener ps true c
  | lapsing {c : Consumer ℓ κ} (h : c.guard.holder = some .expiring)
    (hpending : c.subscription.pending = false) : Standing topics listener ps true c
  | gone {c : Consumer ℓ κ} (hassignment : c.subscription.assignment = .empty)
    (hpending : c.subscription.pending = false) : Standing topics listener ps true c

variable {cluster : Cluster} {now : Time} {c : Consumer ℓ κ} {a : Act ℓ κ}
variable {topics : SortedSet String} {listener : ℓ} {ps : SortedSet Partition}

theorem notice?_eq_some {l : ℓ} (h : c.subscription.mode = .subscribed topics (some listener))
    (hl : c.subscription.notice? = some l) :
    l = listener ∧ c.subscription.assignment.isEmpty = false := by
  unfold Subscription.notice? Subscription.listener? at hl
  rw [h] at hl
  split at hl
  next => cases hl
  next hempty =>
    cases hl
    exact ⟨rfl, Bool.eq_false_iff.2 hempty⟩

theorem isEmpty_of_notice? (h : c.subscription.mode = .subscribed topics (some listener))
    (hl : c.subscription.notice? = none) : c.subscription.assignment.isEmpty = true := by
  unfold Subscription.notice? Subscription.listener? at hl
  rw [h] at hl
  split at hl
  next hempty => exact hempty
  next => cases hl

theorem told_eq_nil_of_part?_none (h : c.part? cluster now a = none) :
    c.told cluster now a = [] := by
  rcases outcome_of_part?_none h with houtcome | ⟨_, -, -, houtcome⟩ <;> rw [told, houtcome]

theorem told_of_tell {activity : Activity ℓ} {l : ℓ} {call : Call}
    (h : c.part? cluster now a = some (.tell activity l call)) :
    c.told cluster now a = [(l, call, c.subscription.assignment)] := by
  simp [told, outcome_of_part? h, act_of_part? h, perform, hold]

theorem told_eq_nil_of_ne_tell {q : Part ℓ κ} (h : c.part? cluster now a = some q)
    (hq : ∀ activity l call, q ≠ .tell activity l call) : c.told cluster now a = [] := by
  rw [told, outcome_of_part? h]
  cases q with
  | tell activity l call => exact absurd rfl (hq activity l call)
  | change change => rw [perform_change]
  | activate =>
    obtain ⟨_, _, -, ⟨-, heq⟩ | ⟨_, -, heq⟩⟩ := perform_activate_cases cluster now c
    all_goals rw [heq]
  | fetch =>
    rcases perform_fetch_cases cluster now c with ⟨_, _, -, heq⟩ | ⟨_, _, -, -, heq⟩
    all_goals rw [heq]
  | serve r =>
    rw [perform_serve]
    rcases serve_cases cluster now c r with ⟨_, _, _, _, _, _, heq, -⟩ | ⟨_, heq⟩
    all_goals rw [heq]
  | _ => rfl

theorem finds_of_error (cluster : Cluster) (now : Time) {e : Failure} (h : c.enter = .error e)
    (a : Act ℓ κ) : c.findsPending a = false ∧ c.ends cluster now a = false := by
  cases a with
  | request r =>
    have hok : c.enter.isOk = false := by rw [h]; rfl
    cases r <;> simp [findsPending, ends, findsExpired, endsTold, hok]
  | _ => exact ⟨rfl, rfl⟩

theorem finds_poll (cluster : Cluster) (now : Time) (h : c.enter = .ok ()) :
    c.findsPending (.request .poll) = c.subscription.pending ∧
      c.ends cluster now (.request .poll) =
        (!c.subscription.pending && c.session.isExpired now) := by
  have hok : c.enter.isOk = true := by rw [h]; rfl
  simp [findsPending, ends, findsExpired, endsTold, hok, Request.change?]

theorem finds_change (now : Time) {r : Request ℓ κ} {change : Change ℓ} (h : c.enter = .ok ())
    (hr : r.change? cluster = some change) :
    c.findsPending (.request r) = false ∧ c.ends cluster now (.request r) = change.isTold := by
  have hok : c.enter.isOk = true := by rw [h]; rfl
  cases r with
  | poll => cases hr
  | _ => simp [findsPending, ends, findsExpired, endsTold, hok, hr]

theorem finds_other (now : Time) {r : Request ℓ κ} (hr : r.change? cluster = none) (hpoll : r ≠ .poll) :
    c.findsPending (.request r) = false ∧ c.ends cluster now (.request r) = false := by
  cases r with
  | poll => exact absurd rfl hpoll
  | _ => simp [findsPending, ends, findsExpired, endsTold, hr]

theorem standing_of_not_revokes (hmode : c.subscription.mode = .subscribed topics (some listener))
    (hrev : c.revokes cluster now a = false)
    (hchanging : ∀ change, (c.act cluster now a).guard.holder ≠ some (.changing change))
    (hexpiring : (c.act cluster now a).guard.holder ≠ some .expiring) :
    Standing topics listener c.subscription.assignment false (c.act cluster now a) := by
  obtain ⟨paused, pending, heq, -⟩ := subscription_act hrev
  exact .held (by rw [heq]; exact hmode) (by rw [heq]) hchanging hexpiring

theorem standing_of_isLast (hmode : c.subscription.mode = .subscribed topics (some listener))
    {q : Part ℓ κ} (hq : c.part? cluster now a = some q) (hlast : q.isLast = true)
    (hchange : c.changes cluster now a = false) :
    Standing topics listener c.subscription.assignment false (c.act cluster now a) := by
  have hguard : (c.act cluster now a).guard = .free := by
    rw [act_of_part? hq, guard_perform_of_isLast hlast]
  have hrev : c.revokes cluster now a = false := by
    rw [changes, hq] at hchange
    rw [revokes, hq]
    cases q with
    | change => cases hchange
    | expire => cases hlast
    | _ => rfl
  exact standing_of_not_revokes hmode hrev (by simp [hguard, Guard.free]) (by simp [hguard, Guard.free])

/-- An act leaves a subscription standing. It tells of a pending assignment that it finds, and of the
revocation that it begins. -/
structure Upholds (topics : SortedSet String) (listener : ℓ) (cluster : Cluster) (now : Time)
    (c : Consumer ℓ κ) (a : Act ℓ κ) : Prop where
  standing : Standing topics listener c.subscription.assignment (c.ends cluster now a)
    (c.act cluster now a)
  told : c.told cluster now a = callWord listener c.subscription.assignment
    (c.findsPending a).toNat (c.ends cluster now a).toNat

theorem upholds_of_silent (hfinds : c.findsPending a = false) (hends : c.ends cluster now a = false)
    (htold : c.told cluster now a = [])
    (h : Standing topics listener c.subscription.assignment false (c.act cluster now a)) :
    c.Upholds topics listener cluster now a := by
  refine ⟨by rwa [hends], ?_⟩
  rw [htold, hfinds, hends]
  exact (callWord_zero ..).symm

/-- Nobody is told of an assignment that is empty. -/
theorem upholds_of_isEmpty (hempty : c.subscription.assignment.isEmpty = true)
    (htold : c.told cluster now a = [])
    (h : Standing topics listener c.subscription.assignment (c.ends cluster now a)
      (c.act cluster now a)) : c.Upholds topics listener cluster now a :=
  ⟨h, by rw [htold, callWord, if_pos hempty]⟩

theorem upholds_of_tell_revoked (hmode : c.subscription.mode = .subscribed topics (some listener))
    {activity : Activity ℓ} {l : ℓ} (hq : c.part? cluster now a = some (.tell activity l .revoked))
    (hl : c.subscription.notice? = some l) (hfinds : c.findsPending a = false)
    (hends : c.ends cluster now a = true)
    (h : Standing topics listener c.subscription.assignment true (c.act cluster now a)) :
    c.Upholds topics listener cluster now a := by
  obtain ⟨rfl, hempty⟩ := notice?_eq_some hmode hl
  refine ⟨by rwa [hends], ?_⟩
  rw [told_of_tell hq, hfinds, hends]
  simp [callWord, hempty]

theorem upholds_undergo (hmode : c.subscription.mode = .subscribed topics (some listener))
    (hchanging : ∀ change, c.guard.holder ≠ some (.changing change))
    (hexpiring : c.guard.holder ≠ some .expiring) (hpanic : c.panics a = false)
    (hq : c.part? cluster now a = none) : c.Upholds topics listener cluster now a := by
  obtain ⟨hfinds, hends⟩ : c.findsPending a = false ∧ c.ends cluster now a = false := by
    cases a with
    | request r => cases hq
    | _ => exact ⟨rfl, rfl⟩
  refine upholds_of_silent hfinds hends (told_eq_nil_of_part?_none hq) ?_
  obtain ⟨guard, _, _, _, heq, hguard⟩ := undergo_eq cluster now c a
  rw [act_of_part?_none hq, heq]
  rcases hguard with rfl | ⟨rfl, htelling, -⟩
  · exact .held hmode rfl hchanging hexpiring
  · cases htelling.symm.trans hpanic

theorem upholds_refused (hmode : c.subscription.mode = .subscribed topics (some listener))
    (hchanging : ∀ change, c.guard.holder ≠ some (.changing change))
    (hexpiring : c.guard.holder ≠ some .expiring) {e : Failure} (h : c.enter = .error e)
    {q : Part ℓ κ} (hq : c.part? cluster now a = some q)
    (hsame : (c.perform cluster now q).consumer = c)
    (htell : ∀ activity l call, q ≠ .tell activity l call) :
    c.Upholds topics listener cluster now a := by
  obtain ⟨hfinds, hends⟩ := finds_of_error cluster now h a
  refine upholds_of_silent hfinds hends (told_eq_nil_of_ne_tell hq htell) ?_
  rw [act_of_part? hq, hsame]
  exact .held hmode rfl hchanging hexpiring

theorem upholds_poll (hmode : c.subscription.mode = .subscribed topics (some listener))
    (hopen : c.enter = .ok ()) (hchange : c.changes cluster now (.request .poll) = false)
    {q : Part ℓ κ} (hq : c.part? cluster now (.request .poll) = some q) :
    c.Upholds topics listener cluster now (.request .poll) := by
  obtain ⟨hfinds, hends⟩ := finds_poll cluster now hopen
  cases carries_of_part? hq with
  | refused h => cases hopen.symm.trans h
  | toldOfChange _ hr | changed _ hr => cases hr
  | served _ _ hpoll => exact absurd rfl hpoll
  | toldOfAssignment _ hpending hl =>
    obtain ⟨rfl, hempty⟩ := notice?_eq_some hmode hl
    rw [hpending] at hfinds hends
    refine ⟨?_, by rw [told_of_tell hq, hfinds, hends]; simp [callWord, hempty]⟩
    rw [hends, act_of_part? hq]
    exact .held hmode rfl (by rintro _ ⟨⟩) (by rintro ⟨⟩)
  | activated _ hpending hl =>
    have hempty := isEmpty_of_notice? hmode hl
    refine upholds_of_isEmpty hempty (told_eq_nil_of_ne_tell hq (by simp)) ?_
    rw [hends, hpending]
    exact standing_of_isLast hmode hq rfl hchange
  | toldOfExpiry _ hpending hexpired hl =>
    rw [hpending, hexpired] at hends
    refine upholds_of_tell_revoked hmode hq hl (hfinds.trans hpending) hends ?_
    rw [act_of_part? hq]
    exact .lapsing rfl hpending
  | expired _ hpending hexpired hl =>
    have hempty := isEmpty_of_notice? hmode hl
    refine upholds_of_isEmpty hempty (told_eq_nil_of_ne_tell hq (by simp)) ?_
    rw [hends, hpending, hexpired, act_of_part? hq]
    exact .gone rfl hpending
  | awaited _ hpending hexpired =>
    rw [hpending, hexpired] at hends
    refine upholds_of_silent (hfinds.trans hpending) hends (told_eq_nil_of_ne_tell hq (by simp)) ?_
    rw [act_of_part? hq]
    exact .held hmode rfl (by rintro _ ⟨⟩) (by rintro ⟨⟩)

theorem upholds_serve (hmode : c.subscription.mode = .subscribed topics (some listener))
    {r : Request ℓ κ} (hr : r.change? cluster = none) (hpoll : r ≠ .poll)
    (hq : c.part? cluster now (.request r) = some (.serve r)) :
    c.Upholds topics listener cluster now (.request r) := by
  obtain ⟨hfinds, hends⟩ := c.finds_other now hr hpoll
  have hrev : c.revokes cluster now (.request r) = false := by simp [revokes, hq, Part.isRevocation]
  refine upholds_of_silent hfinds hends (told_eq_nil_of_ne_tell hq (by simp))
    (standing_of_not_revokes hmode hrev ?_ ?_)
  all_goals
    rw [act_of_part? hq, perform_serve]
    rcases serve_cases cluster now c r with ⟨_, _, _, _, _, _, heq, -⟩ | ⟨_, heq⟩
    all_goals
      rw [heq]
      simp [Guard.free]

/-- Before its revocation has begun a subscription is upheld by all that does not change it. -/
theorem upholds_act (hmode : c.subscription.mode = .subscribed topics (some listener))
    (hchanging : ∀ change, c.guard.holder ≠ some (.changing change))
    (hexpiring : c.guard.holder ≠ some .expiring) (hchange : c.changes cluster now a = false)
    (hpanic : c.panics a = false) : c.Upholds topics listener cluster now a := by
  cases hq : c.part? cluster now a with
  | none => exact upholds_undergo hmode hchanging hexpiring hpanic hq
  | some q =>
    cases carries_of_part? hq with
    | refused h | closedAgain h =>
      exact upholds_refused hmode hchanging hexpiring h hq rfl (by simp)
    | changed => simp [changes, hq, Part.isChange] at hchange
    | toldOfChange h hr htold hl =>
      obtain ⟨hfinds, hends⟩ := finds_change now h hr
      refine upholds_of_tell_revoked hmode hq hl hfinds (hends.trans htold) ?_
      rw [act_of_part? hq]
      exact .leaving rfl
    | toldOfAssignment h | activated h | toldOfExpiry h | expired h | awaited h =>
      exact upholds_poll hmode h hchange hq
    | served h hr hpoll => exact upholds_serve hmode hr hpoll hq
    | @proceeded activity q hheld hnext =>
      subst hnext
      cases activity with
      | changing change => exact absurd hheld (hchanging change)
      | expiring => exact absurd hheld hexpiring
      | _ =>
        exact upholds_of_silent rfl rfl (told_eq_nil_of_ne_tell hq (by simp [Activity.next]))
          (standing_of_isLast hmode hq rfl hchange)

theorem act_of_held (cluster : Cluster) (now : Time) {activity : Activity ℓ}
    (h : c.guard.holder = some activity) (hproceed : a ≠ .proceed) (hpanic : c.panics a = false) :
    ∃ pollFaults commits, c.act cluster now a = { c with pollFaults, commits } := by
  cases hq : c.part? cluster now a with
  | none =>
    rw [act_of_part?_none hq]
    cases a with
    | request r => cases hq
    | proceed => exact absurd rfl hproceed
    | abandon =>
      have htelling : c.guard.holder.any (·.isTelling) = false := hpanic
      exact ⟨c.pollFaults, c.commits, by simp [undergo, htelling]⟩
    | drop => exact ⟨c.pollFaults, c.commits, by simp [undergo, Guard.isHeld, h]⟩
    | startCommit =>
      simp only [undergo]
      split <;> exact ⟨_, _, rfl⟩
    | addFault kind => cases kind <;> exact ⟨_, _, rfl⟩
    | finishCommit => exact ⟨_, _, rfl⟩
  | some q =>
    rw [act_of_part? hq]
    have hheld : c.enter ≠ .ok () := by
      intro hopen
      rw [(enter_eq_ok_iff.1 hopen).1] at h
      cases h
    cases carries_of_part? hq with
    | refused | closedAgain => exact ⟨_, _, rfl⟩
    | proceeded => exact absurd rfl hproceed
    | toldOfChange hopen | changed hopen | toldOfAssignment hopen | activated hopen
    | toldOfExpiry hopen | expired hopen | awaited hopen | served hopen => exact absurd hopen hheld

theorem told_cases (cluster : Cluster) (now : Time) (c : Consumer ℓ κ) (a : Act ℓ κ) :
    c.told cluster now a = [] ∨
      ∃ activity l call, c.enter = .ok () ∧ activity.isTelling = true ∧
        c.part? cluster now a = some (.tell activity l call) ∧
        c.subscription.assignment.isEmpty = false := by
  cases hq : c.part? cluster now a with
  | none => exact .inl (told_eq_nil_of_part?_none hq)
  | some q =>
    have hassigned {l : ℓ} (hl : c.subscription.notice? = some l) :
        c.subscription.assignment.isEmpty = false := by
      rw [Subscription.notice?] at hl
      split at hl
      next => cases hl
      next hempty => exact Bool.eq_false_iff.2 hempty
    cases carries_of_part? hq with
    | toldOfChange h _ _ hl | toldOfAssignment h _ hl | toldOfExpiry h _ _ hl =>
      exact .inr ⟨_, _, _, h, rfl, rfl, hassigned hl⟩
    | @proceeded activity _ _ hnext =>
      subst hnext
      refine .inl (told_eq_nil_of_ne_tell hq ?_)
      cases activity <;> simp [Activity.next]
    | _ => exact .inl (told_eq_nil_of_ne_tell hq (by simp))

theorem findsPending_of_active (h : c.subscription.pending = false) (a : Act ℓ κ) :
    c.findsPending a = false := by
  cases a with
  | request r => cases r <;> simp [findsPending, h]
  | _ => rfl

/-- Once the revocation has begun nobody is told any more. -/
theorem begun_act (h : Standing topics listener ps true c) (hchange : c.changes cluster now a = false)
    (hpanic : c.panics a = false) :
    Standing topics listener ps true (c.act cluster now a) ∧ c.told cluster now a = [] ∧
      c.findsPending a = false := by
  have hbusy {activity : Activity ℓ} (hheld : c.guard.holder = some activity) :
      c.told cluster now a = [] ∧ c.findsPending a = false := by
    have hnot : c.enter ≠ .ok () := by
      intro hopen
      rw [(enter_eq_ok_iff.1 hopen).1] at hheld
      cases hheld
    refine ⟨?_, ?_⟩
    · rcases told_cases cluster now c a with hnil | ⟨_, _, _, hopen, -⟩
      · exact hnil
      · exact absurd hopen hnot
    · cases henter : c.enter with
      | ok => exact absurd henter hnot
      | error e => exact (finds_of_error cluster now henter a).1
  cases h with
  | leaving hheld =>
    refine ⟨?_, hbusy hheld⟩
    by_cases hproceed : a = .proceed
    · subst hproceed
      simp [changes, part?, proceedPart?, hheld, Activity.next, Part.isChange] at hchange
    · obtain ⟨_, _, heq⟩ := act_of_held cluster now hheld hproceed hpanic
      exact heq ▸ .leaving hheld
  | lapsing hheld hpending =>
    refine ⟨?_, hbusy hheld⟩
    by_cases hproceed : a = .proceed
    · subst hproceed
      have hq : c.part? cluster now .proceed = some .expire := by
        simp [part?, proceedPart?, hheld, Activity.next]
      rw [act_of_part? hq]
      exact .gone rfl hpending
    · obtain ⟨_, _, heq⟩ := act_of_held cluster now hheld hproceed hpanic
      exact heq ▸ .lapsing hheld hpending
  | gone hassignment hpending =>
    refine ⟨.gone ?_ (pending_act hchange hpending), ?_, ?_⟩
    · cases hrev : c.revokes cluster now a with
      | true =>
        rcases part?_of_revokes hrev with ⟨change, hq⟩ | hq
        · simp [changes, hq, Part.isChange] at hchange
        · rw [act_of_part? hq]
          rfl
      | false =>
        obtain ⟨paused, pending, heq, -⟩ := subscription_act hrev
        rw [heq]
        exact hassignment
    · rcases told_cases cluster now c a with hnil | ⟨_, _, _, -, -, -, hassigned⟩
      · exact hnil
      · rw [hassignment] at hassigned
        cases hassigned
    · exact findsPending_of_active hpending a

end Consumer

/-- Whether a move ends what a consumer is stopped at: its wait or the call of its listener. -/
def Move.resumes (id : ConsumerId) (m : Move ℓ κ) : Bool :=
  match m.act? id with
  | some .proceed | some .abandon => true
  | _ => false

theorem Move.resumes_iff {id : ConsumerId} {m : Move ℓ κ} :
    m.resumes id = true ↔ m = .act id .proceed ∨ m = .act id .abandon := by
  unfold Move.resumes
  cases hm : m.act? id with
  | none =>
    refine iff_of_false Bool.false_ne_true ?_
    rintro (rfl | rfl) <;> simp [Move.act?] at hm
  | some a =>
    obtain rfl := Move.act?_eq_some_iff.1 hm
    cases a <;> simp

namespace World

def part? (id : ConsumerId) (w : World ℓ κ) (m : Move ℓ κ) : Option (Part ℓ κ) :=
  (w.acted? id m).bind fun (c, a) => c.part? w.cluster w.clock a

theorem part?_eq_some_iff {w : World ℓ κ} {id : ConsumerId} {m : Move ℓ κ} {q : Part ℓ κ} :
    w.part? id m = some q ↔
      ∃ c a, w.consumer? id = some c ∧ m = .act id a ∧ c.part? w.cluster w.clock a = some q := by
  simp [part?, Option.bind_eq_some_iff, acted?_eq_some_iff, and_assoc]

def subscription? (id : ConsumerId) (w : World ℓ κ) : Option (Subscription ℓ) :=
  (w.consumer? id).map (·.subscription)

def told (id : ConsumerId) (w : World ℓ κ) (m : Move ℓ κ) : List (ℓ × Call × SortedSet Partition) :=
  match w.acted? id m, w.outcome m with
  | some _, .progress (.tell listener call) =>
    [(listener, call, (((w.after m).consumer? id).map (·.subscription.assignment)).getD .empty)]
  | _, _ => []

theorem told_act {w : World ℓ κ} {id : ConsumerId} {c : Consumer ℓ κ} (hc : w.consumer? id = some c)
    (a : Act ℓ κ) : w.told id (.act id a) = c.told w.cluster w.clock a := by
  simp only [told, Consumer.told, acted?_act hc, outcome_act hc, consumer?_after_act hc]
  split <;> split <;> simp_all

def changes (id : ConsumerId) (w : World ℓ κ) (m : Move ℓ κ) : Bool :=
  (w.acted? id m).any fun (c, a) => c.changes w.cluster w.clock a

def panics (id : ConsumerId) (w : World ℓ κ) (m : Move ℓ κ) : Bool :=
  (w.acted? id m).any fun (c, a) => c.panics a

def findsPending (id : ConsumerId) (w : World ℓ κ) (m : Move ℓ κ) : Bool :=
  (w.acted? id m).any fun (c, a) => c.findsPending a

def ends (id : ConsumerId) (w : World ℓ κ) (m : Move ℓ κ) : Bool :=
  (w.acted? id m).any fun (c, a) => c.ends w.cluster w.clock a

/-- A move that neither changes the subscription of a consumer nor is the panic of its listener. -/
def KeepsSubscription (id : ConsumerId) (w : World ℓ κ) (m : Move ℓ κ) : Prop :=
  w.changes id m = false ∧ w.panics id m = false

instance (id : ConsumerId) (w : World ℓ κ) (m : Move ℓ κ) : Decidable (w.KeepsSubscription id m) :=
  inferInstanceAs (Decidable (_ ∧ _))

variable {id : ConsumerId} {w : World ℓ κ} {topics : SortedSet String} {listener : ℓ}
  {ps : SortedSet Partition} {begun : Bool}

def IsStanding (topics : SortedSet String) (listener : ℓ) (ps : SortedSet Partition) (begun : Bool)
    (id : ConsumerId) (w : World ℓ κ) : Prop :=
  ∃ c, w.consumer? id = some c ∧ c.Standing topics listener ps begun

theorem standing_after {m : Move ℓ κ} (h : w.IsStanding topics listener ps begun id)
    (hm : w.KeepsSubscription id m) :
    (w.after m).IsStanding topics listener ps (begun || w.ends id m) id ∧
      w.told id m = callWord listener ps (w.findsPending id m).toNat
        (!begun && w.ends id m).toNat ∧
      (begun = true → w.findsPending id m = false) := by
  obtain ⟨c, hc, hstanding⟩ := h
  rcases acted?_cases hc m with ⟨a, rfl, hacted, hafter⟩ | ⟨hacted, hafter⟩
  · have hchange : c.changes w.cluster w.clock a = false := by
      simpa [changes, hacted] using hm.1
    have hpanic : c.panics a = false := by simpa [panics, hacted] using hm.2
    have hfinds : w.findsPending id (.act id a) = c.findsPending a := by simp [findsPending, hacted]
    have hends : w.ends id (.act id a) = c.ends w.cluster w.clock a := by simp [ends, hacted]
    rw [told_act hc, hfinds, hends]
    cases begun with
    | false =>
      obtain ⟨hmode, rfl, hchanging, hexpiring⟩ := hstanding
      obtain ⟨hnext, hcalls⟩ := Consumer.upholds_act hmode hchanging hexpiring hchange hpanic
      exact ⟨⟨_, hafter, hnext⟩, hcalls, by simp⟩
    | true =>
      obtain ⟨hnext, hcalls, hnone⟩ := Consumer.begun_act hstanding hchange hpanic
      refine ⟨⟨_, hafter, hnext⟩, ?_, fun _ => hnone⟩
      rw [hcalls, hnone]
      exact (callWord_zero ..).symm
  · have hends : w.ends id m = false := by simp [ends, hacted]
    have hfinds : w.findsPending id m = false := by simp [findsPending, hacted]
    rw [hends, hfinds, Bool.or_false]
    exact ⟨⟨c, hafter, hstanding⟩, by simp [told, hacted], fun _ => rfl⟩

/-- The calls of a run, from before or after the revocation has begun. -/
theorem standing_run {ms : List (Move ℓ κ)} (h : w.IsStanding topics listener ps begun id)
    (hms : w.Throughout (KeepsSubscription id) ms) :
    (∃ begun', (w.run ms).IsStanding topics listener ps begun' id) ∧
      collect (told id) w ms = callWord listener ps (w.tally (findsPending id) ms)
        (if begun then 0 else min 1 (w.tally (ends id) ms)) ∧
      (begun = true → w.tally (findsPending id) ms = 0) := by
  induction ms generalizing w begun with
  | nil => exact ⟨⟨begun, h⟩, by simp [tally], fun _ => rfl⟩
  | cons m ms ih =>
    obtain ⟨hnext, hcalls, hnone⟩ := standing_after h hms.1
    obtain ⟨hstanding, hrest, hnone'⟩ := ih hnext hms.2
    refine ⟨hstanding, ?_, ?_⟩
    · -- After a call that tells of the revocation no poll finds the assignment pending.
      have hordered : (!begun && w.ends id m).toNat = 0 ∨
          (w.after m).tally (findsPending id) ms = 0 := by
        cases hends : w.ends id m with
        | false => left; simp
        | true => right; exact hnone' (by simp [hends])
      rw [collect_cons, hcalls, hrest, callWord_append _ _ hordered]
      cases begun <;> cases hends : w.ends id m <;> simp [tally, hends]
    · intro hbegun
      have hrest' := hnone' (by simp [hbegun])
      simp [tally, hnone hbegun, hrest']

theorem isStanding_of_subscribe {m : Move ℓ κ}
    (hm : w.part? id m = some (.change (.subscribe topics (some listener)))) :
    (w.after m).IsStanding topics listener (w.cluster.resolve topics) false id := by
  obtain ⟨c, a, hc, rfl, hq⟩ := part?_eq_some_iff.1 hm
  refine ⟨_, consumer?_after_act hc a, ?_⟩
  rw [Consumer.act_of_part? hq, Consumer.perform_change]
  exact .held rfl rfl (by simp [Guard.free]) (by simp [Guard.free])

theorem told_of_changes {m : Move ℓ κ} (hm : w.changes id m = true) : w.told id m = [] := by
  obtain ⟨c, a, hc, rfl, hchange⟩ := any_acted?_iff.1 hm
  obtain ⟨q, hq, hchange⟩ := (Option.any_eq_true ..).1 hchange
  rw [told_act hc]
  apply Consumer.told_eq_nil_of_ne_tell hq
  rintro activity l call rfl
  cases hchange

theorem tally_findsPending_of_active {ms : List (Move ℓ κ)} {c : Consumer ℓ κ}
    (hc : w.consumer? id = some c) (hactive : c.subscription.pending = false)
    (hms : w.Throughout (KeepsSubscription id) ms) : w.tally (findsPending id) ms = 0 := by
  induction ms generalizing w c with
  | nil => rfl
  | cons m ms ih =>
    rcases acted?_cases hc m with ⟨a, -, hacted, hafter⟩ | ⟨hacted, hafter⟩
    · have hchange : c.changes w.cluster w.clock a = false := by
        simpa [changes, hacted] using hms.1.1
      have hfinds : w.findsPending id m = false := by
        simp only [findsPending, hacted, Option.any_some]
        exact Consumer.findsPending_of_active hactive a
      have hactive' := Consumer.pending_act hchange hactive
      simp [tally, hfinds, ih hafter hactive' hms.2]
    · simp [tally, findsPending, hacted, ih hafter hactive hms.2]

theorem tally_findsPending_of_activates {m : Move ℓ κ} {ms : List (Move ℓ κ)}
    (hm : w.activates id m = true) (hms : (w.after m).Throughout (KeepsSubscription id) ms) :
    (w.after m).tally (findsPending id) ms = 0 := by
  obtain ⟨c, a, hc, rfl, hactivates⟩ := any_acted?_iff.1 hm
  have hafter := consumer?_after_act hc a
  have hactive : (c.act w.cluster w.clock a).subscription.pending = false := by
    obtain ⟨_, -, heq⟩ := Consumer.act_of_activates hactivates
    rw [heq]
    rfl
  exact tally_findsPending_of_active hafter hactive hms

theorem subscription_of_told {m : Move ℓ κ} (h : w.IsStanding topics listener ps begun id)
    (hm : w.KeepsSubscription id m) (htold : w.told id m ≠ []) :
    ∃ c, w.consumer? id = some c ∧ c.subscription.assignment = ps ∧
      c.subscription.topics = topics := by
  cases begun with
  | false =>
    obtain ⟨c, hc, ⟨hmode, hassignment, -, -⟩⟩ := h
    exact ⟨c, hc, hassignment, by simp [Subscription.topics, hmode]⟩
  | true =>
    obtain ⟨-, hcalls, hnone⟩ := standing_after h hm
    rw [hnone rfl] at hcalls
    have hnil := hcalls.trans (callWord_zero ..)
    exact absurd hnil htold

/-- The consumer is stopped at `activity`, and otherwise is as `c` but for its faults and commits. -/
def IsHeld (activity : Activity ℓ) (c : Consumer ℓ κ) (id : ConsumerId) (w : World ℓ κ) : Prop :=
  ∃ pollFaults commits,
    w.consumer? id = some { c with guard := ⟨some activity⟩, pollFaults, commits }

theorem isHeld_after {activity : Activity ℓ} {c : Consumer ℓ κ} {m : Move ℓ κ}
    (h : w.IsHeld activity c id) (hm : m.resumes id = false) : (w.after m).IsHeld activity c id := by
  obtain ⟨pollFaults, commits, hc⟩ := h
  rcases acted?_cases hc m with ⟨a, rfl, -, hafter⟩ | ⟨-, hafter⟩
  · have hproceed : a ≠ .proceed := by
      rintro rfl
      simp [Move.resumes, Move.act?] at hm
    have hpanic (c : Consumer ℓ κ) : c.panics a = false := by
      cases a with
      | abandon => simp [Move.resumes, Move.act?] at hm
      | _ => rfl
    have hholder : Consumer.guard { c with guard := ⟨some activity⟩, pollFaults, commits } =
        ⟨some activity⟩ := rfl
    obtain ⟨pollFaults', commits', heq⟩ :=
      Consumer.act_of_held w.cluster w.clock (congrArg (·.holder) hholder) hproceed (hpanic _)
    exact ⟨pollFaults', commits', hafter.trans (congrArg some heq)⟩
  · exact ⟨pollFaults, commits, hafter⟩

theorem isHeld_of_told {m : Move ℓ κ} {c : Consumer ℓ κ} (hc : w.consumer? id = some c)
    (htold : w.told id m ≠ []) :
    ∃ activity, activity.isTelling = true ∧ (w.after m).IsHeld activity c id := by
  rcases acted?_cases hc m with ⟨a, rfl, -, hafter⟩ | ⟨hacted, -⟩
  · rw [told_act hc] at htold
    obtain ⟨activity, l, call, -, htelling, hq, -⟩ :=
      (Consumer.told_cases w.cluster w.clock c a).resolve_left htold
    rw [Consumer.act_of_part? hq] at hafter
    exact ⟨activity, htelling, c.pollFaults, c.commits, hafter⟩
  · simp [told, hacted] at htold

theorem subscription?_while_told {m : Move ℓ κ} {c : Consumer ℓ κ} (hc : w.consumer? id = some c)
    (htold : w.told id m ≠ []) {ms : List (Move ℓ κ)}
    (hms : (w.after m).Throughout (fun _ n => n.resumes id = false) ms) :
    ((w.after m).run ms).subscription? id = some c.subscription := by
  obtain ⟨activity, -, hheld⟩ := isHeld_of_told hc htold
  obtain ⟨_, _, hc'⟩ := run_induction (fun _ _ => isHeld_after) hheld hms
  rw [subscription?, hc', Option.map_some]

theorem after_of_failed {r : Request ℓ κ} {e : Failure} (hr : (r.change? w.cluster).isSome = true)
    (h : w.outcome (.act id (.request r)) = .progress (.answered (.error e))) :
    w.after (.act id (.request r)) = w := by
  cases hc : w.consumer? id with
  | none => simp [after, step, act, World.request, takeTurn, hc]
  | some c =>
    have hq : c.part? w.cluster w.clock (.request r) = some (c.requestPart w.cluster w.clock r) := rfl
    rw [outcome_act hc, Consumer.outcome_of_part? hq] at h
    have hturn : c.perform w.cluster w.clock (c.requestPart w.cluster w.clock r) =
        ⟨c, .answered (.error e), []⟩ := by
      obtain ⟨change, hr⟩ := Option.isSome_iff_exists.1 hr
      generalize c.requestPart w.cluster w.clock r = q at hq h ⊢
      cases Consumer.carries_of_part? hq with
      | refused => simpa [Consumer.perform] using h
      | changed => simp [Consumer.perform_change] at h
      | toldOfChange => simp [Consumer.perform] at h
      | served _ hnone => cases hr.symm.trans hnone
      | _ => cases hr
    exact (act_of_unchanged hc hq hturn).2

/-- From a subscription to the next change, the listener is told of its assignment by each poll that
finds it pending, and then once at most of the revocation. -/
theorem rebalance_calls {m : Move ℓ κ}
    (hm : w.part? id m = some (.change (.subscribe topics (some listener)))) {ms : List (Move ℓ κ)}
    (hms : (w.after m).Throughout (KeepsSubscription id) ms) :
    collect (told id) (w.after m) ms =
        callWord listener (w.cluster.resolve topics) ((w.after m).tally (findsPending id) ms)
          (min 1 ((w.after m).tally (ends id) ms)) ∧
      (∀ n, ((w.after m).run ms).changes id n = true → ((w.after m).run ms).told id n = []) ∧
      (∀ ms₁ n ms₂, ms = ms₁ ++ n :: ms₂ →
        (((w.after m).run ms₁).activates id n = true →
          (((w.after m).run ms₁).after n).tally (findsPending id) ms₂ = 0) ∧
        (((w.after m).run ms₁).told id n ≠ [] →
          ∃ s, ((w.after m).run ms₁).subscription? id = some s ∧
            s.assignment = w.cluster.resolve topics ∧ s.topics = topics ∧
            ∀ ms', (((w.after m).run ms₁).after n).Throughout (fun _ n => n.resumes id = false) ms' →
              ((((w.after m).run ms₁).after n).run ms').subscription? id = some s)) ∧
      ∀ (w' : World ℓ κ) (id' : ConsumerId) r e,
        r.change? w'.cluster = some (.subscribe topics (some listener)) →
          w'.outcome (.act id' (.request r)) = .progress (.answered (.error e)) →
            w'.after (.act id' (.request r)) = w' := by
  have hstanding := isStanding_of_subscribe hm
  obtain ⟨-, hcalls, -⟩ := standing_run hstanding hms
  refine ⟨hcalls, fun n hn => told_of_changes hn, ?_, ?_⟩
  · rintro ms₁ n ms₂ rfl
    obtain ⟨hms₁, hn, hms₂⟩ := throughout_append.1 hms
    refine ⟨fun hactivates => tally_findsPending_of_activates hactivates hms₂, fun htold => ?_⟩
    obtain ⟨⟨begun, hstanding₁⟩, -, -⟩ := standing_run hstanding hms₁
    obtain ⟨c, hc, hassignment, htopics⟩ := subscription_of_told hstanding₁ hn htold
    refine ⟨c.subscription, by simp [subscription?, hc], hassignment, htopics, fun ms' hms' => ?_⟩
    exact subscription?_while_told hc htold hms'
  · intro w' id' r e hr hfail
    exact after_of_failed (by rw [hr]; rfl) hfail

def sampleSubscribe : Move Unit Unit :=
  .act 0 (.request (.subscribe (.setOf ["t"]) (some ())))

/-- The first poll fails for want of a reset policy that is known, the second completes the
assignment, and then the topic is subscribed to again. -/
def sampleRebalance : List (Move Unit Unit) :=
  [.act 0 (.request (.configure (Options.standard.withOffsetReset "none"))),
    .act 0 (.request .poll), .act 0 .proceed,
    .act 0 (.request (.configure .standard)), .act 0 (.request .poll), .act 0 .proceed,
    .act 0 (.request (.subscribe (.setOf ["t"]) none))]

def sampleTopic : World Unit Unit :=
  initial.run [.cluster (.createTopic "t" 1), .create .standard]

theorem rebalance_calls_sample :
    sampleTopic.part? 0 sampleSubscribe = some (.change (.subscribe (.setOf ["t"]) (some ()))) ∧
      (sampleTopic.after sampleSubscribe).Throughout (KeepsSubscription 0) sampleRebalance ∧
      collect (told 0) (sampleTopic.after sampleSubscribe) sampleRebalance =
        [((), .assigned, .setOf [⟨"t", 0⟩]), ((), .assigned, .setOf [⟨"t", 0⟩]),
          ((), .revoked, .setOf [⟨"t", 0⟩])] := by
  have hm : sampleTopic.part? 0 sampleSubscribe =
      some (.change (.subscribe (.setOf ["t"]) (some ()))) := rfl
  have hms : (sampleTopic.after sampleSubscribe).Throughout (KeepsSubscription 0)
      sampleRebalance := by decide
  have hassigned : sampleTopic.cluster.resolve (.setOf ["t"]) = .setOf [⟨"t", 0⟩] := by decide
  have htwo : (sampleTopic.after sampleSubscribe).tally (findsPending 0) sampleRebalance = 2 := by
    decide
  have hone : (sampleTopic.after sampleSubscribe).tally (ends 0) sampleRebalance = 1 := by decide
  have hcalls := (rebalance_calls hm hms).1
  rw [hassigned, htwo, hone] at hcalls
  exact ⟨hm, hms, hcalls.trans (by decide)⟩

end World

end LogConsumer
