import LogConsumer.Proofs.Run

/-! What a consumer does in one turn, told apart by the part of an operation that it carries out.
Main statements: requests and continuations are such parts, and a move of a world changes a
consumer only as an act on it says. -/
namespace LogConsumer

/-- A part of an operation, from one stop to the next. -/
inductive Part (ℓ κ : Type)
  | refuse (e : Failure)
  /-- A closed consumer is closed again. -/
  | closeAgain
  | tell (activity : Activity ℓ) (listener : ℓ) (call : Call)
  | change (change : Change ℓ)
  | activate
  | expire
  | await
  | fetch
  /-- A request that is neither a poll nor a change of subscription. -/
  | serve (r : Request ℓ κ)
  | shut

namespace Part

variable {ℓ κ : Type}

/-- Whether the part takes the assignment away: a change of subscription that succeeds, or the
end of a session. -/
def isRevocation : Part ℓ κ → Bool
  | change _ | expire => true
  | _ => false

def isActivation : Part ℓ κ → Bool
  | activate => true
  | _ => false

def isChange : Part ℓ κ → Bool
  | change _ => true
  | _ => false

def isLast : Part ℓ κ → Bool
  | change _ | activate | fetch | shut => true
  | _ => false

end Part

def Activity.next {ℓ κ : Type} : Activity ℓ → Part ℓ κ
  | .changing change => .change change
  | .expiring => .expire
  | .activating => .activate
  | .fetching => .fetch
  | .closing => .shut

theorem Activity.next_ne_serve {ℓ κ : Type} (activity : Activity ℓ) (r : Request ℓ κ) :
    activity.next ≠ .serve r := by cases activity <;> nofun

def Request.change? {ℓ κ : Type} (cluster : Cluster) : Request ℓ κ → Option (Change ℓ)
  | .subscribe topics listener => some (.subscribe topics listener)
  | .subscribePattern pattern listener =>
    some (.subscribe (cluster.topicsMatching pattern) listener)
  | .assign partitions => some (.assign partitions)
  | .unsubscribe => some .unsubscribe
  | _ => none

def Request.targets {ℓ κ : Type} : Request ℓ κ → List Partition
  | .seek p _ => [p]
  | .seekToBeginning ps | .seekToEnd ps => ps
  | _ => []

namespace Consumer

variable {ℓ κ : Type}

def changePart (change : Change ℓ) (c : Consumer ℓ κ) : Part ℓ κ :=
  match if change.isTold then c.subscription.notice? else none with
  | some listener => .tell (.changing change) listener .revoked
  | none => .change change

def pollPart (now : Time) (c : Consumer ℓ κ) : Part ℓ κ :=
  if c.subscription.pending then
    match c.subscription.notice? with
    | some listener => .tell .activating listener .assigned
    | none => .activate
  else if c.session.isExpired now then
    match c.subscription.notice? with
    | some listener => .tell .expiring listener .revoked
    | none => .expire
  else .await

def requestPart (cluster : Cluster) (now : Time) (c : Consumer ℓ κ) (r : Request ℓ κ) :
    Part ℓ κ :=
  match c.enter with
  | .ok () =>
    match r.change? cluster with
    | some change => c.changePart change
    | none =>
      match r with
      | .poll => c.pollPart now
      | r => .serve r
  | .error .closed =>
    match r with
    | .close _ => .closeAgain
    | _ => .refuse .closed
  | .error e => .refuse e

def proceedPart? (c : Consumer ℓ κ) : Option (Part ℓ κ) := c.guard.holder.map Activity.next

def part? (cluster : Cluster) (now : Time) (c : Consumer ℓ κ) : Act ℓ κ → Option (Part ℓ κ)
  | .request r => some (c.requestPart cluster now r)
  | .proceed => c.proceedPart?
  | _ => none

/-- Which part an act carries out, and what it finds of the consumer. -/
inductive Carries (cluster : Cluster) (now : Time) (c : Consumer ℓ κ) : Act ℓ κ → Part ℓ κ → Prop
  | refused {r : Request ℓ κ} {e : Failure} (h : c.enter = .error e) :
    Carries cluster now c (.request r) (.refuse e)
  | closedAgain {timeout : Option Duration} (h : c.enter = .error .closed) :
    Carries cluster now c (.request (.close timeout)) .closeAgain
  | toldOfChange {r : Request ℓ κ} {change : Change ℓ} {listener : ℓ} (h : c.enter = .ok ())
    (hr : r.change? cluster = some change) (htold : change.isTold = true)
    (hl : c.subscription.notice? = some listener) :
    Carries cluster now c (.request r) (.tell (.changing change) listener .revoked)
  | changed {r : Request ℓ κ} {change : Change ℓ} (h : c.enter = .ok ())
    (hr : r.change? cluster = some change)
    (hl : change.isTold = true → c.subscription.notice? = none) :
    Carries cluster now c (.request r) (.change change)
  | toldOfAssignment {listener : ℓ} (h : c.enter = .ok ()) (hpending : c.subscription.pending = true)
    (hl : c.subscription.notice? = some listener) :
    Carries cluster now c (.request .poll) (.tell .activating listener .assigned)
  | activated (h : c.enter = .ok ()) (hpending : c.subscription.pending = true)
    (hl : c.subscription.notice? = none) : Carries cluster now c (.request .poll) .activate
  | toldOfExpiry {listener : ℓ} (h : c.enter = .ok ()) (hpending : c.subscription.pending = false)
    (hexpired : c.session.isExpired now = true) (hl : c.subscription.notice? = some listener) :
    Carries cluster now c (.request .poll) (.tell .expiring listener .revoked)
  | expired (h : c.enter = .ok ()) (hpending : c.subscription.pending = false)
    (hexpired : c.session.isExpired now = true) (hl : c.subscription.notice? = none) :
    Carries cluster now c (.request .poll) .expire
  | awaited (h : c.enter = .ok ()) (hpending : c.subscription.pending = false)
    (hexpired : c.session.isExpired now = false) : Carries cluster now c (.request .poll) .await
  | served {r : Request ℓ κ} (h : c.enter = .ok ()) (hr : r.change? cluster = none)
    (hpoll : r ≠ .poll) : Carries cluster now c (.request r) (.serve r)
  | proceeded {activity : Activity ℓ} {q : Part ℓ κ} (h : c.guard.holder = some activity)
    (hq : activity.next = q) : Carries cluster now c .proceed q

theorem enter_eq_ok_iff {c : Consumer ℓ κ} :
    c.enter = .ok () ↔ c.guard.holder = none ∧ c.closed = false := by
  unfold enter Guard.check Guard.isHeld
  cases c.guard.holder <;> cases c.closed <;> simp

theorem guard_of_enter {c : Consumer ℓ κ} (h : c.enter = .ok ()) : c.guard = .free :=
  Guard.eq_of_holder_eq (enter_eq_ok_iff.1 h).1

theorem carries_changePart {cluster : Cluster} {now : Time} {c : Consumer ℓ κ} {r : Request ℓ κ}
    {change : Change ℓ} (h : c.enter = .ok ()) (hr : r.change? cluster = some change) :
    c.Carries cluster now (.request r) (c.changePart change) := by
  unfold changePart
  by_cases htold : change.isTold = true
  · rw [if_pos htold]
    cases hl : c.subscription.notice? with
    | none => exact .changed h hr fun _ => hl
    | some listener => exact .toldOfChange h hr htold hl
  · rw [if_neg htold]
    exact .changed h hr fun h' => absurd h' htold

theorem carries_pollPart {cluster : Cluster} {now : Time} {c : Consumer ℓ κ} (h : c.enter = .ok ()) :
    c.Carries cluster now (.request .poll) (c.pollPart now) := by
  unfold pollPart
  cases hpending : c.subscription.pending with
  | true =>
    rw [if_pos rfl]
    cases hl : c.subscription.notice? with
    | none => exact .activated h hpending hl
    | some listener => exact .toldOfAssignment h hpending hl
  | false =>
    rw [if_neg Bool.false_ne_true]
    cases hexpired : c.session.isExpired now with
    | false => exact .awaited h hpending hexpired
    | true =>
      rw [if_pos rfl]
      cases hl : c.subscription.notice? with
      | none => exact .expired h hpending hexpired hl
      | some listener => exact .toldOfExpiry h hpending hexpired hl

theorem carries_of_part? {cluster : Cluster} {now : Time} {c : Consumer ℓ κ} {a : Act ℓ κ}
    {q : Part ℓ κ} (h : c.part? cluster now a = some q) : c.Carries cluster now a q := by
  cases a with
  | request r =>
    cases Option.some.inj h
    unfold requestPart
    cases henter : c.enter with
    | error e => cases e <;> cases r <;> first | exact .closedAgain henter | exact .refused henter
    | ok =>
      cases hr : r.change? cluster with
      | some change => exact carries_changePart henter hr
      | none =>
        cases r with
        | poll => exact carries_pollPart henter
        | _ => exact .served henter hr nofun
  | proceed =>
    obtain ⟨activity, hg, rfl⟩ := Option.map_eq_some_iff.1 h
    exact .proceeded hg rfl
  | _ => cases h

theorem eq_request_of_part?_eq_serve {cluster : Cluster} {now : Time} {c : Consumer ℓ κ}
    {a : Act ℓ κ} {r : Request ℓ κ} (h : c.part? cluster now a = some (.serve r)) :
    a = .request r := by
  cases carries_of_part? h with
  | served => rfl
  | @proceeded activity _ _ hq => cases activity <;> cases hq

def serve (cluster : Cluster) (now : Time) (c : Consumer ℓ κ) (r : Request ℓ κ) : Turn ℓ κ :=
  match r with
  | .subscribe .. | .subscribePattern .. | .assign _ | .unsubscribe | .poll => c.answer (.ok .done) []
  | r => c.begin cluster now r

def perform (cluster : Cluster) (now : Time) (c : Consumer ℓ κ) : Part ℓ κ → Turn ℓ κ
  | .refuse e => ⟨c, .answered (.error e), []⟩
  | .closeAgain => ⟨c, .answered (.ok .done), []⟩
  | .tell activity listener call => ⟨c.hold activity, .tell listener call, []⟩
  | .change change => c.makeChange cluster now change
  | .activate => c.activate cluster now
  | .expire => c.expire now
  | .await => c.beginFetch now []
  | .fetch => c.fetch cluster now
  | .serve r => c.serve cluster now r
  | .shut => { c with closed := true }.answer (.ok .done) []

theorem beginChange_eq (cluster : Cluster) (now : Time) (c : Consumer ℓ κ) (change : Change ℓ) :
    c.beginChange cluster now change = c.perform cluster now (c.changePart change) := by
  unfold beginChange changePart
  cases (if change.isTold then c.subscription.notice? else none) <;> rfl

theorem beginPoll_eq (cluster : Cluster) (now : Time) (c : Consumer ℓ κ) :
    c.beginPoll cluster now = c.perform cluster now (c.pollPart now) := by
  unfold beginPoll pollPart
  split
  · cases c.subscription.notice? <;> rfl
  · split
    · cases c.subscription.notice? <;> rfl
    · rfl

theorem request_eq (cluster : Cluster) (now : Time) (c : Consumer ℓ κ) (r : Request ℓ κ) :
    c.request cluster now r = c.perform cluster now (c.requestPart cluster now r) := by
  unfold request requestPart
  cases c.enter with
  | ok =>
    cases r with
    | subscribe | subscribePattern | unsubscribe => exact c.beginChange_eq cluster now _
    | assign partitions => exact c.beginChange_eq cluster now (.assign partitions)
    | poll => exact c.beginPoll_eq cluster now
    | _ => rfl
  | error e => cases e <;> cases r <;> rfl

theorem proceed_eq {cluster : Cluster} {now : Time} {c : Consumer ℓ κ} {p : Part ℓ κ}
    (h : c.proceedPart? = some p) : c.proceed cluster now = c.perform cluster now p := by
  unfold proceedPart? at h
  unfold proceed
  cases hg : c.guard.holder with
  | none => simp [hg] at h
  | some a =>
    simp only [hg, Option.map_some, Option.some.injEq] at h
    subst h
    cases a <;> rfl

/-- Acts that are no turns. They leave alone what operations read and change. -/
def undergo (cluster : Cluster) (now : Time) (c : Consumer ℓ κ) : Act ℓ κ → Consumer ℓ κ
  | .request _ | .proceed => c
  | .abandon => if c.guard.holder.any (·.isTelling) then c.abandon else c
  | .startCommit =>
    match c.commits.start? cluster with
    | some e => { c with commits := e.commits }
    | none => c
  | .finishCommit => { c with commits := c.commits.finish now }
  | .addFault .poll fault count => { c with pollFaults := c.pollFaults.push fault count }
  | .addFault .commit fault count =>
    { c with commits := { c.commits with faults := c.commits.faults.push fault count } }
  | .drop => if c.guard.isHeld then c else c.release

def act (cluster : Cluster) (now : Time) (c : Consumer ℓ κ) (a : Act ℓ κ) : Consumer ℓ κ :=
  match c.part? cluster now a with
  | some p => (c.perform cluster now p).consumer
  | none => c.undergo cluster now a

def outcome (cluster : Cluster) (now : Time) (c : Consumer ℓ κ) (a : Act ℓ κ) : Outcome ℓ κ :=
  match c.part? cluster now a with
  | some p => .progress (c.perform cluster now p).progress
  | none =>
    match a, c.commits.start? cluster with
    | .startCommit, some e => .committed e.commit e.result
    | _, _ => .silent

end Consumer

namespace World

variable {ℓ κ : Type}

theorem consumer?_setConsumer_self {w : World ℓ κ} {id : ConsumerId} {c : Consumer ℓ κ}
    (h : w.consumer? id = some c) (c' : Consumer ℓ κ) :
    (w.setConsumer id c').consumer? id = some c' := by
  have hlt : id < w.consumers.length := (List.getElem?_eq_some_iff.1 h).1
  simp [consumer?, setConsumer, List.getElem?_set_self hlt]

theorem setConsumer_self {w : World ℓ κ} {id : ConsumerId} {c : Consumer ℓ κ}
    (hc : w.consumer? id = some c) : w.setConsumer id c = w := by
  obtain ⟨hlt, rfl⟩ := List.getElem?_eq_some_iff.1 hc
  simp [setConsumer]

theorem consumer?_setConsumer_of_ne (w : World ℓ κ) {id id' : ConsumerId} (hne : id ≠ id')
    (c' : Consumer ℓ κ) : (w.setConsumer id c').consumer? id' = w.consumer? id' := by
  simp [consumer?, setConsumer, List.getElem?_set_ne hne]

theorem consumer?_modifyConsumer (w : World ℓ κ) (id id' : ConsumerId)
    (f : Consumer ℓ κ → Consumer ℓ κ) :
    (w.modifyConsumer id f).consumer? id' =
      if id = id' then (w.consumer? id').map f else w.consumer? id' := by
  simp only [consumer?, modifyConsumer, List.getElem?_modify]
  split <;> simp

theorem holder?_of_consumer {w : World ℓ κ} {id : ConsumerId} {c : Consumer ℓ κ}
    (h : w.consumer? id = some c) : w.holder? id = c.guard.holder := by simp [holder?, h]

end World

end LogConsumer
