import LogConsumer.Proofs.LogGrowth
import LogConsumer.Proofs.Turn

/-! What a run does to one consumer: the moves that act on it, and those among them that take the
assignment away, complete it, set a position or return records. -/
namespace LogConsumer

variable {ℓ κ : Type}

namespace Consumer

/-- Whether an act takes the assignment away. -/
def revokes (cluster : Cluster) (now : Time) (c : Consumer ℓ κ) (a : Act ℓ κ) : Bool :=
  (c.part? cluster now a).any (·.isRevocation)

/-- Whether an act changes the subscription, after the listener was told. -/
def changes (cluster : Cluster) (now : Time) (c : Consumer ℓ κ) (a : Act ℓ κ) : Bool :=
  (c.part? cluster now a).any (·.isChange)

/-- Whether an act completes a pending assignment. -/
def activates (cluster : Cluster) (now : Time) (c : Consumer ℓ κ) (a : Act ℓ κ) : Bool :=
  (c.part? cluster now a).any (·.isActivation) && (c.outcome cluster now a).isSuccess

def seeks (p : Partition) (cluster : Cluster) (now : Time) (c : Consumer ℓ κ) : Act ℓ κ → Bool
  | .request r => decide (p ∈ r.targets) && (c.outcome cluster now (.request r)).isSuccess
  | _ => false

variable {cluster : Cluster} {now : Time} {c : Consumer ℓ κ} {a : Act ℓ κ}

theorem act_of_part? {q : Part ℓ κ} (h : c.part? cluster now a = some q) :
    c.act cluster now a = (c.perform cluster now q).consumer := by simp [act, h]

theorem outcome_of_part? {q : Part ℓ κ} (h : c.part? cluster now a = some q) :
    c.outcome cluster now a = .progress (c.perform cluster now q).progress := by simp [outcome, h]

theorem act_of_part?_none (h : c.part? cluster now a = none) :
    c.act cluster now a = c.undergo cluster now a := by simp [act, h]

theorem isRevocation_of_revokes_false {q : Part ℓ κ} (h : c.revokes cluster now a = false)
    (hq : c.part? cluster now a = some q) : q.isRevocation = false := by simpa [revokes, hq] using h

theorem changes_of_revokes_false (h : c.revokes cluster now a = false) :
    c.changes cluster now a = false := by
  cases hq : c.part? cluster now a with
  | none => simp [changes, hq]
  | some q =>
    have hrev := isRevocation_of_revokes_false h hq
    cases q with
    | change => cases hrev
    | _ => simp [changes, hq, Part.isChange]

theorem outcome_of_part?_none (h : c.part? cluster now a = none) :
    c.outcome cluster now a = .silent ∨
      ∃ e, a = .startCommit ∧ c.commits.start? cluster = some e ∧
        c.outcome cluster now a = .committed e.commit e.result := by
  cases a with
  | startCommit =>
    cases hs : c.commits.start? cluster with
    | none => simp [outcome, h, hs]
    | some e => exact .inr ⟨e, rfl, rfl, by simp [outcome, h, hs]⟩
  | _ => simp [outcome, h]

theorem act_of_activates (h : c.activates cluster now a = true) :
    ∃ positions,
      Positions.fillGaps cluster c.options c.subscription.assignment.keys c.positions =
          (positions, .ok ()) ∧
        c.act cluster now a = { c with
          guard := .free
          positions
          subscription := c.subscription.markActive
          session := c.session.touch now } := by
  obtain ⟨hpart, hsuccess⟩ := Bool.and_eq_true_iff.1 h
  obtain ⟨q, hq, hactivation⟩ := (Option.any_eq_true ..).1 hpart
  cases q with
  | activate =>
    rw [outcome_of_part? hq] at hsuccess
    rw [act_of_part? hq]
    obtain ⟨positions, result, hfill, ⟨rfl, heq⟩ | ⟨e, -, heq⟩⟩ :=
      perform_activate_cases cluster now c
    · exact ⟨positions, hfill, congrArg (·.consumer) heq⟩
    · simp [heq, Outcome.isSuccess] at hsuccess
  | _ => cases hactivation

theorem contains_positions_of_activates (h : c.activates cluster now a = true) {p : Partition}
    (hp : (c.act cluster now a).subscription.assignment.contains p) :
    (c.act cluster now a).positions.contains p := by
  obtain ⟨positions, hfill, heq⟩ := act_of_activates h
  rw [heq] at hp ⊢
  have hassigned : p ∈ c.subscription.assignment.keys := SortedMap.mem_keys_iff.2 hp
  have hcontains := Positions.contains_fillGaps_of_ok (congrArg (·.2) hfill) hassigned
  rwa [hfill] at hcontains

/-- Unless it is taken away, an assignment stays, and so does whether it is pending until it is
completed. -/
theorem subscription_act (h : c.revokes cluster now a = false) :
    ∃ paused pending, (c.act cluster now a).subscription = { c.subscription with paused, pending } ∧
      (pending = c.subscription.pending ∨ c.activates cluster now a = true) := by
  cases hq : c.part? cluster now a with
  | none =>
    obtain ⟨_, _, _, _, heq, -⟩ := undergo_eq cluster now c a
    rw [act_of_part?_none hq, heq]
    exact ⟨_, _, rfl, .inl rfl⟩
  | some q =>
    have hrev := isRevocation_of_revokes_false h hq
    rw [act_of_part? hq]
    cases q with
    | change | expire => cases hrev
    | activate =>
      obtain ⟨positions, result, -, ⟨-, heq⟩ | ⟨e, -, heq⟩⟩ := perform_activate_cases cluster now c
      · refine ⟨c.subscription.paused, false, congrArg (·.consumer.subscription) heq, .inr ?_⟩
        simp [activates, hq, outcome_of_part? hq, heq, Part.isActivation, Outcome.isSuccess]
      · exact ⟨_, _, congrArg (·.consumer.subscription) heq, .inl rfl⟩
    | fetch =>
      rcases perform_fetch_cases cluster now c with ⟨_, _, -, heq⟩ | ⟨_, _, -, -, heq⟩
      all_goals exact ⟨_, _, congrArg (·.consumer.subscription) heq, .inl rfl⟩
    | serve r =>
      rcases serve_cases cluster now c r with ⟨_, _, _, _, _, _, heq, -⟩ | ⟨_, heq⟩
      all_goals exact ⟨_, _, congrArg (·.consumer.subscription) heq, .inl rfl⟩
    | _ => exact ⟨_, _, rfl, .inl rfl⟩

theorem part?_of_revokes (h : c.revokes cluster now a = true) :
    (∃ change, c.part? cluster now a = some (.change change)) ∨
      c.part? cluster now a = some .expire := by
  obtain ⟨q, hq, hrev⟩ := (Option.any_eq_true ..).1 h
  cases q with
  | change change => exact .inl ⟨change, hq⟩
  | expire => exact .inr hq
  | _ => cases hrev

theorem positions_act_of_revokes (h : c.revokes cluster now a = true) :
    (c.act cluster now a).positions = .empty := by
  rcases part?_of_revokes h with ⟨change, hq⟩ | hq
  · rw [act_of_part? hq, perform_change]
  · rw [act_of_part? hq]
    rfl

theorem pending_act (hchange : c.changes cluster now a = false)
    (hpending : c.subscription.pending = false) :
    (c.act cluster now a).subscription.pending = false := by
  cases hrev : c.revokes cluster now a with
  | true =>
    rcases part?_of_revokes hrev with ⟨change, hq⟩ | hq
    · simp [changes, hq, Part.isChange] at hchange
    · rw [act_of_part? hq]
      exact hpending
  | false =>
    obtain ⟨paused, pending, heq, hsame | hactivates⟩ := subscription_act hrev
    · rw [heq]
      exact hsame.trans hpending
    · obtain ⟨_, -, hact⟩ := act_of_activates hactivates
      rw [hact]
      rfl

theorem revokes_eq_false_of_seeks {p : Partition} (h : c.seeks p cluster now a = true) :
    c.revokes cluster now a = false := by
  cases a with
  | request r =>
    simp only [seeks, Bool.and_eq_true, decide_eq_true_eq] at h
    cases hq : c.part? cluster now (.request r) with
    | none => simp [revokes, hq]
    | some q =>
      have htarget := h.1
      simp only [revokes, hq, Option.any_some]
      cases carries_of_part? hq with
      | changed _ hr =>
        cases r with
        | seek | seekToBeginning | seekToEnd => cases hr
        | _ => cases htarget
      | expired => cases htarget
      | _ => rfl
  | _ => cases h

/-- Otherwise a position that changes is one in an assigned partition, or set on request. -/
theorem get?_positions_act (h : c.revokes cluster now a = false) (p : Partition) :
    (c.act cluster now a).positions.get? p = c.positions.get? p ∨
      ((c.act cluster now a).positions.contains p = true ∧
        (c.subscription.assignment.contains p = true ∨ c.seeks p cluster now a = true)) := by
  cases hq : c.part? cluster now a with
  | none =>
    obtain ⟨_, _, _, _, heq, -⟩ := undergo_eq cluster now c a
    rw [act_of_part?_none hq, heq]
    exact .inl rfl
  | some q =>
    have hrev := isRevocation_of_revokes_false h hq
    rw [act_of_part? hq]
    cases q with
    | change | expire => cases hrev
    | activate =>
      rcases get?_activate cluster now c p with hsame | ⟨-, hcontains, hassigned⟩
      · exact .inl hsame
      · exact .inr ⟨hcontains, .inl hassigned⟩
    | fetch =>
      rcases recordsOf_fetch cluster now c p with ⟨-, hsame⟩ | ⟨_, _, hassigned, -, -, -, hnext⟩
      · exact .inl hsame
      · exact .inr ⟨SortedMap.contains_iff.2 ⟨_, hnext⟩, .inl hassigned⟩
    | serve r =>
      cases eq_request_of_part?_eq_serve hq
      rcases get?_serve cluster now c r p with
        hsame | ⟨htarget, hdone, offset, hoffset, -⟩
      · exact .inl hsame
      · refine .inr ⟨SortedMap.contains_iff.2 ⟨offset, hoffset⟩, .inr ?_⟩
        simp [seeks, htarget, outcome_of_part? hq, hdone, Outcome.isSuccess]
    | _ => exact .inl rfl

end Consumer

def Move.act? (id : ConsumerId) : Move ℓ κ → Option (Act ℓ κ)
  | .act id' a => if id' = id then some a else none
  | _ => none

def Move.targets (id : ConsumerId) (m : Move ℓ κ) : List Partition :=
  match m.act? id with
  | some (.request r) => r.targets
  | _ => []

theorem Move.act?_eq_some_iff {id : ConsumerId} {m : Move ℓ κ} {a : Act ℓ κ} :
    m.act? id = some a ↔ m = .act id a := by
  cases m with
  | act id' a' =>
    simp only [act?, Move.act.injEq]
    by_cases hid : id' = id <;> simp [hid]
  | _ => simp [act?]

namespace World

def acted? (id : ConsumerId) (w : World ℓ κ) (m : Move ℓ κ) : Option (Consumer ℓ κ × Act ℓ κ) :=
  (w.consumer? id).bind fun c => (m.act? id).map (c, ·)

def revokes (id : ConsumerId) (w : World ℓ κ) (m : Move ℓ κ) : Bool :=
  (w.acted? id m).any fun (c, a) => c.revokes w.cluster w.clock a

def activates (id : ConsumerId) (w : World ℓ κ) (m : Move ℓ κ) : Bool :=
  (w.acted? id m).any fun (c, a) => c.activates w.cluster w.clock a

def seeks (id : ConsumerId) (p : Partition) (w : World ℓ κ) (m : Move ℓ κ) : Bool :=
  (w.acted? id m).any fun (c, a) => c.seeks p w.cluster w.clock a

/-- Whether a move ends a poll of the consumer that returns a batch. -/
def polls (id : ConsumerId) (w : World ℓ κ) (m : Move ℓ κ) : Bool :=
  (w.acted? id m).isSome && (w.outcome m).batch?.isSome

def returned (id : ConsumerId) (p : Partition) (w : World ℓ κ) (m : Move ℓ κ) : List Record :=
  if (w.acted? id m).isSome then (w.outcome m).recordsOf p else []

def delivered (id : ConsumerId) (p : Partition) (w : World ℓ κ) (ms : List (Move ℓ κ)) :
    List Record := collect (returned id p) w ms

def positions? (id : ConsumerId) (w : World ℓ κ) : Option Positions :=
  (w.consumer? id).map (·.positions)

def position? (id : ConsumerId) (p : Partition) (w : World ℓ κ) : Option Int :=
  (w.consumer? id).bind (·.positions.get? p)

def assigns (id : ConsumerId) (p : Partition) (w : World ℓ κ) : Bool :=
  (w.consumer? id).any (·.subscription.assignment.contains p)

/-- What a move does to a consumer, told by the consumer alone. -/
theorem acted?_cases {w : World ℓ κ} {id : ConsumerId} {c : Consumer ℓ κ}
    (h : w.consumer? id = some c) (m : Move ℓ κ) :
    (∃ a, m = .act id a ∧ w.acted? id m = some (c, a) ∧
        (w.after m).consumer? id = some (c.act w.cluster w.clock a)) ∨
      (w.acted? id m = none ∧ (w.after m).consumer? id = some c) := by
  cases hm : m.act? id with
  | some a =>
    left
    obtain rfl := Move.act?_eq_some_iff.1 hm
    have hacted : w.acted? id (.act id a) = some (c, a) := by simp [acted?, h, hm]
    exact ⟨a, rfl, hacted, consumer?_after_act h a⟩
  | none =>
    right
    have hne : ∀ a, m ≠ .act id a := by
      intro a e
      have hsome := Move.act?_eq_some_iff.2 e
      cases hm.symm.trans hsome
    exact ⟨by simp [acted?, hm], consumer?_after_of_ne h hne⟩

theorem acted?_eq_some_iff {w : World ℓ κ} {id : ConsumerId} {m : Move ℓ κ} {c : Consumer ℓ κ}
    {a : Act ℓ κ} : w.acted? id m = some (c, a) ↔ w.consumer? id = some c ∧ m = .act id a := by
  simp [acted?, Option.bind_eq_some_iff, Move.act?_eq_some_iff]

theorem acted?_act {w : World ℓ κ} {id : ConsumerId} {c : Consumer ℓ κ}
    (h : w.consumer? id = some c) (a : Act ℓ κ) : w.acted? id (.act id a) = some (c, a) :=
  acted?_eq_some_iff.2 ⟨h, rfl⟩

theorem any_acted?_iff {w : World ℓ κ} {id : ConsumerId} {m : Move ℓ κ}
    {f : Consumer ℓ κ × Act ℓ κ → Bool} :
    (w.acted? id m).any f = true ↔
      ∃ c a, w.consumer? id = some c ∧ m = .act id a ∧ f (c, a) = true := by
  simp [Option.any_eq_true, acted?_eq_some_iff, and_assoc]

theorem acted?_eq_none {w : World ℓ κ} {id : ConsumerId} {m : Move ℓ κ}
    (h : ∀ a, m ≠ .act id a) : w.acted? id m = none := by
  apply Option.eq_none_iff_forall_ne_some.2
  rintro ⟨c, a⟩ hacted
  have hm := (acted?_eq_some_iff.1 hacted).2
  exact h a hm

theorem act_of_unchanged {w : World ℓ κ} {id : ConsumerId} {c : Consumer ℓ κ} {a : Act ℓ κ}
    {q : Part ℓ κ} {progress : Progress ℓ} (hc : w.consumer? id = some c)
    (hq : c.part? w.cluster w.clock a = some q)
    (h : c.perform w.cluster w.clock q = ⟨c, progress, []⟩) :
    w.outcome (.act id a) = .progress progress ∧ w.after (.act id a) = w := by
  rw [outcome_act hc, Consumer.outcome_of_part? hq, after_of_part? hc hq, h]
  exact ⟨rfl, setConsumer_self hc⟩

end World

end LogConsumer
