import LogConsumer.Proofs.Expiry

/-! What the subscription, the assignment, the paused partitions and the session of a consumer owe to
each other, wherever its operations stop. Main statement: `subscription_consistent`. -/
namespace LogConsumer

variable {ℓ κ : Type}

namespace Subscription

structure Consistent (s : Subscription ℓ) : Prop where
  paused_assigned : ∀ p, s.paused.contains p = true → s.assignment.contains p = true
  unassigned : s.mode = .unassigned → s.assignment = .empty ∧ s.pending = false

theorem consistent_none : (none : Subscription ℓ).Consistent := ⟨fun _ h => h, fun _ => ⟨rfl, rfl⟩⟩

/-- A change clears the paused partitions before it assigns others. -/
theorem consistent_afterChange (cluster : Cluster) (s : Subscription ℓ) (change : Change ℓ) :
    (s.afterChange cluster change).Consistent := by
  cases change with
  | unsubscribe => exact ⟨fun _ h => h, fun _ => ⟨rfl, rfl⟩⟩
  | _ => exact ⟨fun _ h => (by cases h), nofun⟩

namespace Consistent

variable {s : Subscription ℓ}

theorem clearAssignment (h : s.Consistent) : s.clearAssignment.Consistent :=
  ⟨fun _ hp => hp, fun hmode => ⟨rfl, (h.unassigned hmode).2⟩⟩

theorem markActive (h : s.Consistent) : s.markActive.Consistent :=
  ⟨h.paused_assigned, fun hmode => ⟨(h.unassigned hmode).1, rfl⟩⟩

theorem pause (h : s.Consistent) (ps : List Partition) : (s.pause ps).Consistent := by
  refine ⟨fun p hp => ?_, h.unassigned⟩
  rcases contains_pause.1 hp with ⟨-, hassigned⟩ | hpaused
  · exact hassigned
  · exact h.paused_assigned p hpaused

theorem resume (h : s.Consistent) (ps : List Partition) : (s.resume ps).Consistent :=
  ⟨fun p hp => h.paused_assigned p (contains_resume.1 hp).2, h.unassigned⟩

end Consistent

theorem mode_of_notice? {s : Subscription ℓ} {listener : ℓ} (h : s.notice? = some listener) :
    ∃ topics, s.mode = .subscribed topics (some listener) := by
  unfold notice? listener? at h
  split at h
  next => cases h
  next =>
    split at h
    next topics _ hmode => exact ⟨topics, h ▸ hmode⟩
    next => cases h

theorem notice?_of_not_subscribed {s : Subscription ℓ}
    (h : ∀ topics listener, s.mode ≠ .subscribed topics listener) : s.notice? = Option.none := by
  refine Option.eq_none_iff_forall_ne_some.2 fun listener hl => ?_
  obtain ⟨topics, hmode⟩ := mode_of_notice? hl
  exact h topics _ hmode

theorem topics_of_not_subscribed {s : Subscription ℓ}
    (h : ∀ topics listener, s.mode ≠ .subscribed topics listener) : s.topics = .empty := by
  unfold topics
  split
  next topics listener hmode => exact absurd hmode (h topics listener)
  next => rfl

end Subscription

namespace Consumer

variable {cluster : Cluster} {now : Time} {c : Consumer ℓ κ} {a : Act ℓ κ}

structure Consistent (c : Consumer ℓ κ) : Prop where
  subscription : c.subscription.Consistent
  telling : c.guard.holder.any (·.isTelling) = true → ∃ listener, c.subscription.notice? = some listener
  session : c.behaviour.autoHeartbeat = true → c.session = .inactive

theorem consistent_ofBehaviour (b : Behaviour) : (ofBehaviour b : Consumer ℓ κ).Consistent :=
  ⟨Subscription.consistent_none, nofun, fun _ => rfl⟩

theorem consistent_subscription_serve (h : c.subscription.Consistent) (r : Request ℓ κ) :
    (c.serve cluster now r).consumer.subscription.Consistent := by
  cases r with
  | pause ps => exact h.pause ps
  | resume ps => exact h.resume ps
  | configure options =>
    simp only [serve, begin]
    split
    next c' hconfigure =>
      obtain ⟨timeout, rfl⟩ := configure_eq_ok hconfigure
      exact h
    next => exact h
  | seek p offset =>
    simp only [serve, begin]
    split <;> exact h
  | commit callback =>
    simp only [serve, begin, schedule]
    split <;> exact h
  | commitOffsets offsets callback =>
    simp only [serve, begin, schedule]
    split <;> exact h
  | _ => exact h

theorem consistent_subscription_act (h : c.subscription.Consistent) :
    (c.act cluster now a).subscription.Consistent := by
  cases hq : c.part? cluster now a with
  | none =>
    obtain ⟨_, _, _, _, heq, -⟩ := undergo_eq cluster now c a
    rw [act_of_part?_none hq, heq]
    exact h
  | some q =>
    rw [act_of_part? hq]
    cases q with
    | change change =>
      rw [perform_change]
      exact Subscription.consistent_afterChange cluster c.subscription change
    | activate =>
      obtain ⟨_, _, -, ⟨-, heq⟩ | ⟨_, -, heq⟩⟩ := perform_activate_cases cluster now c
      · rw [heq]
        exact h.markActive
      · rw [heq]
        exact h
    | expire => exact h.clearAssignment
    | fetch =>
      rcases perform_fetch_cases cluster now c with ⟨_, _, -, heq⟩ | ⟨_, _, -, -, heq⟩
      all_goals
        rw [heq]
        exact h
    | serve r => exact consistent_subscription_serve h r
    | _ => exact h

/-- A listener is told of what is assigned, and until it has returned nothing else is. -/
theorem telling_act
    (h : c.guard.holder.any (·.isTelling) = true → ∃ listener, c.subscription.notice? = some listener)
    (htelling : (c.act cluster now a).guard.holder.any (·.isTelling) = true) :
    ∃ listener, (c.act cluster now a).subscription.notice? = some listener := by
  cases hq : c.part? cluster now a with
  | none =>
    obtain ⟨_, _, _, _, heq, hguard⟩ := undergo_eq cluster now c a
    rw [act_of_part?_none hq, heq] at htelling ⊢
    rcases hguard with rfl | ⟨-, -, rfl⟩
    · exact h htelling
    · cases htelling
  | some q =>
    rw [act_of_part? hq] at htelling ⊢
    -- Nobody is being told when an operation is over.
    have hlast (hq' : q.isLast = true) : False := by
      rw [guard_perform_of_isLast hq'] at htelling
      cases htelling
    cases carries_of_part? hq with
    | refused | closedAgain => exact h htelling
    | toldOfChange _ _ _ hl | toldOfAssignment _ _ hl | toldOfExpiry _ _ _ hl => exact ⟨_, hl⟩
    | changed | activated => exact (hlast rfl).elim
    | expired | awaited => cases htelling
    | @served r =>
      rw [perform_serve] at htelling
      rcases serve_cases cluster now c r with ⟨_, _, _, _, _, _, heq, -⟩ | ⟨_, heq⟩
      all_goals
        rw [heq] at htelling
        cases htelling
    | @proceeded activity _ _ hnext =>
      subst hnext
      cases activity with
      | expiring => cases htelling
      | _ => exact (hlast rfl).elim

theorem session_act_of_autoHeartbeat (hauto : c.behaviour.autoHeartbeat = true)
    (h : c.session = .inactive) : (c.act cluster now a).session = .inactive := by
  cases hset : c.configures cluster now a with
  | true =>
    obtain ⟨_, -, ⟨-, hsession⟩ | ⟨hmanual, -⟩⟩ := session_of_configures hset
    · exact hsession
    · cases hauto.symm.trans hmanual
  | false =>
    rw [session_act hset, h]
    split <;> rfl

theorem Consistent.act (h : c.Consistent) : (c.act cluster now a).Consistent where
  subscription := consistent_subscription_act h.subscription
  telling := telling_act h.telling
  session hauto :=
    have hbefore : c.behaviour.autoHeartbeat = true := by rwa [behaviour_act] at hauto
    session_act_of_autoHeartbeat hbefore (h.session hbefore)

theorem assignment_act (h : c.changes cluster now a = false) :
    (c.act cluster now a).subscription.mode = c.subscription.mode ∧
      ((c.act cluster now a).subscription.assignment = c.subscription.assignment ∨
        (c.act cluster now a).subscription.assignment = .empty) := by
  cases hrev : c.revokes cluster now a with
  | true =>
    rcases part?_of_revokes hrev with ⟨change, hq⟩ | hq
    · simp [changes, hq, Part.isChange] at h
    · rw [act_of_part? hq]
      exact ⟨rfl, .inr rfl⟩
  | false =>
    obtain ⟨_, _, heq, -⟩ := subscription_act hrev
    rw [heq]
    exact ⟨rfl, .inl rfl⟩

theorem change_of_changes (h : c.changes cluster now a = true) :
    ∃ change, c.part? cluster now a = some (.change change) := by
  obtain ⟨q, hq, hchange⟩ := (Option.any_eq_true ..).1 h
  cases q with
  | change change => exact ⟨change, hq⟩
  | _ => cases hchange

end Consumer

namespace World

variable {id : ConsumerId} {c : Consumer ℓ κ} {topics : SortedSet String} {listener : Option ℓ}

theorem consistent_run (ms : List (Move ℓ κ)) (hc : (initial.run ms).consumer? id = some c) :
    c.Consistent :=
  consumer_invariant Consumer.consistent_ofBehaviour (fun _ _ _ _ h => h.act) ms hc

/-- Who is subscribed to topics subscribed to them with the last change, and is assigned what had a
leader then, or nothing any more. -/
theorem subscribed_run (ms : List (Move ℓ κ)) (hc : (initial.run ms).consumer? id = some c)
    (hmode : c.subscription.mode = .subscribed topics listener) :
    ∃ v m rest, initial.IsLast (changes id) ms v m rest ∧
      v.part? id m = some (.change (.subscribe topics listener)) ∧
      (c.subscription.assignment = v.cluster.resolve topics ∨ c.subscription.assignment = .empty) := by
  induction ms using List.reverseRecOn generalizing c with
  | nil => cases hc
  | append_singleton ms m ih =>
    rw [run_append] at hc
    -- The last change before a move that is none is the last one after it.
    have hkeep {c₀ : Consumer ℓ κ} (h₀ : (initial.run ms).consumer? id = some c₀)
        (hnot : (initial.run ms).changes id m = false)
        (hsame : c.subscription.mode = c₀.subscription.mode ∧
          (c.subscription.assignment = c₀.subscription.assignment ∨
            c.subscription.assignment = .empty)) :
        ∃ v n rest, initial.IsLast (changes id) (ms ++ [m]) v n rest ∧
          v.part? id n = some (.change (.subscribe topics listener)) ∧
          (c.subscription.assignment = v.cluster.resolve topics ∨
            c.subscription.assignment = .empty) := by
      obtain ⟨v, n, rest, hlast, hpart, hassigned⟩ := ih h₀ (hsame.1.symm.trans hmode)
      refine ⟨v, n, rest ++ [m], hlast.append_singleton hnot, hpart, ?_⟩
      rcases hsame.2 with heq | hempty
      · rwa [heq]
      · exact .inr hempty
    rcases consumer?_after_cases hc with ⟨-, b, -, rfl⟩ | ⟨c₀, h₀, ⟨a, rfl, rfl⟩ | ⟨hother, rfl⟩⟩
    · cases hmode
    · have hacted := acted?_act h₀ a
      cases hchange : c₀.changes (initial.run ms).cluster (initial.run ms).clock a with
      | false =>
        exact hkeep h₀ (by simp [changes, hacted, hchange]) (Consumer.assignment_act hchange)
      | true =>
        obtain ⟨change, hq⟩ := Consumer.change_of_changes hchange
        refine ⟨_, _, [], isLast_of_last (by simp [changes, hacted, hchange]), ?_⟩
        rw [Consumer.act_of_part? hq, Consumer.perform_change] at hmode ⊢
        cases change with
        | subscribe topics' listener' =>
          cases hmode
          exact ⟨by simp [part?, hacted, hq], .inl rfl⟩
        | assign | unsubscribe => cases hmode
    · exact hkeep h₀ (by simp [changes, acted?_eq_none hother]) ⟨rfl, .inl rfl⟩

theorem mode_of_told {w : World ℓ κ} {m : Move ℓ κ} {l : ℓ} {call : Call} {ps : SortedSet Partition}
    (hc : w.consumer? id = some c) (h : (l, call, ps) ∈ w.told id m) :
    ∃ topics, c.subscription.mode = .subscribed topics (some l) := by
  rcases acted?_cases hc m with ⟨a, rfl, -, -⟩ | ⟨hacted, -⟩
  · rw [told_act hc] at h
    cases hq : c.part? w.cluster w.clock a with
    | none =>
      rw [Consumer.told_eq_nil_of_part?_none hq] at h
      cases h
    | some q =>
      by_cases htell : ∃ activity l' call', q = .tell activity l' call'
      · obtain ⟨activity, l', call', rfl⟩ := htell
        rw [Consumer.told_of_tell hq] at h
        cases List.mem_singleton.1 h
        cases Consumer.carries_of_part? hq with
        | toldOfChange _ _ _ hl | toldOfAssignment _ _ hl | toldOfExpiry _ _ _ hl =>
          exact Subscription.mode_of_notice? hl
        | @proceeded activity' _ _ hnext => cases activity' <;> cases hnext
      · rw [Consumer.told_eq_nil_of_ne_tell hq fun _ _ _ e => htell ⟨_, _, _, e⟩] at h
        cases h
  · simp [told, hacted] at h

theorem behaviour_of_create {before rest : List (Move ℓ κ)} {b : Behaviour}
    (hid : ((initial.run before : World ℓ κ).create b).1 = id)
    (hc : (initial.run (before ++ .create b :: rest)).consumer? id = some c) : c.behaviour = b := by
  have hmade : ((initial.run before).after (.create b)).consumer? id = some (.ofBehaviour b) := by
    subst hid
    simp [after, step, create, consumer?]
  obtain ⟨c', hc', hsame⟩ := behaviour_run hmade rest
  rw [run_append, run_cons, hc'] at hc
  cases hc
  exact hsame

/-- What holds of assignments, paused partitions, listeners and sessions in every state that can be
reached, also while a listener is being told. -/
theorem subscription_consistent (ms : List (Move ℓ κ)) (hc : (initial.run ms).consumer? id = some c) :
    (∀ p, c.subscription.paused.contains p = true → c.subscription.assignment.contains p = true) ∧
      (c.subscription.mode = .unassigned →
        c.subscription.assignment = .empty ∧ c.subscription.pending = false) ∧
      (∀ topics listener, c.subscription.mode = .subscribed topics listener →
        ∃ v m rest, initial.IsLast (changes id) ms v m rest ∧
          v.part? id m = some (.change (.subscribe topics listener)) ∧
          ∀ p, c.subscription.assignment.contains p = true →
            topics.contains p.topic = true ∧ v.cluster.isLed p = true ∧
              ((initial.run ms).cluster.log? p).isSome = true) ∧
      ((∀ topics listener, c.subscription.mode ≠ .subscribed topics listener) →
        c.subscription.topics = .empty ∧ c.subscription.notice? = none) ∧
      (∀ m l call ps, (l, call, ps) ∈ (initial.run ms).told id m →
        ∃ topics, c.subscription.mode = .subscribed topics (some l)) ∧
      (c.guard.holder.any (·.isTelling) = true →
        ∃ topics l, c.subscription.mode = .subscribed topics (some l)) ∧
      ∀ before b rest, ms = before ++ .create b :: rest → ((initial.run before).create b).1 = id →
        b.autoHeartbeat = true → c.session.timeout = none ∧ c.session.deadline = none := by
  have hconsistent := consistent_run ms hc
  refine ⟨hconsistent.subscription.paused_assigned, hconsistent.subscription.unassigned, ?_, ?_, ?_,
    ?_, ?_⟩
  · intro topics listener hmode
    obtain ⟨v, m, rest, hlast, hpart, hassigned⟩ := subscribed_run ms hc hmode
    refine ⟨v, m, rest, hlast, hpart, fun p hp => ?_⟩
    obtain ⟨htopic, hled⟩ : topics.contains p.topic = true ∧ v.cluster.isLed p = true := by
      rcases hassigned with heq | hempty
      · rw [heq] at hp
        exact Cluster.contains_resolve.1 hp
      · rw [hempty] at hp
        cases hp
    -- A partition that exists once exists in every later cluster.
    obtain ⟨log, hlog, -⟩ := (Option.any_eq_true ..).1 hled
    obtain ⟨before, rfl, rfl, -⟩ := hlast
    rw [run_append]
    obtain ⟨log', hlog', -⟩ := extends_run (initial.run before) (m :: rest) p log hlog
    exact ⟨htopic, hled, by rw [hlog']; rfl⟩
  · exact fun hnot =>
      ⟨Subscription.topics_of_not_subscribed hnot, Subscription.notice?_of_not_subscribed hnot⟩
  · exact fun m l call ps htold => mode_of_told hc htold
  · intro htelling
    obtain ⟨l, hl⟩ := hconsistent.telling htelling
    obtain ⟨topics, hmode⟩ := Subscription.mode_of_notice? hl
    exact ⟨topics, l, hmode⟩
  · rintro before b rest rfl hid hauto
    have hsession := hconsistent.session (behaviour_of_create hid hc ▸ hauto)
    rw [hsession]
    exact ⟨rfl, rfl⟩

/-- A topic is subscribed to and loses a leader; one partition of it is paused, and one of another
topic is asked to be. Then a poll tells the listener. -/
def sampleTold : List (Move Unit Unit) :=
  [.cluster (.createTopic "t" 2), .create .standard,
    .act 0 (.request (.subscribe (.setOf ["t"]) (some ()))),
    .cluster (.setLeader ⟨"t", 0⟩ none), .act 0 (.request (.pause [⟨"t", 1⟩, ⟨"u", 0⟩])),
    .act 0 (.request .poll)]

theorem subscription_consistent_sample :
    ∃ c, (initial.run sampleTold).consumer? 0 = some c ∧
      c.subscription.paused.contains ⟨"t", 1⟩ = true ∧
      c.subscription.assignment.contains ⟨"t", 1⟩ = true ∧
      c.subscription.mode = .subscribed (.setOf ["t"]) (some ()) ∧
      (∃ v m rest, initial.IsLast (changes 0) sampleTold v m rest ∧
        v.cluster.isLed ⟨"t", 0⟩ = true) ∧
      (initial.run sampleTold).cluster.isLed ⟨"t", 0⟩ = false ∧
      c.guard.holder.any (·.isTelling) = true ∧
      c.session.timeout = none ∧ c.session.deadline = none := by
  obtain ⟨c, hc⟩ : ∃ c, (initial.run sampleTold).consumer? 0 = some c := ⟨_, rfl⟩
  obtain ⟨hpaused, -, hsubscribed, -, -, -, hsession⟩ := subscription_consistent sampleTold hc
  obtain ⟨htimeout, hdeadline⟩ :=
    hsession [.cluster (.createTopic "t" 2)] .standard (sampleTold.drop 2) rfl rfl rfl
  have hmode : c.subscription.mode = .subscribed (.setOf ["t"]) (some ()) := by
    cases hc
    decide
  obtain ⟨v, m, rest, hlast, -, hassigned⟩ := hsubscribed _ _ hmode
  have hcontains : c.subscription.paused.contains ⟨"t", 1⟩ = true := by
    cases hc
    decide
  have hfirst : c.subscription.assignment.contains ⟨"t", 0⟩ = true := by
    cases hc
    decide
  have htelling : c.guard.holder.any (·.isTelling) = true := by
    cases hc
    decide
  exact ⟨c, hc, hcontains, hpaused _ hcontains, hmode,
    ⟨v, m, rest, hlast, (hassigned _ hfirst).2.1⟩, by decide, htelling, htimeout, hdeadline⟩

end World

end LogConsumer
