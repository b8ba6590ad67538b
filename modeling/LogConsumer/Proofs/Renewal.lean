import LogConsumer.Proofs.Panic
import LogConsumer.Proofs.Refusals

/-! What a new subscription or assignment owes to the past of its consumer: nothing. Whatever was
subscribed to, assigned, paused, sought or pending before is cleared or overwritten. Main statement:
`change_forgets_past`. -/
namespace LogConsumer

variable {ℓ κ : Type}

def Session.IsSound (s : Session) : Prop := s.timeout = none → s.deadline = none

theorem Session.IsSound.touch_eq {s : Session} (h : s.IsSound) (now : Time) :
    s.touch now = ⟨s.timeout, s.timeout.map fun timeout => now + timeout.nanos⟩ := by
  obtain ⟨timeout, deadline⟩ := s
  cases timeout with
  | none => simp [touch, show deadline = none from h rfl]
  | some timeout => rfl

theorem Session.IsSound.touch {s : Session} (h : s.IsSound) (now : Time) : (s.touch now).IsSound := by
  rw [h.touch_eq]
  intro htimeout
  exact Option.map_eq_none_iff.2 htimeout

theorem Session.IsSound.afterChange_eq {s : Session} (h : s.IsSound) {change : Change ℓ}
    (hjoin : change ≠ .unsubscribe) (now : Time) :
    s.afterChange now change =
      ⟨s.timeout, s.timeout.map fun timeout => now + timeout.nanos⟩ := by
  cases change with
  | unsubscribe => exact absurd rfl hjoin
  | subscribe | assign => exact h.touch_eq now

theorem Subscription.afterChange_congr (cluster : Cluster) (s s' : Subscription ℓ) (change : Change ℓ) :
    s.afterChange cluster change = s'.afterChange cluster change := by
  cases change <;> rfl

namespace Consumer

variable {cluster : Cluster} {now : Time} {c : Consumer ℓ κ} {a : Act ℓ κ}

theorem part?_of_change (now : Time) {r : Request ℓ κ} {change : Change ℓ} (hopen : c.enter = .ok ())
    (hr : r.change? cluster = some change) :
    c.part? cluster now (.request r) = some (c.changePart change) := by
  simp [part?, requestPart, hopen, hr]

theorem changePart_cases (c : Consumer ℓ κ) (change : Change ℓ) :
    (∃ listener, c.changePart change = .tell (.changing change) listener .revoked) ∨
      c.changePart change = .change change := by
  unfold changePart
  split
  next listener _ => exact .inl ⟨listener, rfl⟩
  next => exact .inr rfl

theorem isSound_session_act (h : c.session.IsSound) : (c.act cluster now a).session.IsSound := by
  cases hset : c.configures cluster now a with
  | true =>
    obtain ⟨_, -, ⟨-, hsession⟩ | ⟨-, _, -, hsession⟩⟩ := session_of_configures hset
    all_goals
      rw [hsession]
      exact fun _ => rfl
  | false =>
    rw [session_act hset]
    split
    · exact h.touch now
    · exact h

end Consumer

namespace World

variable {w v v' : World ℓ κ} {id id' : ConsumerId} {c : Consumer ℓ κ} {r : Request ℓ κ}
  {change : Change ℓ} {m : Move ℓ κ}

theorem isSound_session_run (ms : List (Move ℓ κ)) (hc : (initial.run ms).consumer? id = some c) :
    c.session.IsSound :=
  consumer_invariant (I := fun c => c.session.IsSound) (fun _ _ => rfl)
    (fun _ _ _ _ => Consumer.isSound_session_act) ms hc

/-- The change that a request asks for in `w` is made by the move `m` in `v`: by the request itself,
or when the listener that is told of it has returned, whatever has been done meanwhile. -/
inductive Makes (id : ConsumerId) (r : Request ℓ κ) (w : World ℓ κ) : World ℓ κ → Move ℓ κ → Prop
  | atOnce (h : w.outcome (.act id (.request r)) = .progress (.answered (.ok .done))) :
    Makes id r w w (.act id (.request r))
  | returned {v : World ℓ κ} {listener : ℓ} {call : Call}
    (h : w.outcome (.act id (.request r)) = .progress (.tell listener call))
    (hinside : (w.after (.act id (.request r))).Meanwhile id v) : Makes id r w v (.act id .proceed)

/-- Where the change is made, the consumer is as it was when it was asked, but for its faults and
commits. -/
theorem Makes.part? (h : w.Makes id r v m) (hc : w.consumer? id = some c) (hopen : c.enter = .ok ())
    (hr : r.change? w.cluster = some change) :
    ∃ a guard pollFaults commits, m = .act id a ∧
      v.consumer? id = some { c with guard, pollFaults, commits } ∧
      Consumer.part? v.cluster v.clock { c with guard, pollFaults, commits } a =
        some (.change change) := by
  have hq := Consumer.part?_of_change w.clock hopen hr
  have houtcome := outcome_act hc (.request r)
  rw [Consumer.outcome_of_part? hq] at houtcome
  rcases c.changePart_cases change with ⟨listener, htell⟩ | hchange
  · rw [htell] at hq houtcome
    cases h with
    | atOnce hdone => cases houtcome.symm.trans hdone
    | returned _ hinside =>
      have hheld : (w.after (.act id (.request r))).IsHeld (.changing change) c id := by
        refine ⟨c.pollFaults, c.commits, ?_⟩
        rw [consumer?_after_act hc, Consumer.act_of_part? hq]
        rfl
      obtain ⟨pollFaults, commits, hv⟩ := hinside.isHeld hheld
      have hnext : (Activity.changing change).next = (.change change : Part ℓ κ) := rfl
      exact ⟨_, _, pollFaults, commits, rfl, hv, hnext ▸ Consumer.part?_proceed rfl⟩
  · rw [hchange] at hq houtcome
    cases h with
    | atOnce hdone => exact ⟨_, c.guard, c.pollFaults, c.commits, rfl, hc, hq⟩
    | returned htell _ =>
      rw [Consumer.perform_change] at houtcome
      cases houtcome.symm.trans htell

theorem answers_of_change (hc : w.consumer? id = some c) (hopen : c.enter = .ok ())
    (hr : r.change? w.cluster = some change) : w.Answers id r (.ok .done) := by
  have hq := Consumer.part?_of_change w.clock hopen hr
  rcases c.changePart_cases change with ⟨listener, htell⟩ | hchange
  · exact answers_of_toldOfChange hc (hq.trans (congrArg some htell))
  · left
    rw [outcome_act hc, Consumer.outcome_of_part? hq, hchange, Consumer.perform_change]

/-- The consumer after a change, of which only the behaviour, the options, the timeout, the faults and
the commits are what they were. -/
theorem Makes.consumer?_after (h : w.Makes id r v m) (hc : w.consumer? id = some c)
    (hopen : c.enter = .ok ()) (hr : r.change? w.cluster = some change) :
    v.outcome m = .progress (.answered (.ok .done)) ∧
      ∃ pollFaults commits, (v.after m).consumer? id = some { c with
        guard := .free
        subscription := c.subscription.afterChange v.cluster change
        positions := .empty
        session := c.session.afterChange v.clock change
        pollFaults
        commits } := by
  obtain ⟨a, guard, pollFaults, commits, rfl, hv, hq⟩ := h.part? hc hopen hr
  rw [outcome_act hv, Consumer.outcome_of_part? hq, consumer?_after_act hv, Consumer.act_of_part? hq,
    Consumer.perform_change]
  exact ⟨rfl, pollFaults, commits, rfl⟩

/-- A subscription or an assignment that an open and free consumer is asked for succeeds, and leaves
it the same whatever it has been through. -/
theorem change_forgets_past (ms : List (Move ℓ κ)) (hc : (initial.run ms).consumer? id = some c)
    (hopen : c.enter = .ok ()) (hr : r.change? (initial.run ms).cluster = some change)
    (hjoin : change ≠ .unsubscribe) :
    (initial.run ms).Answers id r (.ok .done) ∧
      ∀ v m, (initial.run ms).Makes id r v m →
        v.outcome m = .progress (.answered (.ok .done)) ∧
        ∃ d, (v.after m).consumer? id = some d ∧
          (∀ topics listener,
            (r = .subscribe topics listener ∨ ∃ pattern, r = .subscribePattern pattern listener ∧
              topics = (initial.run ms).cluster.topicsMatching pattern) →
            d.subscription.mode = .subscribed topics listener ∧
              ∀ p, d.subscription.assignment.contains p = true ↔
                topics.contains p.topic = true ∧ v.cluster.isLed p = true) ∧
          (∀ partitions, r = .assign partitions →
            d.subscription.mode = .assigned ∧ d.subscription.topics = .empty ∧
              d.subscription.assignment = partitions) ∧
          d.subscription.paused = .empty ∧ d.positions = .empty ∧ d.subscription.pending = true ∧
          d.session.timeout = c.session.timeout ∧
          d.session.deadline = c.session.timeout.map (fun timeout => v.clock + timeout.nanos) ∧
          ∀ (ms' : List (Move ℓ κ)) id' c' r', (initial.run ms').consumer? id' = some c' →
            c'.enter = .ok () → r'.change? (initial.run ms').cluster = some change →
            c'.session.timeout = c.session.timeout →
            ∀ v' m', (initial.run ms').Makes id' r' v' m' → v.Agrees v' →
              ∃ d', (v'.after m').consumer? id' = some d' ∧ d'.subscription = d.subscription ∧
                d'.positions = d.positions ∧ d'.session = d.session := by
  refine ⟨answers_of_change hc hopen hr, fun v m hmakes => ?_⟩
  obtain ⟨houtcome, pollFaults, commits, hd⟩ := hmakes.consumer?_after hc hopen hr
  rw [(isSound_session_run ms hc).afterChange_eq hjoin] at hd
  refine ⟨houtcome, _, hd, ?_, ?_, ?_, rfl, ?_, rfl, rfl, ?_⟩
  · intro topics listener hrequest
    have hchange : change = .subscribe topics listener := by
      rcases hrequest with rfl | ⟨pattern, rfl, rfl⟩ <;> exact (Option.some.inj hr).symm
    subst hchange
    exact ⟨rfl, fun p => Cluster.contains_resolve⟩
  · rintro partitions rfl
    cases hr
    exact ⟨rfl, rfl, rfl⟩
  · cases change <;> rfl
  · cases change with
    | unsubscribe => exact absurd rfl hjoin
    | subscribe | assign => rfl
  · intro ms' id' c' r' hc' hopen' hr' htimeout v' m' hmakes' hagrees
    obtain ⟨-, pollFaults', commits', hd'⟩ := hmakes'.consumer?_after hc' hopen' hr'
    rw [(isSound_session_run ms' hc').afterChange_eq hjoin, htimeout, ← hagrees.2] at hd'
    refine ⟨_, hd', ?_, rfl, rfl⟩
    rw [← hagrees.1]
    exact Subscription.afterChange_congr v.cluster c'.subscription c.subscription change

def sampleLong : List (Move Unit Unit) :=
  [.cluster (.createTopic "t" 2), .create .manualHeartbeat,
    .act 0 (.request (.configure .standard)),
    .act 0 (.request (.subscribe (.setOf ["t"]) (some ()))), .act 0 (.request .poll), .act 0 .proceed,
    .act 0 (.request (.pause [⟨"t", 0⟩])), .act 0 (.request (.seekToEnd [⟨"t", 1⟩]))]

def sampleTurmoil : List (Move Unit Unit) :=
  [.cluster (.createTopic "u" 1), .cluster (.setLeader ⟨"t", 1⟩ none), .advance 5]

/-- The same cluster at the same time, and a consumer that was only just made. -/
def sampleShort : List (Move Unit Unit) :=
  [.cluster (.createTopic "t" 2), .cluster (.createTopic "u" 1), .cluster (.setLeader ⟨"t", 1⟩ none),
    .create .standard, .create .manualHeartbeat, .act 1 (.request (.configure .standard)), .advance 5]

def sampleChange : Request Unit Unit := .subscribe (.setOf ["t", "u", "v"]) none

theorem change_forgets_past_sample :
    ∃ v d d', v = ((initial.run sampleLong).after (.act 0 (.request sampleChange))).run sampleTurmoil ∧
      (v.after (.act 0 .proceed)).consumer? 0 = some d ∧
      ((initial.run sampleShort).after (.act 1 (.request sampleChange))).consumer? 1 = some d' ∧
      d.subscription.topics = .setOf ["t", "u", "v"] ∧
      d.subscription.assignment.contains ⟨"t", 0⟩ = true ∧
      d.subscription.assignment.contains ⟨"t", 1⟩ = false ∧
      d.subscription.assignment.contains ⟨"u", 0⟩ = true ∧
      d.subscription.paused = .empty ∧ d.session.deadline = some 2000000005 ∧
      d'.subscription = d.subscription ∧ d'.session = d.session := by
  obtain ⟨c, hc⟩ : ∃ c, (initial.run sampleLong).consumer? 0 = some c := ⟨_, rfl⟩
  obtain ⟨c', hc'⟩ : ∃ c', (initial.run sampleShort).consumer? 1 = some c' := ⟨_, rfl⟩
  have hopen : c.enter = .ok () ∧ c'.enter = .ok () := by
    cases hc
    cases hc'
    exact ⟨rfl, rfl⟩
  have htimeout : c.session.timeout = some (.ofMillis 2000) ∧
      c'.session.timeout = some (.ofMillis 2000) := by
    cases hc
    cases hc'
    decide
  have hinside : ∀ m ∈ sampleTurmoil, m.resumes 0 = false := by
    simp [sampleTurmoil, Move.resumes, Move.act?]
  have hmakes : (initial.run sampleLong).Makes 0 sampleChange _ (.act 0 .proceed) :=
    .returned rfl ⟨sampleTurmoil, rfl, hinside⟩
  have hmakes' : (initial.run sampleShort).Makes 1 sampleChange _ _ := .atOnce rfl
  have hr : sampleChange.change? (initial.run sampleLong).cluster =
      some (.subscribe (.setOf ["t", "u", "v"]) none) := rfl
  have hjoin : (.subscribe (.setOf ["t", "u", "v"]) none : Change Unit) ≠ .unsubscribe := by
    rintro ⟨⟩
  obtain ⟨-, hall⟩ := change_forgets_past sampleLong hc hopen.1 hr hjoin
  obtain ⟨-, d, hd, hsubscribed, -, hpaused, -, -, -, hdeadline, hsame⟩ := hall _ _ hmakes
  obtain ⟨d', hd', hsubscription, -, hsession⟩ := hsame sampleShort 1 c' sampleChange hc' hopen.2 rfl
    (htimeout.2.trans htimeout.1.symm) _ _ hmakes' ⟨by decide, by decide⟩
  obtain ⟨hmode, hassigned⟩ := hsubscribed (.setOf ["t", "u", "v"]) none (.inl rfl)
  refine ⟨_, d, d', rfl, hd, hd', by simp [Subscription.topics, hmode], (hassigned _).2 (by decide),
    ?_, (hassigned _).2 (by decide), hpaused, ?_, hsubscription, hsession⟩
  · rw [← Bool.not_eq_true, hassigned]
    decide
  · rw [hdeadline, htimeout.1]
    decide

end World

end LogConsumer
