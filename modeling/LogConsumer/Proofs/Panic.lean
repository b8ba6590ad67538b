import LogConsumer.Proofs.Expiry
import LogConsumer.Proofs.Schedule

/-! Listeners that panic. The operation that called the listener is given up, and the consumer is as
if it had never been asked: the same operation can be asked for again and does what it would have done.
Main statement: `panic_undoes_operation`. -/
namespace LogConsumer

variable {ℓ κ : Type}

theorem Session.isExpired_mono {s : Session} {now later : Time} (hle : now ≤ later)
    (h : s.isExpired now = true) : s.isExpired later = true := by
  obtain ⟨timeout, deadline, htimeout, hdeadline, hlt⟩ := Session.isExpired_iff.1 h
  exact Session.isExpired_iff.2 ⟨timeout, deadline, htimeout, hdeadline, Nat.lt_of_lt_of_le hlt hle⟩

/-- Whether a request changes the subscription does not depend on the cluster, nor whether a listener
is told. -/
theorem Request.exists_change? {cluster : Cluster} {r : Request ℓ κ} {change : Change ℓ}
    (h : r.change? cluster = some change) (cluster' : Cluster) :
    ∃ change', r.change? cluster' = some change' ∧ change'.isTold = change.isTold := by
  cases r with
  | subscribe | subscribePattern | assign | unsubscribe =>
    cases h
    exact ⟨_, rfl, rfl⟩
  | _ => cases h

def Move.queued (id : ConsumerId) (m : Move ℓ κ) : List Fault :=
  match m.act? id with
  | some a => a.queued
  | none => []

def Deed.queued (id : ConsumerId) : Deed ℓ κ → List Fault
  | .move m => m.queued id
  | _ => []

namespace Consumer

variable {cluster : Cluster} {now : Time} {c : Consumer ℓ κ}

theorem part?_with_queues (cluster : Cluster) (now : Time) (c : Consumer ℓ κ)
    (pollFaults : FaultQueue) (commits : Commits κ) (a : Act ℓ κ) :
    Consumer.part? cluster now { c with pollFaults, commits } a = c.part? cluster now a := by
  cases a <;> rfl

/-- Until a poll has its answer, an operation neither reads nor changes faults and commits. -/
theorem perform_with_queues (cluster : Cluster) (now : Time) (c : Consumer ℓ κ)
    (pollFaults : FaultQueue) (commits : Commits κ) {q : Part ℓ κ} (hserve : ∀ r, q ≠ .serve r)
    (hfetch : q ≠ .fetch) :
    Consumer.perform cluster now { c with pollFaults, commits } q =
      { c.perform cluster now q with
        consumer := { (c.perform cluster now q).consumer with pollFaults, commits } } := by
  cases q with
  | change change =>
    rw [perform_change, perform_change]
    rfl
  | activate =>
    simp only [perform, activate]
    cases (Positions.fillGaps cluster c.options c.subscription.assignment.keys c.positions).2 <;> rfl
  | serve r => exact absurd rfl (hserve r)
  | fetch => exact absurd rfl hfetch
  | _ => rfl

theorem fetch_with_commits (cluster : Cluster) (now : Time) (c : Consumer ℓ κ) (commits : Commits κ) :
    Consumer.perform cluster now { c with commits } .fetch =
      { c.perform cluster now .fetch with
        consumer := { (c.perform cluster now .fetch).consumer with commits } } := by
  simp only [perform, fetch]
  cases c.pollFaults.pop? <;> rfl

theorem tells_later {a : Act ℓ κ} {activity : Activity ℓ} {listener : ℓ} {call : Call}
    (hq : c.part? cluster now a = some (.tell activity listener call)) (cluster' : Cluster)
    {later : Time} (hle : now ≤ later) :
    ∃ activity', c.part? cluster' later a = some (.tell activity' listener call) := by
  cases carries_of_part? hq with
  | toldOfChange hopen hr htold hl =>
    obtain ⟨change', hr', htold'⟩ := Request.exists_change? hr cluster'
    refine ⟨.changing change', ?_⟩
    simp [part?, requestPart, hopen, hr', changePart, htold', htold, hl]
  | toldOfAssignment hopen hpending hl =>
    refine ⟨.activating, ?_⟩
    simp [part?, requestPart, hopen, Request.change?, pollPart, hpending, hl]
  | toldOfExpiry hopen hpending hexpired hl =>
    have hexpired' := Session.isExpired_mono hle hexpired
    refine ⟨.expiring, ?_⟩
    simp [part?, requestPart, hopen, Request.change?, pollPart, hpending, hexpired', hl]
  | @proceeded activity _ _ hnext => cases activity <;> cases hnext

end Consumer

namespace World

variable {u v w : World ℓ κ} {id : ConsumerId} {c : Consumer ℓ κ} {activity : Activity ℓ}
  {m : Move ℓ κ}

/-- From `w` moves lead to `w'` that do not end what a consumer is stopped at. -/
def Meanwhile (id : ConsumerId) (w w' : World ℓ κ) : Prop :=
  ∃ ms, w' = w.run ms ∧ ∀ m ∈ ms, m.resumes id = false

/-- The same cluster at the same time. -/
def Agrees (u v : World ℓ κ) : Prop := u.cluster = v.cluster ∧ u.clock = v.clock

/-- All that a move changes is one consumer, which is then as `c` but for its faults and commits, and
what is counted. -/
def Yields (id : ConsumerId) (c : Consumer ℓ κ) (counts : List (Counter × Nat)) (w : World ℓ κ)
    (m : Move ℓ κ) : Prop :=
  ∃ pollFaults commits, w.after m =
    { w.setConsumer id { c with pollFaults, commits } with counters := w.counters.countAll counts }

/-- In both worlds a move has the same outcome and the same effect, on the consumer and on what is
counted only. -/
def SameEffect (id : ConsumerId) (u v : World ℓ κ) (m : Move ℓ κ) : Prop :=
  u.outcome m = v.outcome m ∧ ∃ c counts, u.Yields id c counts m ∧ v.Yields id c counts m

/-- An operation that tells a listener does the same in both worlds if the listener returns: it tells
the same listener, and goes on in the same way when the listener has returned and when its wait, if it
has one, is over. Until then anything may be done in the two worlds. -/
structure SameOperation (id : ConsumerId) (m : Move ℓ κ) (u v : World ℓ κ) : Prop where
  tells : u.outcome m = v.outcome m
  returns : ∀ u' v', (u.after m).Meanwhile id u' → (v.after m).Meanwhile id v' → u'.Agrees v' →
    SameEffect id u' v' (.act id .proceed)
  answers : ∀ u' v' u'' v'' time, (u.after m).Meanwhile id u' → (v.after m).Meanwhile id v' →
    u'.Agrees v' → v'.outcome (.act id .proceed) = .progress (.waitUntil time) →
    (u'.after (.act id .proceed)).Meanwhile id u'' → (v'.after (.act id .proceed)).Meanwhile id v'' →
    u''.Agrees v'' → u''.pollFaults id = v''.pollFaults id → SameEffect id u'' v'' (.act id .proceed)

theorem Meanwhile.isHeld {w' : World ℓ κ} (h : w.Meanwhile id w') (hheld : w.IsHeld activity c id) :
    w'.IsHeld activity c id := by
  obtain ⟨ms, rfl, hms⟩ := h
  exact isHeld_run hheld hms

theorem part?_of_told (hc : w.consumer? id = some c) (htold : w.told id m ≠ []) :
    ∃ a activity listener call, m = .act id a ∧ c.enter = .ok () ∧ activity.isTelling = true ∧
      c.part? w.cluster w.clock a = some (.tell activity listener call) := by
  rcases acted?_cases hc m with ⟨a, rfl, -, -⟩ | ⟨hacted, -⟩
  · rw [told_act hc] at htold
    obtain ⟨activity, listener, call, hopen, htelling, hq, -⟩ :=
      (Consumer.told_cases w.cluster w.clock c a).resolve_left htold
    exact ⟨a, activity, listener, call, rfl, hopen, htelling, hq⟩
  · simp [told, hacted] at htold

theorem part?_ne_fetch (hm : m.resumes id = false) : w.part? id m ≠ some .fetch := by
  intro hfetch
  obtain ⟨c, a, -, rfl, hq⟩ := part?_eq_some_iff.1 hfetch
  cases Consumer.carries_of_part? hq with
  | proceeded => simp [Move.resumes, Move.act?] at hm

theorem queued_of_consumer (hc : w.consumer? id = some c) (m : Move ℓ κ) :
    w.queued id m = m.queued id := by
  simp only [queued, acted?, hc, Move.queued, Option.bind_some]
  cases m.act? id <;> rfl

/-- A panic of the listener leaves of the operation nothing but a guard that is free again. -/
theorem consumer?_after_abandon (h : w.IsHeld activity c id) (htelling : activity.isTelling = true)
    (hfree : c.guard = .free) :
    ∃ pollFaults commits, w.consumer? id =
        some { c with guard := ⟨some activity⟩, pollFaults, commits } ∧
      (w.after (.act id .abandon)).consumer? id = some { c with pollFaults, commits } := by
  obtain ⟨pollFaults, commits, hc⟩ := h
  refine ⟨pollFaults, commits, hc, ?_⟩
  rw [consumer?_after_act hc]
  simp [Consumer.act, Consumer.part?, Consumer.undergo, htelling, Consumer.abandon, ← hfree]

theorem outcome_eq_of_tell {a : Act ℓ κ} {listener : ℓ} {call : Call} {activity' : Activity ℓ}
    {c' : Consumer ℓ κ} (hu : u.consumer? id = some c) (hv : v.consumer? id = some c')
    (hq : c.part? u.cluster u.clock a = some (.tell activity listener call))
    (hq' : c'.part? v.cluster v.clock a = some (.tell activity' listener call)) :
    u.outcome (.act id a) = v.outcome (.act id a) := by
  rw [outcome_act hu, outcome_act hv, Consumer.outcome_of_part? hq, Consumer.outcome_of_part? hq']
  rfl

theorem yields_of_perform {pollFaults : FaultQueue} {commits : Commits κ} {q : Part ℓ κ}
    {d : Consumer ℓ κ} (hc : w.consumer? id = some d) {a : Act ℓ κ}
    (hq : d.part? w.cluster w.clock a = some q) {turn : Turn ℓ κ}
    (hturn : d.perform w.cluster w.clock q =
      { turn with consumer := { turn.consumer with pollFaults, commits } }) :
    w.outcome (.act id a) = .progress turn.progress ∧
      w.Yields id turn.consumer turn.counts (.act id a) := by
  rw [outcome_act hc, Consumer.outcome_of_part? hq, hturn]
  refine ⟨rfl, pollFaults, commits, ?_⟩
  rw [after_of_part? hc hq, hturn]

theorem sameEffect_of_perform {pollFaults pollFaults' : FaultQueue} {commits commits' : Commits κ}
    {q : Part ℓ κ} {d d' : Consumer ℓ κ} {turn : Turn ℓ κ} (hagrees : u.Agrees v)
    (hu : u.consumer? id = some d) (hv : v.consumer? id = some d') {a : Act ℓ κ}
    (hq : d.part? u.cluster u.clock a = some q) (hq' : d'.part? v.cluster v.clock a = some q)
    (hturn : d.perform v.cluster v.clock q =
      { turn with consumer := { turn.consumer with pollFaults, commits } })
    (hturn' : d'.perform v.cluster v.clock q = { turn with
      consumer := { turn.consumer with pollFaults := pollFaults', commits := commits' } }) :
    SameEffect id u v (.act id a) := by
  rw [← hagrees.1, ← hagrees.2] at hturn
  obtain ⟨hout, hyields⟩ := yields_of_perform hu hq hturn
  obtain ⟨hout', hyields'⟩ := yields_of_perform hv hq' hturn'
  exact ⟨hout.trans hout'.symm, _, _, hyields, hyields'⟩

/-- An operation whose listener has returned does the same in both worlds. -/
theorem sameEffect_of_isTelling (hu : u.IsHeld activity c id) (hv : v.IsHeld activity c id)
    (htelling : activity.isTelling = true) (hagrees : u.Agrees v) :
    SameEffect id u v (.act id .proceed) := by
  obtain ⟨pollFaults, commits, hu⟩ := hu
  obtain ⟨pollFaults', commits', hv⟩ := hv
  have hserve : ∀ r, (activity.next : Part ℓ κ) ≠ .serve r := activity.next_ne_serve
  have hfetch : (activity.next : Part ℓ κ) ≠ .fetch := by
    cases activity with
    | fetching | closing => cases htelling
    | _ => simp [Activity.next]
  have hturn := Consumer.perform_with_queues v.cluster v.clock { c with guard := ⟨some activity⟩ }
  exact sameEffect_of_perform hagrees hu hv (Consumer.part?_proceed rfl) (Consumer.part?_proceed rfl)
    (hturn pollFaults commits hserve hfetch) (hturn pollFaults' commits' hserve hfetch)

theorem sameEffect_of_fetching (hu : u.IsHeld .fetching c id) (hv : v.IsHeld .fetching c id)
    (hagrees : u.Agrees v) (hfaults : u.pollFaults id = v.pollFaults id) :
    SameEffect id u v (.act id .proceed) := by
  obtain ⟨⟨pending⟩, commits, hu⟩ := hu
  obtain ⟨⟨pending'⟩, commits', hv⟩ := hv
  obtain rfl : pending = pending' := by simpa [pollFaults, hu, hv] using hfaults
  have hturn := Consumer.fetch_with_commits v.cluster v.clock
    { c with guard := ⟨some .fetching⟩, pollFaults := ⟨pending⟩ }
  exact sameEffect_of_perform hagrees hu hv (Consumer.part?_proceed rfl) (Consumer.part?_proceed rfl)
    (hturn commits) (hturn commits')

/-- Of the operations that tell a listener the poll of a lapsed session goes on to wait. -/
theorem isHeld_of_waits (h : w.IsHeld activity c id) (htelling : activity.isTelling = true)
    {time : Time} (hwait : w.outcome (.act id .proceed) = .progress (.waitUntil time)) :
    activity = .expiring ∧
      (w.after (.act id .proceed)).IsHeld .fetching (c.revoke "session_expired").1 id := by
  obtain ⟨pollFaults, commits, hc⟩ := h
  have hq : Consumer.part? w.cluster w.clock
      { c with guard := ⟨some activity⟩, pollFaults, commits } .proceed = some activity.next :=
    Consumer.part?_proceed rfl
  cases activity with
  | expiring =>
    refine ⟨rfl, pollFaults, commits, ?_⟩
    rw [consumer?_after_act hc, Consumer.act_of_part? hq]
    rfl
  | changing | activating =>
    obtain ⟨⟨result, hresult⟩, -⟩ := proceed_of_isLast hc rfl rfl rfl
    cases hresult.symm.trans hwait
  | fetching | closing => cases htelling

theorem sameOperation_of_tell {a : Act ℓ κ} {listener : ℓ} {call : Call} {pollFaults : FaultQueue}
    {commits : Commits κ} (htelling : activity.isTelling = true) (hagrees : u.Agrees v)
    (hu : u.consumer? id = some { c with pollFaults, commits }) (hv : v.consumer? id = some c)
    (hq : c.part? v.cluster v.clock a = some (.tell activity listener call)) :
    SameOperation id (.act id a) u v := by
  have hq' : Consumer.part? u.cluster u.clock { c with pollFaults, commits } a =
      some (.tell activity listener call) := by
    rw [hagrees.1, hagrees.2, Consumer.part?_with_queues, hq]
  have hheld : (u.after (.act id a)).IsHeld activity c id := by
    refine ⟨pollFaults, commits, ?_⟩
    rw [consumer?_after_act hu, Consumer.act_of_part? hq']
    rfl
  have hheld' : (v.after (.act id a)).IsHeld activity c id := by
    refine ⟨c.pollFaults, c.commits, ?_⟩
    rw [consumer?_after_act hv, Consumer.act_of_part? hq]
    rfl
  refine ⟨outcome_eq_of_tell hu hv hq' hq, ?_, ?_⟩
  · intro u' v' hu' hv' hagrees'
    exact sameEffect_of_isTelling (hu'.isHeld hheld) (hv'.isHeld hheld') htelling hagrees'
  · intro u' v' u'' v'' time hu' hv' hagrees' hwait hu'' hv'' hagrees'' hfaults
    have hsame := sameEffect_of_isTelling (hu'.isHeld hheld) (hv'.isHeld hheld') htelling hagrees'
    have ⟨_, hfetching⟩ := isHeld_of_waits (hu'.isHeld hheld) htelling (hsame.1.trans hwait)
    have ⟨_, hfetching'⟩ := isHeld_of_waits (hv'.isHeld hheld') htelling hwait
    exact sameEffect_of_fetching (hu''.isHeld hfetching) (hv''.isHeld hfetching') hagrees'' hfaults

end World

namespace PooledWorld

variable {s t u : PooledWorld ℓ κ} {id : ConsumerId} {c : Consumer ℓ κ} {activity : Activity ℓ}

theorem pollFaults_after {d : Deed ℓ κ} (h : s.world.IsHeld activity c id)
    (hd : d.resumes id = false) :
    (s.after d).world.pollFaults id = s.world.pollFaults id ++ d.queued id := by
  obtain ⟨c', hc', -⟩ := h.exists_consumer
  have hmove {m : Move ℓ κ} (hm : m.resumes id = false) :
      (s.world.after m).pollFaults id = s.world.pollFaults id ++ m.queued id := by
    rw [(World.pollFaults_after (World.part?_ne_fetch hm)).2, World.queued_of_consumer hc']
  cases d with
  | move m => exact hmove hd
  | makePool | addToPool => exact (List.append_nil _).symm
  | handOut pool options =>
    simp only [after, Deed.queued, List.append_nil]
    split
    next id' s' hout =>
      have hm : (Move.act id' (.request (.configure options)) : Move ℓ κ).resumes id = false ∧
          (Move.act id' (.request (.configure options)) : Move ℓ κ).queued id = [] := by
        unfold Move.resumes Move.queued Move.act?
        by_cases hid : id' = id <;> simp [hid, Act.queued]
      rw [(handOut_eq_ok hout).2, hmove hm.1, hm.2, List.append_nil]
    next => rfl

theorem pollFaults_run {ds : List (Deed ℓ κ)} (h : s.world.IsHeld activity c id)
    (hds : ∀ d ∈ ds, d.resumes id = false) :
    (s.run ds).world.pollFaults id = s.world.pollFaults id ++ ds.flatMap (Deed.queued id) := by
  induction ds generalizing s with
  | nil => simp
  | cons d ds ih =>
    have ⟨hd, hds⟩ := List.forall_mem_cons.1 hds
    have hone : ∀ e ∈ [d], e.resumes id = false := by simpa using hd
    have hheld : (s.after d).world.IsHeld activity c id := isHeld_run h hone
    rw [run_cons, ih hheld hds, pollFaults_after h hd, List.append_assoc, List.flatMap_cons]

theorem clock_le_run (s : PooledWorld ℓ κ) (ds : List (Deed ℓ κ)) :
    s.world.clock ≤ (s.run ds).world.clock := by
  obtain ⟨ms, hworld, -⟩ := s.world_run ds
  rw [hworld]
  exact World.clock_le_run s.world ms

/-- A panic of the listener leaves the consumer as it was before the operation, but for commits and
for faults that were added. Asked for again, the operation has the effect that it would have had. -/
theorem panic_undoes_operation {m : Move ℓ κ} (hc : s.world.consumer? id = some c)
    (htold : s.world.told id m ≠ []) {inside : List (Deed ℓ κ)}
    (hinside : ∀ d ∈ inside, d.resumes id = false) (ht : t = (s.after (.move m)).run inside)
    (hu : u = t.after (.move (.act id .abandon))) :
    c.guard = .free ∧ (∃ pollFaults commits,
        u.world.consumer? id = some { c with pollFaults, commits } ∧
          pollFaults.pending = c.pollFaults.pending ++ inside.flatMap (Deed.queued id)) ∧
      u.world.outcome m = s.world.outcome m ∧
      ∀ v : World ℓ κ, u.world.Agrees v → v.consumer? id = some c →
        World.SameOperation id m u.world v := by
  subst ht hu
  obtain ⟨a, activity, listener, call, rfl, hopen, htelling, hq⟩ := World.part?_of_told hc htold
  have hfree := Consumer.guard_of_enter hopen
  have hstart : (s.after (.move (.act id a))).world.consumer? id = some (c.hold activity) := by
    show (s.world.after (.act id a)).consumer? id = _
    rw [World.consumer?_after_act hc, Consumer.act_of_part? hq]
    rfl
  have hheld : (s.after (.move (.act id a))).world.IsHeld activity c id :=
    ⟨c.pollFaults, c.commits, hstart⟩
  obtain ⟨pollFaults, commits, hstopped, hafter⟩ :=
    World.consumer?_after_abandon (isHeld_run hheld hinside) htelling hfree
  -- The clock has not run back, so a session that had lapsed is still lapsed.
  have hclock : s.world.clock ≤
      (((s.after (.move (.act id a))).run inside).after (.move (.act id .abandon))).world.clock := by
    have hmoves := clock_le_run s (.move (.act id a) :: inside)
    exact Nat.le_trans hmoves (World.clock_le_after _ _)
  refine ⟨hfree, ⟨pollFaults, commits, hafter, ?_⟩, ?_, ?_⟩
  · have hqueue := pollFaults_run hheld hinside
    simpa [World.pollFaults, hstart, hstopped, Consumer.hold] using hqueue
  · obtain ⟨activity', hq'⟩ := Consumer.tells_later hq
      (((s.after (.move (.act id a))).run inside).after (.move (.act id .abandon))).world.cluster hclock
    have hagain := hq'
    rw [← Consumer.part?_with_queues _ _ c pollFaults commits a] at hagain
    exact World.outcome_eq_of_tell hafter hc hagain hq
  · intro v hagrees hv
    obtain ⟨activity', hq'⟩ := Consumer.tells_later hq v.cluster (hagrees.2 ▸ hclock)
    have htelling' : activity'.isTelling = true := by
      cases Consumer.carries_of_part? hq' with
      | toldOfChange | toldOfAssignment | toldOfExpiry => rfl
      | @proceeded activity _ _ hnext => cases activity <;> cases hnext
    exact World.sameOperation_of_tell htelling' hagrees hafter hv hq'

def sampleLapsed : PooledWorld Unit Unit :=
  initial.run
    [.move (.cluster (.createTopic "t" 1)), .move (.create .manualHeartbeat),
      .move (.act 0 (.request (.configure .standard))),
      .move (.act 0 (.request (.subscribe (.setOf ["t"]) (some ())))),
      .move (.act 0 (.request .poll)), .move (.act 0 .proceed), .move (.advance 2000000001)]

def sampleOutcry : List (Deed Unit Unit) :=
  [.move (.cluster (.appendMany ⟨"t", 0⟩ 1)),
    .move (.act 0 (.addFault .poll ⟨.requestTimedOut, "slow"⟩ 1)),
    .move (.act 0 (.request .unsubscribe)), .move (.advance 2000000009)]

theorem panic_undoes_operation_sample :
    sampleLapsed.world.told 0 (.act 0 (.request .poll)) ≠ [] ∧
      (∀ d ∈ sampleOutcry, d.resumes 0 = false) ∧
      ∃ u v, u = ((sampleLapsed.after (.move (.act 0 (.request .poll)))).run sampleOutcry).after
          (.move (.act 0 .abandon)) ∧
        u.world.positions? 0 = sampleLapsed.world.positions? 0 ∧
        u.world.subscription? 0 = sampleLapsed.world.subscription? 0 ∧
        u.world.pollFaults 0 = [⟨.requestTimedOut, "slow"⟩] ∧
        u.world.outcome (.act 0 (.request .poll)) = .progress (.tell () .revoked) ∧
        v.consumer? 0 = sampleLapsed.world.consumer? 0 ∧
        World.SameOperation 0 (.act 0 (.request .poll)) u.world v := by
  have htold : sampleLapsed.world.told 0 (.act 0 (.request .poll)) ≠ [] := by decide
  have hinside : ∀ d ∈ sampleOutcry, d.resumes 0 = false := by
    simp [sampleOutcry, Deed.resumes, Move.resumes, Move.act?]
  obtain ⟨c, hc⟩ : ∃ c, sampleLapsed.world.consumer? 0 = some c := ⟨_, rfl⟩
  obtain ⟨-, ⟨pollFaults, commits, hafter, hfaults⟩, htells, hsame⟩ :=
    panic_undoes_operation hc htold hinside rfl rfl
  have hv := World.consumer?_setConsumer_self hafter c
  refine ⟨htold, hinside, _, _, rfl, ?_, ?_, ?_, htells, hv.trans hc.symm, hsame _ ⟨rfl, rfl⟩ hv⟩
  · simp [World.positions?, hafter, hc]
  · simp [World.subscription?, hafter, hc]
  · cases hc
    simp only [World.pollFaults, hafter, Option.map_some, Option.getD_some, hfaults]
    rfl

end PooledWorld

end LogConsumer
