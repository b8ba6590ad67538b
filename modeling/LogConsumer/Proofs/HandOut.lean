import LogConsumer.Proofs.Refusals

/-! Pools as queues. Consumers come back at the end and are handed out from the front, where one that
cannot be configured stays. Main statement: `pool_is_queue`. -/
namespace LogConsumer

variable {ℓ κ : Type}

inductive Consumer.Declines (options : Options) (c : Consumer ℓ κ) : Failure → Prop
  | held (h : c.guard.isHeld = true) : Declines options c .concurrentAccess
  | closed (hfree : c.guard.isHeld = false) (h : c.closed = true) : Declines options c .closed
  /-- The session timeout is to be read and is no count. -/
  | unreadable {s : String} {fault : Decimal.Fault} (hopen : c.enter = .ok ())
    (hmanual : c.behaviour.autoHeartbeat = false)
    (hset : options.properties.get? Options.sessionSetting = some s)
    (hread : Decimal.read64 (Text.trim s.toList) = .error fault) :
    Declines options c (.configuration Options.sessionSetting fault.message)

inductive Consumer.TakesTimeout (options : Options) (c : Consumer ℓ κ) : Option Duration → Prop
  | automatic (h : c.behaviour.autoHeartbeat = true) : TakesTimeout options c none
  | manual {timeout : Duration} (h : c.behaviour.autoHeartbeat = false)
    (hread : options.sessionTimeout = .ok timeout) : TakesTimeout options c (some timeout)

namespace Consumer

variable {c c' : Consumer ℓ κ} {options : Options} {e : Failure}

theorem configure_error_iff_declines : c.configure options = .error e ↔ c.Declines options e := by
  constructor
  · intro h
    cases henter : c.enter with
    | error e' =>
      cases h.symm.trans (configure_of_enter henter options)
      rcases enter_eq_error_iff.1 henter with ⟨hheld, rfl⟩ | ⟨hfree, hclosed, rfl⟩
      · exact .held hheld
      · exact .closed hfree hclosed
    | ok =>
      obtain ⟨hmanual, htimeout⟩ := (configure_eq_error_iff henter).1 h
      obtain ⟨s, fault, hset, hread, rfl⟩ := Options.sessionTimeout_eq_error_iff.1 htimeout
      exact .unreadable henter hmanual hset hread
  · intro h
    cases h with
    | held hheld => exact configure_of_enter (enter_eq_error_iff.2 (.inl ⟨hheld, rfl⟩)) options
    | closed hfree hclosed =>
      exact configure_of_enter (enter_eq_error_iff.2 (.inr ⟨hfree, hclosed, rfl⟩)) options
    | unreadable hopen hmanual hset hread =>
      have htimeout := Options.sessionTimeout_eq_error_iff.2 ⟨_, _, hset, hread, rfl⟩
      exact (configure_eq_error_iff hopen).2 ⟨hmanual, htimeout⟩

/-- Options that are taken on begin a session that nothing has touched, and change nothing else. -/
theorem takesTimeout_of_configure (h : c.configure options = .ok c') :
    ∃ timeout, c.TakesTimeout options timeout ∧
      c' = { c with options, session := .configure timeout } := by
  obtain ⟨-, -, h⟩ := Failure.bind_eq_ok_iff.1 h
  cases hauto : c.behaviour.autoHeartbeat with
  | true =>
    rw [hauto] at h
    exact ⟨none, .automatic hauto, (Except.ok.inj h).symm⟩
  | false =>
    rw [hauto] at h
    obtain ⟨timeout, htimeout, h⟩ := Failure.bind_eq_ok_iff.1 h
    refine ⟨timeout, ?_, (Except.ok.inj h).symm⟩
    cases hread : options.sessionTimeout with
    | ok d =>
      rw [hread] at htimeout
      cases htimeout
      exact .manual hauto hread
    | error e =>
      rw [hread] at htimeout
      cases htimeout

end Consumer

def Deed.added (pool : Nat) : Deed ℓ κ → List ConsumerId
  | .addToPool pool' id => if pool' = pool then [id] else []
  | _ => []

namespace PooledWorld

variable {s t : PooledWorld ℓ κ} {pool : Nat} {p : Pool} {options : Options} {id : ConsumerId}
  {e : Failure}

def created (pool : Nat) (s : PooledWorld ℓ κ) : Deed ℓ κ → List ConsumerId
  | .handOut pool' options =>
    if pool' = pool then
      match s.handOut pool' options with
      | .ok (id, _) => [id]
      | .error _ => []
    else []
  | _ => []

theorem handOut_of_nil (hp : s.pools[pool]? = some p) (hfree : p.free = []) (options : Options) :
    s.handOut pool options = .error .poolExhausted := by
  simp only [handOut, hp, Pool.handOut, hfree]
  rfl

theorem handOut_of_no_consumer {rest : List ConsumerId} (hp : s.pools[pool]? = some p)
    (hfree : p.free = id :: rest) (hc : s.world.consumer? id = none) (options : Options) :
    s.handOut pool options = .error .closed := by
  simp only [handOut, hp, Pool.handOut, hfree, hc]
  rfl

theorem handOut_ok_cases (hp : s.pools[pool]? = some p) (h : s.handOut pool options = .ok (id, t)) :
    ∃ rest c timeout, p.free = id :: rest ∧ s.world.consumer? id = some c ∧
      c.TakesTimeout options timeout ∧
      t = ⟨s.world.setConsumer id { c with options, session := .configure timeout },
        s.pools.set pool ⟨rest, p.inUse ++ [id]⟩⟩ := by
  cases hfree : p.free with
  | nil => cases (handOut_of_nil hp hfree options).symm.trans h
  | cons id' rest =>
    cases hc : s.world.consumer? id' with
    | none => cases (handOut_of_no_consumer hp hfree hc options).symm.trans h
    | some c =>
      rw [handOut_of_head hp hfree hc] at h
      cases hconfigure : c.configure options with
      | error e =>
        rw [hconfigure] at h
        cases h
      | ok c' =>
        rw [hconfigure] at h
        cases h
        obtain ⟨timeout, htimeout, rfl⟩ := Consumer.takesTimeout_of_configure hconfigure
        exact ⟨rest, c, timeout, rfl, hc, htimeout, rfl⟩

/-- Which failure is met is decided by the consumer at the head of the queue. -/
theorem handOut_error_iff {rest : List ConsumerId} {c : Consumer ℓ κ} (hp : s.pools[pool]? = some p)
    (hfree : p.free = id :: rest) (hc : s.world.consumer? id = some c) :
    s.handOut pool options = .error e ↔ c.Declines options e := by
  rw [handOut_of_head hp hfree hc, ← Consumer.configure_error_iff_declines]
  cases c.configure options <;> simp [Except.map]

theorem poolExhausted_iff (hp : s.pools[pool]? = some p) (h : s.handOut pool options = .error e) :
    e = .poolExhausted ↔ p.free = [] := by
  cases hfree : p.free with
  | nil =>
    rw [handOut_of_nil hp hfree] at h
    cases h
    exact iff_of_true rfl rfl
  | cons id rest =>
    refine iff_of_false ?_ nofun
    rintro rfl
    cases hc : s.world.consumer? id with
    | none => cases (handOut_of_no_consumer hp hfree hc options).symm.trans h
    | some c => cases (handOut_error_iff hp hfree hc).1 h

theorem after_addToPool (hp : s.pools[pool]? = some p) (id : ConsumerId) :
    s.after (.addToPool pool id) = { s with pools := s.pools.set pool (p.add id) } := by
  have : Inhabited Pool := ⟨p⟩
  simp [after, List.modify_eq_set, hp]

theorem after_of_handOut_ok (h : s.handOut pool options = .ok (id, t)) :
    s.after (.handOut pool options) = t := by
  simp only [after, h]

theorem after_of_handOut_error (h : s.handOut pool options = .error e) :
    s.after (.handOut pool options) = s := by
  simp only [after, h]

theorem pool_after (hp : s.pools[pool]? = some p) (d : Deed ℓ κ) :
    ∃ p', (s.after d).pools[pool]? = some p' ∧ p'.inUse = p.inUse ++ s.created pool d ∧
      p.free ++ d.added pool = s.created pool d ++ p'.free := by
  -- Deeds that concern other pools, and those that fail.
  have hsame {s' : PooledWorld ℓ κ} (h : s'.pools[pool]? = some p) :
      ∃ p', s'.pools[pool]? = some p' ∧ p'.inUse = p.inUse ++ [] ∧ p.free ++ [] = [] ++ p'.free :=
    ⟨p, h, (List.append_nil _).symm, List.append_nil _⟩
  obtain ⟨hlt, rfl⟩ := List.getElem?_eq_some_iff.1 hp
  cases d with
  | move m => exact hsame hp
  | makePool free => exact hsame (by simp [after, List.getElem?_append_left hlt, hp])
  | addToPool pool' id =>
    by_cases hpool : pool' = pool
    · subst hpool
      refine ⟨s.pools[pool'].add id, by simp [after, hp], (List.append_nil _).symm, ?_⟩
      simp [Deed.added, created, Pool.add]
    · simp only [Deed.added, if_neg hpool, created]
      exact hsame (by simp [after, hpool, hp])
  | handOut pool' options =>
    simp only [Deed.added]
    cases hout : s.handOut pool' options with
    | error e =>
      have hnone : s.created pool (.handOut pool' options) = [] := by simp [created, hout]
      rw [hnone, after_of_handOut_error hout]
      exact hsame hp
    | ok result =>
      obtain ⟨id, t⟩ := result
      rw [after_of_handOut_ok hout]
      by_cases hpool : pool' = pool
      · subst hpool
        obtain ⟨rest, c, timeout, hfree, -, -, rfl⟩ := handOut_ok_cases hp hout
        refine ⟨_, List.getElem?_set_self hlt, by simp [created, hout], ?_⟩
        simp [created, hout, hfree]
      · obtain ⟨p', _, hp', -⟩ := asked?_handOut.1 (handOut_eq_ok hout).1
        obtain ⟨rest, c, timeout, -, -, -, rfl⟩ := handOut_ok_cases hp' hout
        have hnone : s.created pool (.handOut pool' options) = [] := if_neg hpool
        rw [hnone]
        exact hsame ((List.getElem?_set_ne hpool).trans hp)

/-- The queue of a run: what was in it and what was added is what was handed out and what is in it. -/
theorem pool_run (hp : s.pools[pool]? = some p) (ds : List (Deed ℓ κ)) :
    ∃ p', (s.run ds).pools[pool]? = some p' ∧ p'.inUse = p.inUse ++ gather (created pool) s ds ∧
      p.free ++ ds.flatMap (Deed.added pool) = gather (created pool) s ds ++ p'.free := by
  induction ds generalizing s p with
  | nil => exact ⟨p, hp, (List.append_nil _).symm, List.append_nil _⟩
  | cons d ds ih =>
    obtain ⟨p₁, hp₁, huse, hfree⟩ := pool_after hp d
    obtain ⟨p₂, hp₂, huse', hfree'⟩ := ih hp₁
    refine ⟨p₂, hp₂, ?_, ?_⟩
    · rw [huse', huse, gather_cons, List.append_assoc]
    · rw [List.flatMap_cons, ← List.append_assoc, hfree, List.append_assoc, hfree', gather_cons,
        List.append_assoc]

theorem consumer?_after_handOut {c : Consumer ℓ κ} (hc : s.world.consumer? id = some c) (pool : Nat)
    (options : Options) :
    ∃ options' session', (s.after (.handOut pool options)).world.consumer? id =
      some { c with options := options', session := session' } := by
  cases hout : s.handOut pool options with
  | error e =>
    rw [after_of_handOut_error hout]
    exact ⟨c.options, c.session, hc⟩
  | ok result =>
    obtain ⟨id', t⟩ := result
    obtain ⟨p, _, hp, -⟩ := asked?_handOut.1 (handOut_eq_ok hout).1
    obtain ⟨rest, c', timeout, -, hc', -, rfl⟩ := handOut_ok_cases hp hout
    rw [after_of_handOut_ok hout]
    by_cases hid : id' = id
    · subst hid
      cases hc.symm.trans hc'
      exact ⟨_, _, World.consumer?_setConsumer_self hc _⟩
    · exact ⟨c.options, c.session, (World.consumer?_setConsumer_of_ne _ hid _).trans hc⟩

/-- A pool is a queue. It hands out the consumer that was added first, if that one takes on the
options, and nothing else changes. -/
theorem pool_is_queue (s : PooledWorld ℓ κ) (free : List ConsumerId) (ds : List (Deed ℓ κ))
    {pool : Nat} (hpool : pool = s.pools.length) {t : PooledWorld ℓ κ}
    (ht : t = (s.after (.makePool free)).run ds) :
    ∃ p, t.pools[pool]? = some p ∧
      p.inUse = gather (created pool) (s.after (.makePool free)) ds ∧
      free ++ ds.flatMap (Deed.added pool) = p.inUse ++ p.free ∧
      p.free.length + p.inUse.length = free.length + (ds.flatMap (Deed.added pool)).length ∧
      (∀ id, t.after (.addToPool pool id) =
        { t with pools := t.pools.set pool { p with free := p.free ++ [id] } }) ∧
      (∀ options id t', t.handOut pool options = .ok (id, t') →
        t.after (.handOut pool options) = t' ∧
          ∃ rest c timeout, p.free = id :: rest ∧ t.world.consumer? id = some c ∧
            c.TakesTimeout options timeout ∧
            t' = ⟨t.world.setConsumer id { c with options, session := .configure timeout },
              t.pools.set pool ⟨rest, p.inUse ++ [id]⟩⟩) ∧
      (∀ options e, t.handOut pool options = .error e →
        t.after (.handOut pool options) = t ∧ (e = .poolExhausted ↔ p.free = [])) ∧
      (∀ options id rest c, p.free = id :: rest → t.world.consumer? id = some c →
        ∀ e, t.handOut pool options = .error e ↔ c.Declines options e) ∧
      ∀ options id c, t.world.consumer? id = some c →
        ∃ options' session', (t.after (.handOut pool options)).world.consumer? id =
          some { c with options := options', session := session' } := by
  subst hpool ht
  have hmade : (s.after (.makePool free)).pools[s.pools.length]? = some (.ofFree free) := by
    simp [after]
  obtain ⟨p, hp, huse, hfree⟩ := pool_run hmade ds
  have hinUse : p.inUse = gather (created s.pools.length) (s.after (.makePool free)) ds := huse
  rw [← hinUse] at hfree
  have hlength := congrArg List.length hfree
  rw [List.length_append, List.length_append] at hlength
  refine ⟨p, hp, hinUse, hfree, ?_, fun id => ?_, fun options id t' hout => ?_, fun options e hout => ?_,
    fun options id rest c hhead hc e => handOut_error_iff hp hhead hc,
    fun options id c hc => consumer?_after_handOut hc _ options⟩
  · exact (Nat.add_comm ..).trans hlength.symm
  · exact after_addToPool hp id
  · exact ⟨after_of_handOut_ok hout, handOut_ok_cases hp hout⟩
  · exact ⟨after_of_handOut_error hout, poolExhausted_iff hp hout⟩

def sampleConsumers : PooledWorld Unit Unit :=
  initial.run [.move (.create .standard), .move (.create .manualHeartbeat)]

def sampleReturned : List (Deed Unit Unit) := [.handOut 0 .standard, .addToPool 0 0]

def sampleUnreadable : Options :=
  { Options.standard with properties := .ofList [(Options.sessionSetting, "soon")] }

theorem pool_is_queue_sample :
    ∃ t p, t = (sampleConsumers.after (.makePool [0, 1])).run sampleReturned ∧
      t.pools[0]? = some p ∧ p.inUse = [0] ∧ p.free = [1, 0] ∧
      t.handOut 0 sampleUnreadable =
        .error (.configuration Options.sessionSetting Decimal.Fault.invalidDigit.message) ∧
      t.after (.handOut 0 sampleUnreadable) = t := by
  obtain ⟨p, hp, huse, hfree, -, -, -, hfails, hdeclines, -⟩ :=
    pool_is_queue sampleConsumers [0, 1] sampleReturned (rfl : 0 = _) rfl
  have hcreated : gather (created 0) (sampleConsumers.after (.makePool [0, 1])) sampleReturned =
      [0] := by decide
  rw [hcreated] at huse
  rw [huse] at hfree
  have hqueue : p.free = [1, 0] := (List.cons.inj hfree).2.symm
  obtain ⟨c, hc⟩ : ∃ c, ((sampleConsumers.after (.makePool [0, 1])).run sampleReturned).world.consumer?
      1 = some c := ⟨_, rfl⟩
  have hdeclined : c.Declines sampleUnreadable
      (.configuration Options.sessionSetting Decimal.Fault.invalidDigit.message) := by
    cases hc
    exact .unreadable (s := "soon") (by decide) rfl (by decide) (by decide)
  have hout := (hdeclines sampleUnreadable 1 [0] c hqueue hc _).2 hdeclined
  exact ⟨_, p, rfl, hp, huse, hqueue, hout, (hfails _ _ hout).1⟩

end PooledWorld

end LogConsumer
