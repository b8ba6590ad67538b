import LogConsumer.Proofs.Scripts
import Mathlib.Algebra.GroupWithZero.Nat
import Mathlib.Algebra.Order.BigOperators.Group.List
import Mathlib.Algebra.Order.Ring.Nat

/-! Callbacks that take no time. While a consumer is being closed, whatever is asked of it is
refused at once, and so a script that asks others only for what is answered at once is over in no
time. How many commits may still run is bounded by what the callbacks of those that wait may cost.
Main statement: `keeps_ofSteps`. -/
namespace LogConsumer

section Load

variable {ℓ κ : Type} {w : World ℓ κ} {id : ConsumerId}

/-- How many commits may come of one that is due then: itself, and what its callback costs. -/
def Commit.load (cost : Time → κ → Nat) (due : Time) (commit : Commit κ) : Nat :=
  1 + commit.callback.elim 0 (cost due)

theorem Commit.load_pos (cost : Time → κ → Nat) (due : Time) (commit : Commit κ) :
    0 < commit.load cost due :=
  Nat.lt_of_lt_of_le Nat.zero_lt_one (Nat.le_add_right ..)

def Wanes (cost : Time → κ → Nat) : Prop :=
  ∀ due due' callback, due ≤ due' → cost due' callback ≤ cost due callback

theorem Commit.load_le {cost : Time → κ → Nat} (hcost : Wanes cost) {due due' : Time}
    (hle : due ≤ due') (commit : Commit κ) : commit.load cost due' ≤ commit.load cost due := by
  refine Nat.add_le_add_left ?_ 1
  cases commit.callback with
  | none => exact Nat.le_refl _
  | some callback => exact hcost due due' callback hle

namespace Commits

/-- The delay of commits that are not seen yet begins now at the soonest. -/
def load (cost : Time → κ → Nat) (now : Time) (q : Commits κ) : Nat :=
  ((q.finish now).timetable.map fun (commit, due) => commit.load cost due).sum

variable {cost : Time → κ → Nat} {now : Time} {q : Commits κ}

theorem load_eq (cost : Time → κ → Nat) (now : Time) (q : Commits κ) :
    q.load cost now = (q.timetable.map fun (commit, due) => commit.load cost due).sum +
      (q.unseen.map (·.load cost (now + q.delay.nanos))).sum := by
  simp [load, finish, Function.comp_def]

theorem load_add (cost : Time → κ → Nat) (now : Time) (commit : Commit κ) (q : Commits κ) :
    (q.add now commit).load cost now =
      q.load cost now + commit.load cost (now + q.delay.nanos) := by
  cases hrunning : q.running with
  | none => simp [load_eq, add, unseen, hrunning]
  | some running => simp [load_eq, add, unseen, hrunning, Nat.add_assoc]

theorem load_finish (cost : Time → κ → Nat) (now : Time) (q : Commits κ) :
    (q.finish now).load cost now = q.load cost now := by
  simp [load, finish, unseen]

theorem load_start? {cluster : Cluster} {e : Execution κ} {due : Time}
    (hs : q.start? cluster = some e) (hdue : q.nextDue? = some due) :
    q.load cost now = e.commit.load cost due + e.commits.load cost now := by
  obtain ⟨hrunning, ⟨due', htimetable⟩, heq, -⟩ := start?_eq_some hs
  obtain rfl : due' = due := by simpa [nextDue?, hrunning, htimetable] using hdue
  rw [load_eq, load_eq, heq, htimetable]
  simp [unseen, hrunning]

theorem load_le {now' : Time} (hcost : Wanes cost) (hle : now ≤ now') (q : Commits κ) :
    q.load cost now' ≤ q.load cost now := by
  rw [load_eq, load_eq]
  refine Nat.add_le_add_left (List.sum_le_sum fun commit _ => ?_) _
  exact commit.load_le hcost (Nat.add_le_add_right hle _)

end Commits

theorem sum_map_set {α : Type} {l : List α} {i : Nat} {a : α} (h : l[i]? = some a) (b : α)
    (f : α → Nat) : ((l.set i b).map f).sum + f a = (l.map f).sum + f b := by
  induction l generalizing i with
  | nil => cases h
  | cons x l ih =>
    cases i with
    | zero =>
      obtain rfl : x = a := by simpa using h
      simp only [List.set_cons_zero, List.map_cons, List.sum_cons]
      omega
    | succ i =>
      have hrest := ih (by simpa using h)
      simp only [List.set_cons_succ, List.map_cons, List.sum_cons]
      omega

namespace World

def load (cost : Time → κ → Nat) (w : World ℓ κ) : Nat :=
  (w.consumers.map (·.commits.load cost w.clock)).sum

theorem load_setConsumer {c : Consumer ℓ κ} (hc : w.consumer? id = some c) (c' : Consumer ℓ κ)
    (cost : Time → κ → Nat) :
    (w.setConsumer id c').load cost + c.commits.load cost w.clock =
      w.load cost + c'.commits.load cost w.clock :=
  sum_map_set hc c' _

theorem load_advance {cost : Time → κ → Nat} (hcost : Wanes cost) (w : World ℓ κ) (time : Time) :
    (w.advance time).load cost ≤ w.load cost :=
  List.sum_le_sum fun c _ => c.commits.load_le hcost (Nat.le_max_left ..)

/-- What can run does when it is started, and is not among what may still run then. -/
theorem startCommit_of_due {due : Time} (h : w.due? id = some due) (cost : Time → κ → Nat) :
    ∃ commit result, (w.startCommit id).1 = some (commit, result) ∧ commit ∈ w.waiting id ∧
      (w.startCommit id).2.load cost + commit.load cost due = w.load cost := by
  obtain ⟨c, hc, hnext⟩ := Option.bind_eq_some_iff.1 h
  cases hs : c.commits.start? w.cluster with
  | none =>
    obtain ⟨hidle, commit, rest, htimetable⟩ := due?_eq_some_iff.1 h
    rcases Commits.start?_eq_none_iff.1 hs with hexecuting | hwaiting
    · simp [executing, hc] at hidle
      simp [hidle] at hexecuting
    · have hempty : w.waiting id = [] := by simp [waiting, hc, hwaiting]
      simp [waiting_eq, htimetable] at hempty
  | some e =>
    obtain ⟨-, hwaiting, -⟩ := Commits.waiting_of_start? hs
    refine ⟨e.commit, e.result, by simp [World.startCommit, hc, hs], by simp [waiting, hc, hwaiting],
      ?_⟩
    have hload : c.commits.load cost w.clock =
        e.commit.load cost due + e.commits.load cost w.clock := Commits.load_start? hs hnext
    have hset := load_setConsumer hc { c with commits := e.commits } cost
    simp only [World.startCommit, hc, hs, load, setConsumer] at hset ⊢
    omega

theorem load_finishCommit (w : World ℓ κ) (id : ConsumerId) (cost : Time → κ → Nat) :
    (w.finishCommit id).load cost = w.load cost := by
  cases hc : w.consumer? id with
  | none =>
    have hlen : w.consumers.length ≤ id := List.getElem?_eq_none_iff.1 hc
    simp [finishCommit, modifyConsumer, List.modify_eq_self hlen]
  | some c =>
    have hset := load_setConsumer hc { c with commits := c.commits.finish w.clock } cost
    rw [finishCommit, modifyConsumer_eq hc]
    rw [Commits.load_finish] at hset
    exact Nat.add_right_cancel hset

theorem load_request (w : World ℓ κ) (id : ConsumerId) (r : Request ℓ κ) (cost : Time → κ → Nat) :
    ∃ due, (w.request id r).2.load cost =
      w.load cost + ((w.accepted id (.act id (.request r))).map (·.load cost due)).sum := by
  cases hc : w.consumer? id with
  | none => exact ⟨0, by simp [World.request, takeTurn, hc, accepted, acted?]⟩
  | some c =>
    obtain ⟨q, hq⟩ : ∃ q, c.part? w.cluster w.clock (.request r) = some q := ⟨_, rfl⟩
    have haccepted : w.accepted id (.act id (.request r)) =
        c.accepted w.cluster w.clock (.request r) := by simp [accepted, acted?_act hc]
    have hafter : (w.request id r).2.load cost =
        (w.setConsumer id (c.act w.cluster w.clock (.request r))).load cost := by
      rw [Consumer.act_of_part? hq]
      exact congrArg (fun w => (w.consumers.map (·.commits.load cost w.clock)).sum)
        (after_of_part? hc hq)
    have hset := load_setConsumer hc (c.act w.cluster w.clock (.request r)) cost
    refine ⟨w.clock + c.commits.delay.nanos, ?_⟩
    rw [haccepted, hafter]
    rcases c.commits_request w.cluster w.clock r with ⟨hnone, heq | heq⟩ | ⟨commit, hone, heq⟩
    · rw [heq] at hset
      simpa [hnone] using hset
    · have hstop : c.commits.stop.load cost w.clock = c.commits.load cost w.clock := rfl
      rw [heq, hstop] at hset
      simpa [hnone] using hset
    · rw [heq, Commits.load_add] at hset
      rw [hone, List.map_singleton, List.sum_singleton]
      omega

/-- All callbacks of commits that wait are such as `P` tells. -/
def CallsOnly (P : κ → Prop) (w : World ℓ κ) : Prop :=
  ∀ id, ∀ commit ∈ w.waiting id, ∀ callback ∈ commit.callback, P callback

theorem CallsOnly.after {P : κ → Prop} (h : w.CallsOnly P) {m : Move ℓ κ}
    (hm : ∀ id, ∀ commit ∈ w.accepted id m, ∀ callback ∈ commit.callback, P callback) :
    (w.after m).CallsOnly P := by
  intro id commit hcommit
  have hledger := (ledger_after id w m).1
  have hmem : commit ∈ w.waiting id ++ w.accepted id m := hledger ▸ List.mem_append_right _ hcommit
  rcases List.mem_append.1 hmem with hmem | hmem
  · exact h id commit hmem
  · exact hm id commit hmem

theorem accepted_eq_nil {m : Move ℓ κ}
    (hm : ∀ id r, m = .act id (.request r) → r.isCommit = false) (id : ConsumerId) :
    w.accepted id m = [] := by
  rcases acceptsOne_or id w m with ⟨_, r, _, -, rfl, -, -, hcaptures⟩ | ⟨hnone, -⟩
  · have hnot := hm id r rfl
    cases r with
    | commit | commitOffsets => cases hnot
    | _ => exact hcaptures.elim
  · exact hnone

end World

end Load

open Stage Play

/-- The terms on which callbacks run while a consumer is being closed. -/
structure Terms where
  /-- The callbacks that may run. -/
  admits : Callback → Prop
  /-- What is known whenever one of them runs. -/
  known : Stage → Prop
  /-- How many commits may come of the script of a callback whose commit is due at that time. -/
  cost : Time → Callback → Nat
  wanes : Wanes cost

namespace Stage

variable {terms : Terms} {id : ConsumerId} {s s' s'' : Stage} {n n' : Nat}

structure IsClosing (terms : Terms) (id : ConsumerId) (s : Stage) : Prop where
  sound : s.Sound
  stands : s.Stands id .closing
  calls : s.world.CallsOnly terms.admits
  known : terms.known s

structure Spends (terms : Terms) (n : Nat) (s s' : Stage) : Prop where
  clock : s'.world.clock = s.world.clock
  load_le : s'.world.load terms.cost ≤ s.world.load terms.cost + n
  calls : s'.world.CallsOnly terms.admits
  known : terms.known s'

theorem Spends.trans (h : Spends terms n s s') (h' : Spends terms n' s' s'') :
    Spends terms (n + n') s s'' where
  clock := h'.clock.trans h.clock
  load_le := by
    have hfirst := h.load_le
    have hsecond := h'.load_le
    omega
  calls := h'.calls
  known := h'.known

theorem Spends.mono (h : Spends terms n s s') (hle : n ≤ n') : Spends terms n' s s' :=
  ⟨h.clock, Nat.le_trans h.load_le (Nat.add_le_add_left hle _), h.calls, h.known⟩

theorem IsClosing.spends (h : s.IsClosing terms id) (n : Nat) : Spends terms n s s :=
  ⟨rfl, Nat.le_add_right .., h.calls, h.known⟩

end Stage

def Move.isWait {ℓ κ : Type} : Move ℓ κ → Bool
  | .advance _ | .act _ .startCommit | .act _ .finishCommit => true
  | _ => false

/-- What is known stays so while time passes and commits run. The scripts of the callbacks that the
terms admit take no time when they run by the deadline, keep to the terms, and come to an end. -/
structure Play.Keeps (run : Runner) (terms : Terms) (id : ConsumerId) (deadline : Time) : Prop where
  waited : ∀ {s : Stage} {m}, terms.known s → m.isWait = true →
    terms.known { s with world := s.world.after m }
  reported : ∀ {s : Stage} {events}, terms.known s → terms.known { s with events }
  ends : ∀ {callback due s}, terms.admits callback → s.IsClosing terms id → due ≤ s.world.clock →
    s.world.clock ≤ deadline → ((run callback.script).run s).1.stop ≠ some .exhausted
  spends : ∀ {callback due s}, terms.admits callback → s.IsClosing terms id → due ≤ s.world.clock →
    s.world.clock ≤ deadline →
      Spends terms (terms.cost due callback) s ((run callback.script).run s).2

/-- Whether a request is answered at once, and asks for no commit that calls somebody. -/
def Request.isBrief {ℓ κ : Type} : Request ℓ κ → Bool
  | .subscribe .. | .subscribePattern .. | .assign _ | .unsubscribe | .poll | .close _ => false
  | .commit callback | .commitOffsets _ callback => callback.isNone
  | _ => true

/-- Whether a step is over at once while the consumer of that name is being closed. -/
def Step.isBrief (name : String) : Step → Bool
  | .request c r _ => c == name || r.isBrief
  | .inspect _ => true
  | _ => false

def Terms.ofSteps (name : String) (id : ConsumerId) : Terms where
  admits callback := ∀ step ∈ callback.script, step.isBrief name = true
  known s := s.names.get? name = some id
  cost _ callback := callback.script.length
  wanes _ _ _ _ := Nat.le_refl _

section OfSteps

variable {name : String} {id : ConsumerId} {s : Stage} {run : Runner} {limit : Nat}

theorem Consumer.serve_of_isBrief {ℓ κ : Type} {cluster : Cluster} {now : Time} {c : Consumer ℓ κ}
    {r : Request ℓ κ} (hr : r.isBrief = true) :
    ∃ result, (c.serve cluster now r).progress = .answered result := by
  cases r with
  | configure | seek =>
    simp only [serve, begin]
    split <;> exact ⟨_, rfl⟩
  | commit | commitOffsets =>
    simp only [serve, begin, schedule]
    split <;> exact ⟨_, rfl⟩
  | close => cases hr
  | _ => exact ⟨_, rfl⟩

theorem World.request_of_isBrief {ℓ κ : Type} (w : World ℓ κ) (id : ConsumerId) {r : Request ℓ κ}
    (hr : r.isBrief = true) : ∃ result, (w.request id r).1 = .answered result := by
  cases hc : w.consumer? id with
  | none =>
    simp only [World.request, takeTurn, hc]
    exact ⟨_, rfl⟩
  | some c =>
    obtain ⟨q, hq⟩ : ∃ q, c.part? w.cluster w.clock (.request r) = some q := ⟨_, rfl⟩
    have hprogress : (w.request id r).1 = (c.perform w.cluster w.clock q).progress := by
      simp only [World.request, takeTurn, hc, Consumer.request_eq]
      exact congrArg (fun q => (c.perform w.cluster w.clock q).progress) (Option.some.inj hq)
    rw [hprogress]
    cases Consumer.carries_of_part? hq with
    | refused | closedAgain => exact ⟨_, rfl⟩
    | served => exact Consumer.serve_of_isBrief hr
    | changed _ hchange | toldOfChange _ hchange =>
      cases r with
      | subscribe | subscribePattern | assign | unsubscribe => cases hr
      | _ => cases hchange
    | _ => cases hr

theorem World.accepted_of_isBrief {ℓ κ : Type} (w : World ℓ κ) (id id' : ConsumerId)
    {r : Request ℓ κ} (hr : r.isBrief = true) :
    w.accepted id' (.act id (.request r)) = [] ∨
      ∃ commit, w.accepted id' (.act id (.request r)) = [commit] ∧ commit.callback = none := by
  rcases acceptsOne_or id' w (.act id (.request r)) with ⟨_, _, commit, -, hm, -, hone, hcaptures⟩ | h
  · right
    cases hm
    refine ⟨commit, hone, ?_⟩
    cases r with
    | commit callback | commitOffsets _ callback =>
      rw [hcaptures.2.1]
      exact Option.isNone_iff_eq_none.1 hr
    | _ => exact hcaptures.elim
  · exact .inl h.1

theorem spends_request (hs : s.IsClosing (.ofSteps name id) id) (id' : ConsumerId)
    {r : Request Listener Callback} (hr : r.isBrief = true) :
    Spends (.ofSteps name id) 1 s { s with world := (s.world.request id' r).2 } where
  clock := World.clock_act s.world id' (.request r)
  load_le := by
    obtain ⟨due, hload⟩ := s.world.load_request id' r (Terms.ofSteps name id).cost
    rcases s.world.accepted_of_isBrief id' id' hr with hnone | ⟨commit, hone, hcallback⟩
    · rw [hnone, List.map_nil, List.sum_nil] at hload
      dsimp only
      omega
    · have hcost : commit.load (Terms.ofSteps name id).cost due = 1 := by
        simp [Commit.load, hcallback]
      rw [hone, List.map_singleton, List.sum_singleton, hcost] at hload
      exact Nat.le_of_eq hload
  calls := by
    refine World.CallsOnly.after hs.calls (m := .act id' (.request r)) fun id'' commit' hmem => ?_
    rcases s.world.accepted_of_isBrief id' id'' hr with hnone | ⟨commit, hone, hcallback⟩
    · rw [hnone] at hmem
      cases hmem
    · rw [hone, List.mem_singleton] at hmem
      simp [hmem, hcallback]
  known := hs.known

theorem spends_step (limit : Nat) (run : Runner) (hs : s.IsClosing (.ofSteps name id) id)
    {step : Step} (hstep : step.isBrief name = true) :
    (∀ e, ((perform limit run step).on s).1 = .error e → e ≠ .exhausted) ∧
      Spends (.ofSteps name id) 1 s ((perform limit run step).on s).2 := by
  have hsame := hs.spends 1
  cases step with
  | request c r wait =>
    cases hname : s.names.get? c with
    | none =>
      rw [on_request_of_unknown hname]
      exact ⟨by simp, hsame⟩
    | some id' =>
      obtain ⟨result, hresult, hspends⟩ : ∃ result, (s.world.request id' r).1 = .answered result ∧
          Spends (.ofSteps name id) 1 s { s with world := (s.world.request id' r).2 } := by
        rcases Bool.or_eq_true_iff.1 hstep with hself | hbrief
        · have hid : id' = id := by
            have hknown : s.names.get? name = some id := hs.known
            rw [← beq_iff_eq.1 hself, hname] at hknown
            exact Option.some.inj hknown
          subst hid
          rw [World.request_of_holder? hs.stands.held r]
          exact ⟨_, rfl, hsame⟩
        · obtain ⟨result, hresult⟩ := s.world.request_of_isBrief id' hbrief
          exact ⟨result, hresult, spends_request hs id' hbrief⟩
      rw [on_request_answered hname hresult]
      refine ⟨fun e he => ?_, hspends⟩
      cases result with
      | ok reply => cases he
      | error failure =>
        cases he
        simp
  | inspect c =>
    have hon : ((perform limit run (.inspect c)).on s).2 = s ∧
        ((perform limit run (.inspect c)).on s).1 ≠ .error .exhausted := by
      simp only [perform, consumerOf, on_bind, on_get]
      cases s.consumer? c <;> simp
    rw [hon.1]
    refine ⟨fun e he => ?_, hsame⟩
    rintro rfl
    exact hon.2 he
  | _ => cases hstep

theorem spends_script (hrun : IsSteady run) (hs : s.IsClosing (.ofSteps name id) id)
    {steps : List Step} (hsteps : ∀ step ∈ steps, step.isBrief name = true) :
    ((runScript (perform limit run) steps).run s).1.stop ≠ some .exhausted ∧
      Spends (.ofSteps name id) steps.length s ((runScript (perform limit run) steps).run s).2 := by
  induction steps generalizing s with
  | nil => exact ⟨by simp [runScript], hs.spends 0⟩
  | cons step rest ih =>
    obtain ⟨hstep, hrest⟩ := List.forall_mem_cons.1 hsteps
    obtain ⟨hends, hspends⟩ := spends_step limit run hs hstep
    have hleads := steady_perform hrun limit step s hs.sound
    have hs' : ((perform limit run step).on s).2.IsClosing (.ofSteps name id) id :=
      ⟨hleads.sound, hleads.stands (by simp) hs.stands, hspends.calls, hspends.known⟩
    obtain ⟨hends', hspends'⟩ := ih hs' hrest
    rcases runScript_cons (perform limit run) step rest s rfl rfl with
      ⟨stop, hstop, -, heq⟩ | ⟨-, heq⟩
    · rw [heq]
      refine ⟨fun h => hends stop hstop (Option.some.inj h), hspends.mono ?_⟩
      rw [List.length_cons]
      exact Nat.le_add_left ..
    · rw [heq, List.length_cons, Nat.add_comm]
      exact ⟨hends', hspends.trans hspends'⟩

/-- Callbacks whose steps are brief keep to their terms. -/
theorem keeps_ofSteps (limit : Nat) (name : String) (id : ConsumerId) (deadline : Time) :
    Keeps (runWithin (limit + 1)) (.ofSteps name id) id deadline := by
  have hrun := isSteady_runWithin limit
  exact ⟨fun hknown _ => hknown, fun hknown => hknown,
    fun hsteps hs _ _ => (spends_script hrun hs hsteps).1,
    fun hsteps hs _ _ => (spends_script hrun hs hsteps).2⟩

end OfSteps

end LogConsumer
