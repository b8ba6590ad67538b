import LogConsumer.Pool
import LogConsumer.Proofs.Turn

/-! Worlds with pools. To hand a consumer out is to ask it to be configured, so that a run with
pools is, for the consumers, a run without. Main statement: `world_run`. -/
namespace LogConsumer

variable {ℓ κ : Type}

theorem Consumer.request_configure {c c' : Consumer ℓ κ} {options : Options}
    (h : c.configure options = .ok c') (cluster : Cluster) (now : Time) :
    c.request cluster now (.configure options) = ⟨c', .answered (.ok .done), []⟩ := by
  obtain ⟨⟨⟩, henter, -⟩ := Failure.bind_eq_ok_iff.1 h
  have hopen := (enter_eq_ok_iff.1 henter).1
  obtain ⟨timeout, rfl⟩ := configure_eq_ok h
  simp [request, henter, begin, h, answer, Guard.free, ← hopen]

theorem Pool.handOut_eq_ok {p p' : Pool} {options : Options} {w w' : World ℓ κ} {id : ConsumerId}
    (h : p.handOut options w = .ok (id, p', w')) :
    p.free = id :: p'.free ∧ p'.inUse = p.inUse ++ [id] ∧
      w' = w.after (.act id (.request (.configure options))) := by
  unfold handOut at h
  split at h
  next => cases h
  next id' rest hfree =>
    split at h
    next c hc =>
      obtain ⟨c', hconfigure, h⟩ := Failure.bind_eq_ok_iff.1 h
      cases h
      refine ⟨hfree, rfl, ?_⟩
      simp only [World.after, World.step, World.act, World.request, World.takeTurn, hc,
        Consumer.request_configure hconfigure]
      rfl
    next => cases h

/-- Pools go by the order in which they were made. -/
structure PooledWorld (ℓ κ : Type) where
  world : World ℓ κ
  pools : List Pool

inductive Deed (ℓ κ : Type)
  | move (m : Move ℓ κ)
  | makePool (free : List ConsumerId)
  | addToPool (pool : Nat) (id : ConsumerId)
  | handOut (pool : Nat) (options : Options)

namespace PooledWorld

def initial : PooledWorld ℓ κ := ⟨.initial, []⟩

def handOut (pool : Nat) (options : Options) (s : PooledWorld ℓ κ) :
    Except Failure (ConsumerId × PooledWorld ℓ κ) :=
  match s.pools[pool]? with
  | some p => do
    let (id, p, world) ← p.handOut options s.world
    return (id, ⟨world, s.pools.set pool p⟩)
  | none => .error .poolExhausted

def after (s : PooledWorld ℓ κ) : Deed ℓ κ → PooledWorld ℓ κ
  | .move m => { s with world := s.world.after m }
  | .makePool free => { s with pools := s.pools ++ [.ofFree free] }
  | .addToPool pool id => { s with pools := s.pools.modify pool (.add id) }
  | .handOut pool options =>
    match s.handOut pool options with
    | .ok (_, s) => s
    | .error _ => s

def run (s : PooledWorld ℓ κ) (ds : List (Deed ℓ κ)) : PooledWorld ℓ κ := ds.foldl after s

/-- The failure with which a call is answered at once. -/
def failure? (s : PooledWorld ℓ κ) : Deed ℓ κ → Option Failure
  | .move m =>
    match s.world.outcome m with
    | .progress (.answered (.error e)) => some e
    | _ => none
  | .handOut pool options =>
    match s.handOut pool options with
    | .ok _ => none
    | .error e => some e
  | _ => none

def asked? (s : PooledWorld ℓ κ) : Deed ℓ κ → Option ConsumerId
  | .move (.act id (.request _)) => some id
  | .handOut pool _ => s.pools[pool]?.bind (·.free.head?)
  | _ => none

variable {s s' : PooledWorld ℓ κ} {id : ConsumerId} {pool : Nat} {options : Options}

@[simp] theorem run_nil (s : PooledWorld ℓ κ) : s.run [] = s := rfl

@[simp] theorem run_cons (s : PooledWorld ℓ κ) (d : Deed ℓ κ) (ds : List (Deed ℓ κ)) :
    s.run (d :: ds) = (s.after d).run ds := rfl

theorem run_append (s : PooledWorld ℓ κ) (ds ds' : List (Deed ℓ κ)) :
    s.run (ds ++ ds') = (s.run ds).run ds' := List.foldl_append

theorem asked?_handOut :
    s.asked? (.handOut pool options) = some id ↔
      ∃ p rest, s.pools[pool]? = some p ∧ p.free = id :: rest := by
  simp only [asked?, Option.bind_eq_some_iff, List.head?_eq_some_iff]
  exact exists_congr fun p => exists_and_left.symm

theorem handOut_eq_ok (h : s.handOut pool options = .ok (id, s')) :
    s.asked? (.handOut pool options) = some id ∧
      s'.world = s.world.after (.act id (.request (.configure options))) := by
  unfold handOut at h
  split at h
  next p hp =>
    obtain ⟨⟨id', p', world⟩, hout, h⟩ := Failure.bind_eq_ok_iff.1 h
    cases h
    obtain ⟨hfree, -, hworld⟩ := Pool.handOut_eq_ok hout
    exact ⟨asked?_handOut.2 ⟨p, p'.free, hp, hfree⟩, hworld⟩
  next => cases h

/-- Whether a pool hands out the consumer at the head of its queue is decided by the consumer. -/
theorem handOut_of_head {p : Pool} {rest : List ConsumerId} {c : Consumer ℓ κ}
    (hp : s.pools[pool]? = some p) (hfree : p.free = id :: rest) (hc : s.world.consumer? id = some c)
    (options : Options) :
    s.handOut pool options = (c.configure options).map fun c' =>
      (id, ⟨s.world.setConsumer id c', s.pools.set pool ⟨rest, p.inUse ++ [id]⟩⟩) := by
  simp only [handOut, hp, Pool.handOut, hfree, hc]
  cases c.configure options <;> rfl

/-- What the deeds of a run contribute, in order. -/
def gather {α : Type} (f : PooledWorld ℓ κ → Deed ℓ κ → List α) :
    PooledWorld ℓ κ → List (Deed ℓ κ) → List α
  | _, [] => []
  | s, d :: ds => f s d ++ gather f (s.after d) ds

@[simp] theorem gather_nil {α : Type} (f : PooledWorld ℓ κ → Deed ℓ κ → List α)
    (s : PooledWorld ℓ κ) : gather f s [] = [] := rfl

@[simp] theorem gather_cons {α : Type} (f : PooledWorld ℓ κ → Deed ℓ κ → List α)
    (s : PooledWorld ℓ κ) (d : Deed ℓ κ) (ds : List (Deed ℓ κ)) :
    gather f s (d :: ds) = f s d ++ gather f (s.after d) ds := rfl

/-- What a deed is for the consumers: a move, or a request to be configured, or nothing. -/
def moves (s : PooledWorld ℓ κ) : Deed ℓ κ → List (Move ℓ κ)
  | .move m => [m]
  | .handOut pool options =>
    match s.handOut pool options with
    | .ok (id, _) => [.act id (.request (.configure options))]
    | .error _ => []
  | _ => []

def trace (s : PooledWorld ℓ κ) (ds : List (Deed ℓ κ)) : List (Move ℓ κ) := gather moves s ds

theorem world_after (s : PooledWorld ℓ κ) (d : Deed ℓ κ) :
    (s.after d).world = s.world.run (s.moves d) := by
  cases d with
  | handOut pool options =>
    simp only [after, moves]
    split
    next h => exact (handOut_eq_ok h).2
    next => rfl
  | _ => rfl

theorem world_run_trace (s : PooledWorld ℓ κ) (ds : List (Deed ℓ κ)) :
    (s.run ds).world = s.world.run (s.trace ds) := by
  induction ds generalizing s with
  | nil => rfl
  | cons d ds ih =>
    rw [run_cons, ih, world_after, ← World.run_append]
    rfl

theorem mem_moves {s : PooledWorld ℓ κ} {d : Deed ℓ κ} {m : Move ℓ κ} (h : m ∈ s.moves d) :
    d = .move m ∨ ∃ id options, m = .act id (.request (.configure options)) := by
  cases d with
  | move m' => exact .inl (congrArg Deed.move (List.mem_singleton.1 h).symm)
  | makePool | addToPool => cases h
  | handOut pool options =>
    simp only [moves] at h
    split at h
    next => exact .inr ⟨_, _, List.mem_singleton.1 h⟩
    next => cases h

theorem mem_trace {s : PooledWorld ℓ κ} {ds : List (Deed ℓ κ)} {m : Move ℓ κ}
    (h : m ∈ s.trace ds) :
    .move m ∈ ds ∨ ∃ id options, m = .act id (.request (.configure options)) := by
  induction ds generalizing s with
  | nil => cases h
  | cons d ds ih =>
    rcases List.mem_append.1 h with hm | hm
    · exact (mem_moves hm).imp_left fun hd => List.mem_cons.2 (.inl hd.symm)
    · exact (ih hm).imp_left (List.mem_cons_of_mem d)

theorem world_run (s : PooledWorld ℓ κ) (ds : List (Deed ℓ κ)) :
    ∃ ms, (s.run ds).world = s.world.run ms ∧
      ∀ m ∈ ms, .move m ∈ ds ∨ ∃ id options, m = .act id (.request (.configure options)) :=
  ⟨s.trace ds, s.world_run_trace ds, fun _ => mem_trace⟩

end PooledWorld

end LogConsumer
