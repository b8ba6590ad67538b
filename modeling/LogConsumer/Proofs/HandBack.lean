import LogConsumer.Proofs.HandOut
import LogConsumer.Proofs.Scripts

/-! Consumers that come back to their pool. The consumers of a pool are each either free or out, but
those in use are all that were ever handed out, whether they have come back or not. Main statement:
`free_apart_from_out`. -/
namespace LogConsumer

variable {ℓ κ : Type}

theorem Play.on_createMany (b : Behaviour) (size : Nat) (s : Stage) :
    (createMany b size).on s =
      (.ok (List.range' s.world.consumers.length size),
        { s with world := s.world.run (List.replicate size (.create b)) }) := by
  induction size generalizing s with
  | zero => rfl
  | succ size ih =>
    rw [createMany, on_bind, on_updateWorld]
    dsimp only
    rw [on_bind, ih]
    simp [World.create, World.after, World.step, List.range'_succ, List.replicate_succ]

theorem Deed.nodup_added (pool : Nat) (d : Deed ℓ κ) : (d.added pool).Nodup := by
  cases d with
  | addToPool pool' id =>
    simp only [added]
    split <;> simp
  | _ => exact .nil

namespace PooledWorld

variable {s t : PooledWorld ℓ κ} {pool : Nat} {p p' : Pool} {free : List ConsumerId}
  {id : ConsumerId} {d : Deed ℓ κ} {ds : List (Deed ℓ κ)}

/-- A pool is made of distinct consumers, or of consumers that are made for it. -/
inductive Founds (s : PooledWorld ℓ κ) : List ConsumerId → PooledWorld ℓ κ → Prop
  | ofDistinct {free : List ConsumerId} (h : free.Nodup) : Founds s free (s.after (.makePool free))
  | withCapacity (b : Behaviour) (size : Nat) :
    Founds s (List.range' s.world.consumers.length size)
      ((s.run (List.replicate size (.move (.create b)))).after
        (.makePool (List.range' s.world.consumers.length size)))

/-- A consumer that has been handed out and has not come back since. -/
def IsOut (pool : Nat) (s : PooledWorld ℓ κ) (ds : List (Deed ℓ κ)) (id : ConsumerId) : Prop :=
  ∃ before d after, ds = before ++ d :: after ∧ id ∈ (s.run before).created pool d ∧
    ∀ d' ∈ after, id ∉ d'.added pool

def OnlyReturns (pool : Nat) (s : PooledWorld ℓ κ) (ds : List (Deed ℓ κ)) : Prop :=
  ∀ before d after, ds = before ++ d :: after → ∀ id ∈ d.added pool, s.IsOut pool before id

theorem Founds.nodup (h : s.Founds free t) : free.Nodup := by
  cases h with
  | ofDistinct h => exact h
  | withCapacity => exact List.nodup_range'

theorem pools_run_replicate (m : Move ℓ κ) (n : Nat) (s : PooledWorld ℓ κ) :
    (s.run (List.replicate n (.move m))).pools = s.pools := by
  induction n generalizing s with
  | zero => rfl
  | succ n ih => exact ih (s.after (.move m))

theorem Founds.pools (h : s.Founds free t) : t.pools[s.pools.length]? = some (.ofFree free) := by
  cases h with
  | ofDistinct h => simp [after]
  | withCapacity b size => simp [after, pools_run_replicate]

theorem not_isOut_nil : ¬ s.IsOut pool [] id := by
  rintro ⟨before, d, after, h, -⟩
  simp at h

theorem isOut_append_singleton :
    s.IsOut pool (ds ++ [d]) id ↔
      id ∈ (s.run ds).created pool d ∨ (s.IsOut pool ds id ∧ id ∉ d.added pool) := by
  constructor
  · rintro ⟨before, d', after, h, hcreated, hkept⟩
    rcases List.eq_nil_or_concat after with rfl | ⟨after, d'', rfl⟩
    · obtain ⟨rfl, hd⟩ := List.append_inj' h rfl
      cases hd
      exact .inl hcreated
    · rw [List.concat_eq_append] at h hkept
      rw [← List.cons_append, ← List.append_assoc] at h
      obtain ⟨rfl, hd⟩ := List.append_inj' h rfl
      cases hd
      have ⟨hbefore, hlast⟩ := List.forall_mem_append.1 hkept
      exact .inr ⟨⟨before, d', after, rfl, hcreated, hbefore⟩, hlast d (List.mem_singleton_self d)⟩
  · rintro (hcreated | ⟨⟨before, d', after, rfl, hcreated, hkept⟩, hadded⟩)
    · exact ⟨ds, d, [], rfl, hcreated, by simp⟩
    · refine ⟨before, d', after ++ [d], by simp, hcreated, List.forall_mem_append.2 ⟨hkept, ?_⟩⟩
      simpa using hadded

theorem OnlyReturns.of_append_singleton (h : s.OnlyReturns pool (ds ++ [d])) :
    s.OnlyReturns pool ds ∧ ∀ id ∈ d.added pool, s.IsOut pool ds id := by
  refine ⟨?_, h ds d [] rfl⟩
  rintro before d' after rfl
  exact h before d' (after ++ [d]) (by simp)

/-- Of the consumers a pool was made of, each is either free, and that once, or out. -/
structure Shares (free : List ConsumerId) (out : ConsumerId → Prop) (p : Pool) : Prop where
  nodup : p.free.Nodup
  apart : ∀ id, out id → id ∉ p.free
  members : ∀ id, id ∈ free ↔ id ∈ p.free ∨ out id
  used : ∀ id ∈ p.inUse, id ∈ free

theorem Shares.after {out out' : ConsumerId → Prop} {created added : List ConsumerId}
    (h : Shares free out p) (hadded : added.Nodup) (hreturns : ∀ id ∈ added, out id)
    (huse : p'.inUse = p.inUse ++ created) (hfree : p.free ++ added = created ++ p'.free)
    (hout : ∀ id, out' id ↔ id ∈ created ∨ (out id ∧ id ∉ added)) : Shares free out' p' := by
  have hmem (id : ConsumerId) : id ∈ p.free ∨ id ∈ added ↔ id ∈ created ∨ id ∈ p'.free := by
    rw [← List.mem_append, hfree, List.mem_append]
  have hnodup : (created ++ p'.free).Nodup := by
    rw [← hfree]
    refine List.nodup_append.2 ⟨h.nodup, hadded, ?_⟩
    rintro id hid _ hid' rfl
    exact h.apart id (hreturns id hid') hid
  have ⟨_, hnodup', hdisjoint⟩ := List.nodup_append.1 hnodup
  have hmember (id : ConsumerId) (hid : id ∈ p.free ∨ id ∈ added) : id ∈ free :=
    (h.members id).2 (hid.imp_right (hreturns id))
  refine ⟨hnodup', fun id hid => ?_, fun id => ?_, fun id hid => ?_⟩
  · rcases (hout id).1 hid with hcreated | ⟨hid, hnot⟩
    · exact fun hfree' => hdisjoint id hcreated id hfree' rfl
    · intro hfree'
      rcases (hmem id).2 (.inr hfree') with hfree | hback
      · exact h.apart id hid hfree
      · exact hnot hback
  · rw [hout]
    constructor
    · intro hid
      by_cases hback : id ∈ p.free ∨ id ∈ added
      · exact ((hmem id).1 hback).symm.imp_right .inl
      · have ⟨hnotFree, hnot⟩ := not_or.1 hback
        exact .inr (.inr ⟨((h.members id).1 hid).resolve_left hnotFree, hnot⟩)
    · rintro (hfree' | hcreated | ⟨hid, -⟩)
      · exact hmember id ((hmem id).2 (.inr hfree'))
      · exact hmember id ((hmem id).2 (.inl hcreated))
      · exact (h.members id).2 (.inr hid)
  · rw [huse] at hid
    rcases List.mem_append.1 hid with hid | hcreated
    · exact h.used id hid
    · exact hmember id ((hmem id).2 (.inl hcreated))

theorem shares_run (hp : s.pools[pool]? = some (.ofFree free)) (hfree : free.Nodup)
    (hds : s.OnlyReturns pool ds) :
    ∃ p, (s.run ds).pools[pool]? = some p ∧ Shares free (s.IsOut pool ds) p := by
  induction ds using List.reverseRecOn with
  | nil =>
    refine ⟨_, hp, hfree, fun id hid => absurd hid not_isOut_nil, fun id => ?_, nofun⟩
    exact ⟨.inl, fun h => h.resolve_right not_isOut_nil⟩
  | append_singleton ds d ih =>
    obtain ⟨hds, hd⟩ := hds.of_append_singleton
    obtain ⟨p, hp, hshares⟩ := ih hds
    obtain ⟨p', hp', huse, hfree'⟩ := pool_after hp d
    rw [run_append]
    exact ⟨p', hp', hshares.after (d.nodup_added pool) hd huse hfree' fun _ => isOut_append_singleton⟩

/-- The consumers that a pool was made of are each either free, and that once, or out. In use are
all that were ever handed out, also those that have come back. -/
theorem free_apart_from_out (ht : s.Founds free t) (hpool : pool = s.pools.length)
    (hds : t.OnlyReturns pool ds) :
    ∃ p, (t.run ds).pools[pool]? = some p ∧ p.free.Nodup ∧
      (∀ id, id ∈ free ↔ id ∈ p.free ∨ t.IsOut pool ds id) ∧
      (∀ id, t.IsOut pool ds id → id ∉ p.free) ∧
      p.inUse = gather (created pool) t ds ∧
      (∀ id ∈ p.inUse, id ∈ p.free ↔ ¬ t.IsOut pool ds id) ∧
      ((∀ d ∈ ds, d.added pool = []) → (p.inUse ++ p.free).Nodup) := by
  subst hpool
  obtain ⟨p, hp, hnodup, hapart, hmembers, hused⟩ := shares_run ht.pools ht.nodup hds
  obtain ⟨p', hp', huse, hfree⟩ := pool_run ht.pools ds
  cases hp.symm.trans hp'
  refine ⟨p, hp, hnodup, hmembers, hapart, huse, fun id hid => ⟨?_, ?_⟩, fun hnone => ?_⟩
  · exact fun hfree hout => hapart id hout hfree
  · exact fun hnot => ((hmembers id).1 (hused id hid)).resolve_right hnot
  · have hadded : ds.flatMap (Deed.added s.pools.length) = [] := by simpa using hnone
    have hall : free = p.inUse ++ p.free := by
      rw [hadded, List.append_nil] at hfree
      rw [huse]
      exact hfree
    exact hall ▸ ht.nodup

def sampleFounded : PooledWorld Unit Unit := sampleConsumers.after (.makePool [0, 1])

theorem onlyReturns_sampleReturned : sampleFounded.OnlyReturns 0 sampleReturned := by
  rintro before d after h id hid
  match before with
  | [] =>
    cases h
    cases hid
  | [_] =>
    cases h
    have hid : id = 0 := List.mem_singleton.1 hid
    exact ⟨[], .handOut 0 .standard, [], rfl, by rw [hid]; decide, by simp⟩
  | _ :: _ :: before =>
    have hlength := congrArg List.length h
    simp [sampleReturned] at hlength

theorem free_apart_from_out_sample :
    sampleConsumers.Founds [0, 1] sampleFounded ∧ 0 = sampleConsumers.pools.length ∧
      sampleFounded.OnlyReturns 0 sampleReturned ∧
      ∃ p, (sampleFounded.run sampleReturned).pools[0]? = some p ∧ p.free.Nodup ∧ p.inUse = [0] ∧
        (0 ∈ p.free ↔ ¬ sampleFounded.IsOut 0 sampleReturned 0) := by
  have hfounds : sampleConsumers.Founds [0, 1] sampleFounded := .ofDistinct (by decide)
  have hreturns := onlyReturns_sampleReturned
  obtain ⟨p, hp, hnodup, -, -, huse, hused, -⟩ := free_apart_from_out hfounds (rfl : 0 = _) hreturns
  have hcreated : gather (created 0) sampleFounded sampleReturned = [0] := by decide
  rw [hcreated] at huse
  exact ⟨hfounds, rfl, hreturns, p, hp, hnodup, huse, hused 0 (huse ▸ List.mem_singleton_self 0)⟩

/-- A consumer that has come back is free and goes on to be in use. -/
theorem returned_stays_in_use :
    [0, 1].Nodup ∧ sampleFounded.OnlyReturns 0 sampleReturned ∧
      ∃ p, (sampleFounded.run sampleReturned).pools[0]? = some p ∧ 0 ∈ p.free ∧ 0 ∈ p.inUse :=
  ⟨by decide, onlyReturns_sampleReturned, ⟨[1, 0], [0]⟩, by decide, by decide, by decide⟩

end PooledWorld

end LogConsumer
