import LogConsumer.Proofs.Part
import Mathlib.Data.List.Induction

/-! What a move of a world leaves alone. A consumer changes by acts on it only, the cluster by its
own steps and by commits that run, and what every act keeps of a consumer holds in every run. -/
namespace LogConsumer
namespace World

variable {ℓ κ : Type}

theorem act_eq {w : World ℓ κ} {id : ConsumerId} {c : Consumer ℓ κ} (h : w.consumer? id = some c)
    (a : Act ℓ κ) :
    (w.act id a).1 = c.outcome w.cluster w.clock a ∧
      (w.act id a).2.consumer? id = some (c.act w.cluster w.clock a) := by
  cases a with
  | request r =>
    simp only [World.act, World.request, takeTurn, h, Consumer.outcome, Consumer.act,
      Consumer.part?, Consumer.request_eq]
    exact ⟨trivial, consumer?_setConsumer_self h _⟩
  | proceed =>
    simp only [World.act, holder?_of_consumer h, Consumer.outcome, Consumer.act, Consumer.part?]
    cases hp : c.proceedPart? with
    | none =>
      have hg : c.guard.holder = none := by simpa [Consumer.proceedPart?] using hp
      simp [hg, h, Consumer.undergo]
    | some p =>
      obtain ⟨b, hb⟩ : ∃ b, c.guard.holder = some b := by
        cases hg : c.guard.holder with
        | none => simp [Consumer.proceedPart?, hg] at hp
        | some b => exact ⟨b, rfl⟩
      simp only [hb, World.proceed, takeTurn, h, Consumer.proceed_eq hp]
      exact ⟨trivial, consumer?_setConsumer_self h _⟩
  | abandon =>
    refine ⟨rfl, ?_⟩
    simp only [World.act, holder?_of_consumer h, Consumer.act, Consumer.part?, Consumer.undergo]
    split
    · simp [abandon, consumer?_modifyConsumer, h]
    · exact h
  | startCommit =>
    simp only [World.act, World.startCommit, h, Consumer.outcome, Consumer.act, Consumer.part?,
      Consumer.undergo]
    cases c.commits.start? w.cluster with
    | none => exact ⟨rfl, h⟩
    | some e => exact ⟨rfl, consumer?_setConsumer_self h _⟩
  | finishCommit =>
    refine ⟨rfl, ?_⟩
    simp [World.act, World.finishCommit, consumer?_modifyConsumer, h, Consumer.act, Consumer.part?,
      Consumer.undergo]
  | addFault kind fault count =>
    refine ⟨rfl, ?_⟩
    cases kind <;> simp [World.act, World.addFault, consumer?_modifyConsumer, h, Consumer.act,
      Consumer.part?, Consumer.undergo]
  | drop =>
    refine ⟨rfl, ?_⟩
    simp only [World.act, holder?_of_consumer h, Consumer.act, Consumer.part?, Consumer.undergo,
      Guard.isHeld]
    by_cases hheld : c.guard.holder.isSome
    · simp only [hheld, if_true, h]
    · simp [hheld, consumer?_modifyConsumer, h]

theorem outcome_act {w : World ℓ κ} {id : ConsumerId} {c : Consumer ℓ κ}
    (h : w.consumer? id = some c) (a : Act ℓ κ) :
    w.outcome (.act id a) = c.outcome w.cluster w.clock a := (act_eq h a).1

theorem consumer?_after_act {w : World ℓ κ} {id : ConsumerId} {c : Consumer ℓ κ}
    (h : w.consumer? id = some c) (a : Act ℓ κ) :
    (w.after (.act id a)).consumer? id = some (c.act w.cluster w.clock a) := (act_eq h a).2

theorem after_of_part? {w : World ℓ κ} {id : ConsumerId} {c : Consumer ℓ κ}
    (h : w.consumer? id = some c) {a : Act ℓ κ} {q : Part ℓ κ}
    (hq : c.part? w.cluster w.clock a = some q) :
    w.after (.act id a) =
      { w.setConsumer id (c.perform w.cluster w.clock q).consumer with
        counters := w.counters.countAll (c.perform w.cluster w.clock q).counts } := by
  cases a with
  | request r =>
    cases Option.some.inj hq
    simp only [after, step, World.act, World.request, takeTurn, h, Consumer.request_eq]
  | proceed =>
    obtain ⟨activity, hheld, -⟩ := Option.map_eq_some_iff.1 hq
    simp only [after, step, World.act, World.holder?_of_consumer h, hheld, World.proceed, takeTurn,
      h, Consumer.proceed_eq hq]
  | _ => cases hq

theorem modifyConsumer_eq {w : World ℓ κ} {id : ConsumerId} {c : Consumer ℓ κ}
    (h : w.consumer? id = some c) (f : Consumer ℓ κ → Consumer ℓ κ) :
    w.modifyConsumer id f = w.setConsumer id (f c) := by
  have hget : w.consumers[id]? = some c := h
  have : Inhabited (Consumer ℓ κ) := ⟨c⟩
  simp [modifyConsumer, setConsumer, List.modify_eq_set, hget]

theorem consumer?_act_of_ne (w : World ℓ κ) {id id' : ConsumerId} (hne : id' ≠ id) (a : Act ℓ κ) :
    (w.act id' a).2.consumer? id = w.consumer? id := by
  have hmodify (f : Consumer ℓ κ → Consumer ℓ κ) :
      (w.modifyConsumer id' f).consumer? id = w.consumer? id := by
    rw [consumer?_modifyConsumer, if_neg hne]
  have hturn (f : Consumer ℓ κ → Turn ℓ κ) : (w.takeTurn f id').2.consumer? id = w.consumer? id := by
    unfold takeTurn
    split
    · exact consumer?_setConsumer_of_ne w hne _
    · rfl
  cases a with
  | request r => exact hturn _
  | proceed =>
    simp only [World.act]
    split
    · exact hturn _
    · rfl
  | abandon =>
    simp only [World.act]
    split
    · exact hmodify _
    · rfl
  | startCommit =>
    simp only [World.act, World.startCommit]
    cases w.consumer? id' with
    | none => rfl
    | some c =>
      cases hs : c.commits.start? w.cluster with
      | none => simp only [hs]
      | some e =>
        simp only [hs]
        exact consumer?_setConsumer_of_ne w hne _
  | finishCommit => exact hmodify _
  | addFault kind fault count => exact hmodify _
  | drop =>
    simp only [World.act]
    split
    · rfl
    · exact hmodify _

theorem consumer?_after_of_ne {w : World ℓ κ} {id : ConsumerId} {c : Consumer ℓ κ}
    (h : w.consumer? id = some c) {m : Move ℓ κ} (hm : ∀ a, m ≠ .act id a) :
    (w.after m).consumer? id = some c := by
  cases m with
  | create b =>
    have hlt : id < w.consumers.length := (List.getElem?_eq_some_iff.1 h).1
    simpa [after, step, create, consumer?, List.getElem?_append_left hlt] using h
  | act id' a =>
    have hne : id' ≠ id := fun e => hm a (e ▸ rfl)
    exact (consumer?_act_of_ne w hne a).trans h
  | cluster step =>
    simp only [after, World.step, stepCluster]
    split <;> exact h
  | advance time => exact h
  | resetCounters => exact h

theorem act_of_none {w : World ℓ κ} {id : ConsumerId} (h : w.consumer? id = none) (a : Act ℓ κ) :
    w.act id a =
      (match a with
        | .request _ => .progress (.answered (.error .closed))
        | _ => .silent, w) := by
  have hmodify (f : Consumer ℓ κ → Consumer ℓ κ) : w.modifyConsumer id f = w := by
    have hle : w.consumers.length ≤ id := List.getElem?_eq_none_iff.1 h
    simp [modifyConsumer, List.modify_eq_self hle]
  have hholder : w.holder? id = none := by simp [holder?, h]
  cases a with
  | request r => simp [World.act, World.request, takeTurn, h]
  | proceed => simp [World.act, hholder]
  | abandon => simp [World.act, hholder]
  | startCommit => simp [World.act, World.startCommit, h]
  | finishCommit => simp [World.act, World.finishCommit, hmodify]
  | addFault kind fault count => simp [World.act, World.addFault, hmodify]
  | drop => simp [World.act, hholder, hmodify]

theorem consumer?_act_of_none {w : World ℓ κ} {id : ConsumerId} (h : w.consumer? id = none)
    (a : Act ℓ κ) : (w.act id a).2.consumer? id = none := by
  rw [act_of_none h]
  exact h

/-- Where a consumer comes from: it was made by the move, or it was there before. -/
theorem consumer?_after_cases {w : World ℓ κ} {id : ConsumerId} {m : Move ℓ κ} {c' : Consumer ℓ κ}
    (h : (w.after m).consumer? id = some c') :
    (w.consumer? id = none ∧ ∃ b, m = .create b ∧ c' = .ofBehaviour b) ∨
      ∃ c, w.consumer? id = some c ∧
        ((∃ a, m = .act id a ∧ c' = c.act w.cluster w.clock a) ∨
          ((∀ a, m ≠ .act id a) ∧ c' = c)) := by
  cases hc : w.consumer? id with
  | some c =>
    refine .inr ⟨c, rfl, ?_⟩
    by_cases hm : ∃ a, m = .act id a
    · obtain ⟨a, rfl⟩ := hm
      rw [consumer?_after_act hc] at h
      exact .inl ⟨a, rfl, (Option.some.inj h).symm⟩
    · have hm : ∀ a, m ≠ .act id a := fun a e => hm ⟨a, e⟩
      rw [consumer?_after_of_ne hc hm] at h
      exact .inr ⟨hm, (Option.some.inj h).symm⟩
  | none =>
    refine .inl ⟨rfl, ?_⟩
    cases m with
    | create b =>
      refine ⟨b, rfl, ?_⟩
      have hle : w.consumers.length ≤ id := List.getElem?_eq_none_iff.1 hc
      have hmem : (w.consumers ++ [Consumer.ofBehaviour b])[id]? = some c' := h
      rw [List.getElem?_append_right hle] at hmem
      exact (List.mem_singleton.1 (List.mem_of_getElem? hmem))
    | act id' a =>
      have hnone : (w.act id' a).2.consumer? id = none := by
        by_cases hne : id' = id
        · exact hne ▸ consumer?_act_of_none (hne ▸ hc) a
        · exact (consumer?_act_of_ne w hne a).trans hc
      cases hnone.symm.trans h
    | cluster step =>
      have hsame : (w.stepCluster step).consumer? id = w.consumer? id := by
        unfold stepCluster
        split <;> rfl
      have hnone := hsame.trans hc
      cases hnone.symm.trans h
    | advance time => cases hc.symm.trans h
    | resetCounters => cases hc.symm.trans h

theorem getD_after_of_none {α : Type} {f : Consumer ℓ κ → List α} (hnew : ∀ b, f (.ofBehaviour b) = [])
    {w : World ℓ κ} {id : ConsumerId} (hc : w.consumer? id = none) (m : Move ℓ κ) :
    (((w.after m).consumer? id).map f).getD [] = [] := by
  cases hc' : (w.after m).consumer? id with
  | none => rfl
  | some c' =>
    rcases consumer?_after_cases hc' with ⟨-, b, -, rfl⟩ | ⟨c, h, -⟩
    · exact hnew b
    · cases hc.symm.trans h

/-- What a new consumer has and every act keeps holds of all consumers in all runs. -/
theorem consumer_invariant {I : Consumer ℓ κ → Prop} (hnew : ∀ b, I (.ofBehaviour b))
    (hact : ∀ cluster now c a, I c → I (c.act cluster now a)) (ms : List (Move ℓ κ))
    {id : ConsumerId} {c : Consumer ℓ κ} (h : (initial.run ms).consumer? id = some c) : I c := by
  induction ms using List.reverseRecOn generalizing c with
  | nil => simp [initial, consumer?] at h
  | append_singleton ms m ih =>
    rw [run_append] at h
    rcases consumer?_after_cases h with ⟨-, b, -, rfl⟩ | ⟨c₀, h₀, ⟨a, -, rfl⟩ | ⟨-, rfl⟩⟩
    · exact hnew b
    · exact hact _ _ c₀ a (ih h₀)
    · exact ih h₀

end World

end LogConsumer
