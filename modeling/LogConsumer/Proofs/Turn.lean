import LogConsumer.Proofs.Frame

/-! What the parts of operations do to a consumer: one equation for each part, and for requests
that are served at once what they do to positions and subscription. -/
namespace LogConsumer

variable {ℓ κ : Type}

def Subscription.afterChange (cluster : Cluster) (s : Subscription ℓ) : Change ℓ → Subscription ℓ
  | .subscribe topics listener =>
    s.clearAssignment.subscribe topics (cluster.resolve topics) listener
  | .assign partitions => s.clearAssignment.assign partitions
  | .unsubscribe => s.unsubscribe

/-- Dropping a subscription does not extend the session. -/
def Session.afterChange (now : Time) (s : Session) : Change ℓ → Session
  | .unsubscribe => s
  | _ => s.touch now

namespace Consumer

variable {cluster : Cluster} {now : Time} {c : Consumer ℓ κ}

theorem perform_change (change : Change ℓ) :
    c.perform cluster now (.change change) =
      ⟨{ c with
          guard := .free
          subscription := c.subscription.afterChange cluster change
          positions := .empty
          session := c.session.afterChange now change },
        .answered (.ok .done), (c.revoke change.reason).2⟩ := by
  cases change <;> rfl

/-- An activation that succeeds leaves no assigned partition without a position. One that fails
leaves the rest of the consumer as it is. -/
theorem perform_activate_cases (cluster : Cluster) (now : Time) (c : Consumer ℓ κ) :
    ∃ positions result,
      Positions.fillGaps cluster c.options c.subscription.assignment.keys c.positions =
          (positions, result) ∧
        ((result = .ok () ∧
            c.perform cluster now .activate =
              ⟨{ c with
                  guard := .free
                  positions
                  subscription := c.subscription.markActive
                  session := c.session.touch now },
                .answered (.ok (.batch .empty)), [(.rebalances c.options.group "assign", 1)]⟩) ∨
          ∃ e, result = .error e ∧
            c.perform cluster now .activate =
              ⟨{ c with guard := .free, positions }, .answered (.error e), []⟩) := by
  cases h : Positions.fillGaps cluster c.options c.subscription.assignment.keys c.positions with
  | mk positions result =>
    refine ⟨positions, result, rfl, ?_⟩
    cases result with
    | ok =>
      left
      simp only [perform, activate, h]
      exact ⟨trivial, rfl⟩
    | error e =>
      right
      simp only [perform, activate, h]
      exact ⟨e, rfl, rfl⟩

/-- A poll surfaces the next fault if there is one, and reads the next batch otherwise. -/
theorem perform_fetch_cases (cluster : Cluster) (now : Time) (c : Consumer ℓ κ) :
    (∃ fault faults, c.pollFaults.pop? = some (fault, faults) ∧
      c.perform cluster now .fetch =
        ⟨{ c with guard := .free, pollFaults := faults }, .answered (.error (.injected fault)),
          [(.faults .poll, 1)]⟩) ∨
      ∃ batch positions, c.pollFaults.pop? = none ∧
        Batch.collect cluster c.behaviour.maxPollRecords c.subscription.assignment c.positions =
          (batch, positions) ∧
        c.perform cluster now .fetch =
          ⟨{ c with guard := .free, positions, session := c.session.touch now },
            .answered (.ok (.batch batch)),
            [(.polls c.options.group, 1), (.recordsPolled c.options.group, batch.count)]⟩ := by
  cases h : c.pollFaults.pop? with
  | some popped =>
    left
    simp only [perform, fetch, h]
    exact ⟨_, _, rfl, rfl⟩
  | none =>
    right
    simp only [perform, fetch, h]
    exact ⟨_, _, trivial, rfl, rfl⟩

theorem positions_activate (cluster : Cluster) (now : Time) (c : Consumer ℓ κ) :
    (c.perform cluster now .activate).consumer.positions =
      (Positions.fillGaps cluster c.options c.subscription.assignment.keys c.positions).1 := by
  obtain ⟨positions, result, hfill, ⟨-, heq⟩ | ⟨e, -, heq⟩⟩ := perform_activate_cases cluster now c
  all_goals rw [heq, hfill]

theorem get?_activate (cluster : Cluster) (now : Time) (c : Consumer ℓ κ) (p : Partition) :
    (c.perform cluster now .activate).consumer.positions.get? p = c.positions.get? p ∨
      (c.positions.get? p = none ∧
        (c.perform cluster now .activate).consumer.positions.contains p = true ∧
        c.subscription.assignment.contains p = true) := by
  rw [positions_activate]
  rcases Positions.get?_fillGaps cluster c.options c.subscription.assignment.keys c.positions p with
    hsame | ⟨hnone, hcontains, hmem⟩
  · exact .inl hsame
  · exact .inr ⟨hnone, hcontains, SortedMap.mem_keys_iff.1 hmem⟩

/-- A poll returns nothing of a partition and leaves its position, or returns the record at the
position, which then grows by one. -/
theorem recordsOf_fetch (cluster : Cluster) (now : Time) (c : Consumer ℓ κ) (p : Partition) :
    ((Outcome.progress (c.perform cluster now .fetch).progress : Outcome ℓ κ).recordsOf p = [] ∧
        (c.perform cluster now .fetch).consumer.positions.get? p = c.positions.get? p) ∨
      ∃ offset r, c.subscription.assignment.contains p = true ∧
        c.positions.get? p = some offset ∧ cluster.read? p offset = some r ∧
        (Outcome.progress (c.perform cluster now .fetch).progress : Outcome ℓ κ).recordsOf p = [r] ∧
        (c.perform cluster now .fetch).consumer.positions.get? p = some (offset + 1) := by
  rcases perform_fetch_cases cluster now c with ⟨_, _, -, heq⟩ | ⟨batch, positions, -, hcollect, heq⟩
  · rw [heq]
    exact .inl ⟨rfl, rfl⟩
  · have h := Batch.collect_cases cluster c.behaviour.maxPollRecords c.subscription.assignment
      c.positions p
    rw [hcollect] at h
    rw [heq]
    exact h

theorem perform_of_isLast {q : Part ℓ κ} (h : q.isLast = true) :
    (∃ result, (c.perform cluster now q).progress = .answered result) ∧
      (c.perform cluster now q).consumer.guard = .free := by
  cases q with
  | change change =>
    rw [perform_change]
    exact ⟨⟨_, rfl⟩, rfl⟩
  | activate =>
    obtain ⟨positions, result, -, ⟨-, heq⟩ | ⟨e, -, heq⟩⟩ := perform_activate_cases cluster now c
    all_goals
      rw [heq]
      exact ⟨⟨_, rfl⟩, rfl⟩
  | fetch =>
    rcases perform_fetch_cases cluster now c with ⟨_, _, -, heq⟩ | ⟨_, _, -, -, heq⟩
    all_goals
      rw [heq]
      exact ⟨⟨_, rfl⟩, rfl⟩
  | shut => exact ⟨⟨_, rfl⟩, rfl⟩
  | _ => cases h

theorem guard_perform_of_isLast {q : Part ℓ κ} (h : q.isLast = true) :
    (c.perform cluster now q).consumer.guard = .free := (perform_of_isLast h).2

@[simp] theorem perform_serve (r : Request ℓ κ) :
    c.perform cluster now (.serve r) = c.serve cluster now r := rfl

theorem configure_of_enter {e : Failure} (h : c.enter = .error e) (options : Options) :
    c.configure options = .error e := by
  simp [configure, h, bind, Except.bind]

theorem configure_eq_ok {options : Options} {c' : Consumer ℓ κ} (h : c.configure options = .ok c') :
    ∃ timeout, c' = { c with options, session := .configure timeout } := by
  obtain ⟨-, -, h⟩ := Failure.bind_eq_ok_iff.1 h
  by_cases hauto : c.behaviour.autoHeartbeat
  · rw [if_pos hauto] at h
    exact ⟨none, (Except.ok.inj h).symm⟩
  · rw [if_neg hauto] at h
    obtain ⟨timeout, -, h⟩ := Failure.bind_eq_ok_iff.1 h
    exact ⟨timeout, (Except.ok.inj h).symm⟩

theorem get?_serve (cluster : Cluster) (now : Time) (c : Consumer ℓ κ) (r : Request ℓ κ)
    (p : Partition) :
    (c.serve cluster now r).consumer.positions.get? p = c.positions.get? p ∨
      p ∈ r.targets ∧ (c.serve cluster now r).progress = .answered (.ok .done) ∧
        ∃ offset, (c.serve cluster now r).consumer.positions.get? p = some offset ∧
          0 ≤ offset ∧ offset ≤ cluster.logLength p := by
  cases r with
  | configure options =>
    left
    simp only [serve, begin]
    split
    next c' h =>
      obtain ⟨timeout, rfl⟩ := configure_eq_ok h
      rfl
    next => rfl
  | seek q offset =>
    simp only [serve, begin, Request.targets, List.mem_singleton]
    split
    next positions h =>
      obtain ⟨hin, rfl⟩ := Positions.seek_eq_ok_iff.1 h
      by_cases hp : p = q
      · subst hp
        exact .inr ⟨rfl, rfl, offset, SortedMap.get?_insert_self .., hin⟩
      · exact .inl (SortedMap.get?_insert_of_ne _ hp _)
    next => exact .inl rfl
  | seekToBeginning ps =>
    have hget := SortedMap.get?_foldl_insert (fun _ => (0 : Int)) ps c.positions p
    by_cases hp : p ∈ ps
    · rw [if_pos hp] at hget
      exact .inr ⟨hp, rfl, 0, hget, Int.le_refl _, Int.natCast_nonneg _⟩
    · rw [if_neg hp] at hget
      exact .inl hget
  | seekToEnd ps =>
    have hget := SortedMap.get?_foldl_insert (fun q => (cluster.logLength q : Int)) ps c.positions p
    by_cases hp : p ∈ ps
    · rw [if_pos hp] at hget
      exact .inr ⟨hp, rfl, cluster.logLength p, hget, Int.natCast_nonneg _, Int.le_refl _⟩
    · rw [if_neg hp] at hget
      exact .inl hget
  | commit callback =>
    left
    simp only [serve, begin, schedule]
    split <;> rfl
  | commitOffsets offsets callback =>
    left
    simp only [serve, begin, schedule]
    split <;> rfl
  | _ => exact .inl rfl

theorem positions_serve_of_not_ok {r : Request ℓ κ}
    (h : (c.serve cluster now r).progress ≠ .answered (.ok .done)) :
    (c.serve cluster now r).consumer.positions = c.positions := by
  apply SortedMap.ext_get?
  intro p
  rcases get?_serve cluster now c r p with hsame | ⟨-, hdone, -⟩
  · exact hsame
  · exact absurd hdone h

/-- Serving a request ends with an answer, which is no batch, or begins to close. Neither who is
subscribed nor what is assigned changes. -/
theorem serve_cases (cluster : Cluster) (now : Time) (c : Consumer ℓ κ) (r : Request ℓ κ) :
    (∃ options session positions paused commits result,
      c.serve cluster now r =
          ⟨{ c with
              guard := .free, options, session, positions, commits
              subscription := { c.subscription with paused } },
            .answered result, []⟩ ∧
        (Outcome.progress (.answered result) : Outcome ℓ κ).batch? = none) ∨
      ∃ deadline, c.serve cluster now r =
        ⟨{ c with guard := ⟨some .closing⟩, commits := c.commits.stop }, .drainUntil deadline, []⟩ := by
  cases r with
  | configure options =>
    left
    simp only [serve, begin]
    split
    next c' h =>
      obtain ⟨timeout, rfl⟩ := configure_eq_ok h
      exact ⟨_, _, _, _, _, _, rfl, rfl⟩
    next => exact ⟨_, _, _, _, _, _, rfl, rfl⟩
  | seek q offset =>
    left
    simp only [serve, begin]
    split <;> exact ⟨_, _, _, _, _, _, rfl, rfl⟩
  | commit callback =>
    left
    simp only [serve, begin, schedule]
    split <;> exact ⟨_, _, _, _, _, _, rfl, rfl⟩
  | commitOffsets offsets callback =>
    left
    simp only [serve, begin, schedule]
    split <;> exact ⟨_, _, _, _, _, _, rfl, rfl⟩
  | close timeout => exact .inr ⟨_, rfl⟩
  | _ => exact .inl ⟨_, _, _, _, _, _, rfl, rfl⟩

/-- Acts that are no turns, and what of a consumer they may change. -/
theorem undergo_eq (cluster : Cluster) (now : Time) (c : Consumer ℓ κ) (a : Act ℓ κ) :
    ∃ guard pollFaults commits closed,
      c.undergo cluster now a = { c with guard, pollFaults, commits, closed } ∧
        (guard = c.guard ∨
          a = .abandon ∧ c.guard.holder.any (·.isTelling) = true ∧ guard = .free) := by
  cases a with
  | abandon =>
    simp only [undergo]
    split
    next htelling => exact ⟨_, _, _, _, rfl, .inr ⟨trivial, htelling, rfl⟩⟩
    next => exact ⟨_, _, _, _, rfl, .inl rfl⟩
  | startCommit =>
    simp only [undergo]
    split <;> exact ⟨_, _, _, _, rfl, .inl rfl⟩
  | addFault kind fault count => cases kind <;> exact ⟨_, _, _, _, rfl, .inl rfl⟩
  | drop =>
    simp only [undergo]
    split <;> exact ⟨_, _, _, _, rfl, .inl rfl⟩
  | _ => exact ⟨_, _, _, _, rfl, .inl rfl⟩

end Consumer

end LogConsumer
