import LogConsumer.Proofs.PollFaults
import LogConsumer.Proofs.Stages

/-! The wait of a poll for its answer. Whatever happens meanwhile, the consumer is at the end as it was
at the start, and the poll takes its answer in one go from the logs and faults of that moment. Main
statement: `poll_answered_after_wait`. -/
namespace LogConsumer

variable {ℓ κ : Type}

namespace World

variable {w : World ℓ κ} {id : ConsumerId} {c : Consumer ℓ κ}

theorem isHeld_of_waitUntil {a : Act ℓ κ} {time : Time}
    (h : w.outcome (.act id a) = .progress (.waitUntil time)) :
    ∃ c, (w.after (.act id a)).consumer? id = some c ∧ c.guard.holder = some .fetching := by
  rcases stops_after h with ⟨result, hresult⟩ | ⟨activity, hstops, hholder⟩
  · cases hresult
  · cases hstops
    exact Option.bind_eq_some_iff.1 hholder

/-- A poll whose wait ends while a fault is queued fails with the first one, which leaves the queue. -/
theorem proceed_of_fault (hc : w.consumer? id = some c) (hheld : c.guard.holder = some .fetching)
    {fault : Fault} {faults : List Fault} (hfaults : c.pollFaults.pending = fault :: faults) :
    w.outcome (.act id .proceed) = .progress (.answered (.error (.injected fault))) ∧
      w.after (.act id .proceed) =
        { w.setConsumer id { c with guard := .free, pollFaults := ⟨faults⟩ } with
          counters := w.counters.countAll [(.faults .poll, 1)] } := by
  have hq : c.part? w.cluster w.clock .proceed = some .fetch := Consumer.part?_proceed hheld
  rw [outcome_act hc, Consumer.outcome_of_part? hq, after_of_part? hc hq]
  rcases c.perform_fetch_cases w.cluster w.clock with ⟨_, rest, hpop, heq⟩ | ⟨_, _, hpop, -⟩
  · have hpending := FaultQueue.pop?_eq_some_iff.1 hpop
    rw [hfaults] at hpending
    cases hpending
    rw [heq]
    exact ⟨rfl, rfl⟩
  · rw [FaultQueue.pop?_eq_none_iff.1 hpop] at hfaults
    cases hfaults

/-- A poll whose wait ends while no fault is queued returns the next batch of what is assigned. -/
theorem proceed_of_no_fault (hc : w.consumer? id = some c)
    (hheld : c.guard.holder = some .fetching) (hfaults : c.pollFaults.pending = [])
    {batch : Batch} {positions : Positions}
    (hcollect : Batch.collect w.cluster c.behaviour.maxPollRecords c.subscription.assignment
      c.positions = (batch, positions)) :
    w.outcome (.act id .proceed) = .progress (.answered (.ok (.batch batch))) ∧
      w.after (.act id .proceed) =
        { w.setConsumer id { c with
            guard := .free, positions, session := c.session.touch w.clock } with
          counters := w.counters.countAll
            [(.polls c.options.group, 1), (.recordsPolled c.options.group, batch.count)] } := by
  have hq : c.part? w.cluster w.clock .proceed = some .fetch := Consumer.part?_proceed hheld
  rw [outcome_act hc, Consumer.outcome_of_part? hq, after_of_part? hc hq]
  rcases c.perform_fetch_cases w.cluster w.clock with ⟨_, _, hpop, -⟩ | ⟨_, _, -, hcollected, heq⟩
  · rw [FaultQueue.pop?_eq_some_iff.1 hpop] at hfaults
    cases hfaults
  · cases hcollect.symm.trans hcollected
    rw [heq]
    exact ⟨rfl, rfl⟩

end World

namespace PooledWorld

variable {s t : PooledWorld ℓ κ} {id : ConsumerId}

/-- A poll that waits refuses all calls. Its answer is that of the faults and the logs at the end of
the wait, from the positions at its start. -/
theorem poll_answered_after_wait {a : Act ℓ κ} {time : Time}
    (hwait : s.world.outcome (.act id a) = .progress (.waitUntil time)) {during : List (Deed ℓ κ)}
    (hduring : ∀ d ∈ during, d.resumes id = false)
    (ht : t = (s.after (.move (.act id a))).run during) :
    (∀ before d rest, during = before ++ d :: rest → ∀ u,
        u = (s.after (.move (.act id a))).run before → u.asked? d = some id →
          u.failure? d = some .concurrentAccess ∧ u.after d = u) ∧
      ∃ c pollFaults commits, (s.world.after (.act id a)).consumer? id = some c ∧
        t.world.consumer? id = some { c with pollFaults, commits } ∧
        (∀ fault faults, pollFaults.pending = fault :: faults →
          t.world.outcome (.act id .proceed) =
              .progress (.answered (.error (.injected fault))) ∧
            t.world.after (.act id .proceed) =
              { t.world.setConsumer id
                  { c with guard := .free, pollFaults := ⟨faults⟩, commits } with
                counters := t.world.counters.countAll [(.faults .poll, 1)] }) ∧
        (pollFaults.pending = [] → ∀ batch positions,
          Batch.collect t.world.cluster c.behaviour.maxPollRecords c.subscription.assignment
              c.positions = (batch, positions) →
            t.world.outcome (.act id .proceed) = .progress (.answered (.ok (.batch batch))) ∧
              t.world.after (.act id .proceed) =
                { t.world.setConsumer id { c with
                    guard := .free
                    positions
                    session := c.session.touch t.world.clock
                    pollFaults
                    commits } with
                  counters := t.world.counters.countAll
                    [(.polls c.options.group, 1),
                      (.recordsPolled c.options.group, batch.count)] }) := by
  subst ht
  obtain ⟨c, hc, hheld⟩ := World.isHeld_of_waitUntil hwait
  have hstart : (s.after (.move (.act id a))).world.IsHeld .fetching c id :=
    World.isHeld_of_holder hc hheld
  constructor
  · rintro before d rest rfl u rfl hasked
    have hbefore : ∀ e ∈ before, e.resumes id = false :=
      fun e he => hduring e (List.mem_append_left _ he)
    obtain ⟨c', hc', hheld'⟩ := (isHeld_run hstart hbefore).exists_consumer
    exact refused_of_held hasked hc' hheld'
  · obtain ⟨pollFaults, commits, hsame⟩ := isHeld_run hstart hduring
    rw [← Guard.eq_of_holder_eq hheld] at hsame
    refine ⟨c, pollFaults, commits, hc, hsame, ?_, ?_⟩
    · intro fault faults hfaults
      exact World.proceed_of_fault hsame hheld hfaults
    · intro hfaults batch positions hcollect
      exact World.proceed_of_no_fault hsame hheld hfaults hcollect

/-- Two consumers. The first is in a pool, has begun to read an empty partition and has a commit in
flight. -/
def sampleReading : PooledWorld Unit Unit :=
  initial.run
    [.move (.cluster (.createTopic "t" 1)), .move (.create .standard), .move (.create .standard),
      .makePool [0], .move (.act 0 (.request (.assign (.setOf [⟨"t", 0⟩])))),
      .move (.act 0 (.request .poll)), .move (.act 0 (.request (.commit (some ()))))]

/-- Records are appended, the pool is asked for the consumer, the commit falls due and its callback
unsubscribes, the other consumer subscribes, and the partition loses its leader. -/
def sampleMeanwhile : List (Deed Unit Unit) :=
  [.move (.cluster (.appendMany ⟨"t", 0⟩ 2)), .handOut 0 .standard, .move (.advance 10000000),
    .move (.act 0 .startCommit), .move (.act 0 (.request .unsubscribe)), .move (.act 0 .finishCommit),
    .move (.act 1 (.request (.subscribe (.setOf ["t"]) (some ())))),
    .move (.cluster (.setLeader ⟨"t", 0⟩ none))]

theorem poll_answered_after_wait_sample :
    (∃ time, sampleReading.world.outcome (.act 0 (.request .poll)) = .progress (.waitUntil time)) ∧
      (∀ d ∈ sampleMeanwhile, d.resumes 0 = false) ∧
      ∃ t, t = (sampleReading.after (.move (.act 0 (.request .poll)))).run sampleMeanwhile ∧
        ((t.world.outcome (.act 0 .proceed)).recordsOf ⟨"t", 0⟩).map some =
          [t.world.cluster.read? ⟨"t", 0⟩ 0] := by
  have hwait : sampleReading.world.outcome (.act 0 (.request .poll)) = .progress (.waitUntil _) := rfl
  have hduring : ∀ d ∈ sampleMeanwhile, d.resumes 0 = false := by
    simp [sampleMeanwhile, Deed.resumes, Move.resumes, Move.act?]
  refine ⟨⟨_, hwait⟩, hduring, _, rfl, ?_⟩
  obtain ⟨-, c, pollFaults, commits, hc, hsame, -, hbatch⟩ :=
    poll_answered_after_wait hwait hduring rfl
  have hfaults : pollFaults.pending = [] := by
    have hnone : ((sampleReading.after (.move (.act 0 (.request .poll)))).run
        sampleMeanwhile).world.pollFaults 0 = [] := by decide
    simpa [World.pollFaults, hsame] using hnone
  rw [(hbatch hfaults _ _ rfl).1]
  cases hc
  rfl

end PooledWorld

end LogConsumer
