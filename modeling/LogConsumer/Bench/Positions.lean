import LogConsumer.Scenario.ClusterStep

/-! Positions over a cluster, with the batches and the faults of polls that take no time. -/
namespace LogConsumer

inductive PositionStep
  | cluster (step : ClusterStep)
  | seek (partition : Partition) (offset logLength : Int)
  | seekToBeginning (partition : Partition)
  | seekToEnd (partition : Partition) (logLength : Int)
  | advance (partition : Partition)
  | position (partition : Partition)
  | fillGaps (partitions : List Partition) (options : Json)
  | snapshot (partitions : List Partition)
  | clear
  /-- Begins anew with another cap and no faults. -/
  | cap (cap : Nat)
  | pushFault (fault : Fault) (count : Nat)
  | roundTrip
  | collect (partitions : List Partition)

structure PositionBench where
  cluster : Cluster
  positions : Positions
  cap : Nat
  faults : FaultQueue

namespace PositionBench

def initial : PositionBench := ⟨.empty, .empty, 2, .empty⟩

def step (b : PositionBench) : PositionStep → Except Stop Value × PositionBench
  | .cluster step =>
    match step.run b.cluster with
    | .ok (value, cluster) => (.ok value, { b with cluster })
    | .error stop => (.error stop, b)
  | .seek p offset logLength =>
    match b.positions.seek p offset logLength with
    | .ok positions => (.ok .unit, { b with positions })
    | .error e => (.error (.failure e), b)
  | .seekToBeginning p => (.ok .unit, { b with positions := b.positions.insert p 0 })
  | .seekToEnd p logLength => (.ok .unit, { b with positions := b.positions.insert p logLength })
  | .advance p => (.ok .unit, { b with positions := Positions.advance b.positions p })
  | .position p => (.ok (.offset (b.positions.get? p)), b)
  | .fillGaps ps options =>
    match Options.orFailure (Options.ofJson? options) with
    | .ok options =>
      let (positions, result) :=
        Positions.fillGaps b.cluster options (SortedMap.setOf ps).keys b.positions
      (match result with
        | .ok () => .ok .unit
        | .error e => .error (.failure e), { b with positions })
    | .error e => (.error (.failure e), b)
  | .snapshot ps => (.ok (.offsets (Positions.snapshot b.positions ps)), b)
  | .clear => (.ok .unit, { b with positions := .empty })
  | .cap cap => (.ok .unit, { b with cap, faults := .empty })
  | .pushFault fault count =>
    let faults := b.faults.push fault count
    (.ok (.number faults.size), { b with faults })
  | .roundTrip =>
    match b.faults.pop? with
    | some (fault, faults) => (.error (.failure (.injected fault)), { b with faults })
    | none => (.ok .unit, b)
  | .collect ps =>
    let (batch, positions) := Batch.collect b.cluster b.cap (.setOf ps) b.positions
    (.ok (.batch batch), { b with positions })

end PositionBench

end LogConsumer
