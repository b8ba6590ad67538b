import LogConsumer.Scenario.ClusterStep

/-! A subscription over a cluster, with listeners that are mere names. -/
namespace LogConsumer

inductive SubscriptionStep
  | cluster (step : ClusterStep)
  | subscribe (topics : List String) (partitions : List Partition) (listener : Option String)
  | assign (partitions : List Partition)
  | unsubscribe
  | clearAssignment
  | markActive
  | pause (partitions : List Partition)
  | resume (partitions : List Partition)
  | resolve (topics : List String)
  /-- Tells the listener of the assignment, if there is one to be told. -/
  | notice (call : Call)

/-- A listener that was called, and with what. -/
structure Told where
  listener : String
  call : Call
  partitions : SortedSet Partition

structure SubscriptionBench where
  cluster : Cluster
  subscription : Subscription String

namespace SubscriptionBench

def initial : SubscriptionBench := ⟨.empty, .none⟩

private def become (b : SubscriptionBench) (subscription : Subscription String) :
    Except Stop Value × List Told × SubscriptionBench :=
  (.ok .unit, [], { b with subscription })

def step (b : SubscriptionBench) :
    SubscriptionStep → Except Stop Value × List Told × SubscriptionBench
  | .cluster step =>
    match step.run b.cluster with
    | .ok (value, cluster) => (.ok value, [], { b with cluster })
    | .error stop => (.error stop, [], b)
  | .subscribe topics ps listener =>
    b.become (b.subscription.subscribe (.setOf topics) (.setOf ps) listener)
  | .assign ps => b.become (b.subscription.assign (.setOf ps))
  | .unsubscribe => b.become b.subscription.unsubscribe
  | .clearAssignment => b.become b.subscription.clearAssignment
  | .markActive => b.become b.subscription.markActive
  | .pause ps => b.become (b.subscription.pause ps)
  | .resume ps => b.become (b.subscription.resume ps)
  | .resolve topics => (.ok (.partitions (b.cluster.resolve (.setOf topics))), [], b)
  | .notice call =>
    match b.subscription.notice? with
    | some listener =>
      (.ok (.partitions b.subscription.assignment),
        [⟨listener, call, b.subscription.assignment⟩], b)
    | none => (.ok .unit, [], b)

end SubscriptionBench

end LogConsumer
