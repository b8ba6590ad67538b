import LogConsumer.Pattern.Parser
import LogConsumer.Scenario.Value

/-! Steps that act on a cluster alone. -/
namespace LogConsumer

inductive ClusterStep
  | createTopic (name : String) (partitions : Int)
  | append (partition : Partition) (entry : LogEntry)
  | appendMany (partition : Partition) (count : Nat)
  | setLeader (partition : Partition) (leader : Option Int)
  | log (partition : Partition)
  | logLength (partition : Partition)
  | readRecord (partition : Partition) (offset : Int)
  | commit (group : String) (partition : Partition) (offset : Int)
  | committed (group : String) (partition : Partition)
  | topics
  | partitions (topic : String)
  | available (topic : String)
  | topicsMatching (pattern : String)

namespace ClusterStep

def run (c : Cluster) : ClusterStep → Except Stop (Value × Cluster)
  | .createTopic name count =>
    match c.createTopic name count with
    | .ok c => .ok (.unit, c)
    | .error e => .error (.failure e)
  | .append p entry =>
    match c.append p entry with
    | .ok (c, offset) => .ok (.number offset, c)
    | .error e => .error (.failure e)
  | .appendMany p count =>
    match c.appendMany p count with
    | .ok (c, last) => .ok (.number last, c)
    | .error e => .error (.failure e)
  | .setLeader p leader =>
    match c.setLeader p leader with
    | .ok c => .ok (.unit, c)
    | .error e => .error (.failure e)
  | .log p => .ok (.records (c.records p), c)
  | .logLength p => .ok (.number (c.logLength p), c)
  | .readRecord p offset => .ok (.record (c.read? p offset), c)
  | .commit group p offset => .ok (.unit, c.commit group p offset)
  | .committed group p => .ok (.offset (c.committedOffset? group p), c)
  | .topics => .ok (.names c.topicNames, c)
  | .partitions topic => .ok (.infos (c.partitions? topic), c)
  | .available topic => .ok (.infos (some (c.available topic)), c)
  | .topicsMatching pattern =>
    match Pattern.read? pattern with
    | some p => .ok (.names (c.topicsMatching p).keys, c)
    | none => .error .invalidPattern

end ClusterStep

end LogConsumer
