import LogConsumer.Duration
import LogConsumer.Json.Reader
import LogConsumer.Json.Writer

/-! How a simulated consumer behaves, fixed when it is made. -/
namespace LogConsumer

structure Behaviour where
  /-- With automatic heartbeats a session never expires. -/
  autoHeartbeat : Bool
  /-- How long a poll takes that does not just complete an assignment. -/
  requestLatency : Duration
  /-- The time from scheduling a commit to running it. -/
  commitDelay : Duration
  /-- A poll returns at most one record more than this. -/
  maxPollRecords : Nat
deriving DecidableEq

namespace Behaviour

def standard : Behaviour := ⟨true, .ofMillis 10, .ofMillis 10, 2⟩

instance : Inhabited Behaviour := ⟨standard⟩

def manualHeartbeat : Behaviour := { standard with autoHeartbeat := false }

private def millisJson (d : Duration) : Json := .nat (UInt64.ofNat d.millis).toNat

/-- Durations are written as the low 64 bits of their milliseconds. -/
def toJson (b : Behaviour) : Json :=
  .record [("auto_heartbeat", .bool b.autoHeartbeat),
    ("request_latency", millisJson b.requestLatency),
    ("commit_delay", millisJson b.commitDelay), ("max_poll_records", .nat b.maxPollRecords)]

def ofJson? (j : Json) : Option Behaviour := do
  match ← j.fields? ["auto_heartbeat", "request_latency", "commit_delay", "max_poll_records"] with
  | [autoHeartbeat, requestLatency, commitDelay, maxPollRecords] =>
    return ⟨← autoHeartbeat.elim (some standard.autoHeartbeat) Json.bool?,
      ← requestLatency.elim (some standard.requestLatency) fun j => j.count64?.map .ofMillis,
      ← commitDelay.elim (some standard.commitDelay) fun j => j.count64?.map .ofMillis,
      ← maxPollRecords.elim (some standard.maxPollRecords) fun j => j.count64?.map (·.toNat)⟩
  | _ => none

def read? (s : String) : Option Behaviour := Json.read? s >>= ofJson?

def debugText (b : Behaviour) : String :=
  "MockConsumerConfig \x7b auto_heartbeat: " ++ (if b.autoHeartbeat then "true" else "false") ++
    ", request_latency: " ++ b.requestLatency.text ++ ", commit_delay: " ++ b.commitDelay.text ++
    ", max_poll_records: " ++ Decimal.ofNat b.maxPollRecords ++ " \x7d"

end Behaviour

end LogConsumer
