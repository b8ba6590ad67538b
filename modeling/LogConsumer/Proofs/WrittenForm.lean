import LogConsumer.Behaviour
import LogConsumer.Options
import LogConsumer.Proofs.JsonText

/-! Options and behaviours in their JSON form. What was read from some text is what is read again
from its own JSON text, in whatever order that lists the properties. Main statement:
`reads_as_written`. -/
namespace LogConsumer

/-- What is read back of a duration: the low 64 bits of its whole milliseconds are written. -/
def Duration.written (d : Duration) : Duration := .ofMillis (.ofNat d.millis)

@[simp] theorem Duration.written_ofMillis (ms : UInt64) : (ofMillis ms).written = ofMillis ms := by
  simp [written]

/-- A duration is read as a count of milliseconds, or is the standard one, which is one too. -/
theorem Duration.exists_ofMillis {field : Option Json} {ms : UInt64} {d : Duration}
    (h : field.elim (some (ofMillis ms)) (fun j => j.count64?.map ofMillis) = some d) :
    ∃ ms, d = ofMillis ms := by
  cases field with
  | none =>
    cases h
    exact ⟨ms, rfl⟩
  | some j =>
    obtain ⟨ms, -, rfl⟩ := Option.map_eq_some_iff.1 h
    exact ⟨ms, rfl⟩

namespace Options

def toJsonIn (order : List (String × String)) (o : Options) : Json :=
  .record [("group_id", .text o.group),
    ("close_timeout", .nat (UInt64.ofNat o.closeTimeout.millis).toNat),
    ("properties", .record (order.map fun e => (e.1, .text e.2)))]

theorem toJson_eq (o : Options) : o.toJson = o.toJsonIn o.properties.entries := rfl

theorem ofJson?_toJsonIn (o : Options) {order : List (String × String)}
    (h : order.Perm o.properties.entries) :
    ofJson? (o.toJsonIn order) = some { o with closeTimeout := o.closeTimeout.written } := by
  have hfields : (o.toJsonIn order).fields? ["group_id", "close_timeout", "properties"] =
      some [some (.text o.group), some (.nat (UInt64.ofNat o.closeTimeout.millis).toNat),
        some (.record (order.map fun e => (e.1, .text e.2)))] := rfl
  simp only [ofJson?, hfields, Option.bind_eq_bind, Option.bind_some, Option.elim_some,
    Json.count64?_nat, Json.textFields?_record, Option.map_some, SortedMap.ofList_perm h]
  rfl

theorem read?_toJsonIn (o : Options) {order : List (String × String)}
    (h : order.Perm o.properties.entries) :
    read? (o.toJsonIn order).write = some { o with closeTimeout := o.closeTimeout.written } := by
  rw [read?, Json.read?_write]
  exact ofJson?_toJsonIn o h

theorem closeTimeout_of_read? {s : String} {o : Options} (h : read? s = some o) :
    ∃ ms, o.closeTimeout = .ofMillis ms := by
  obtain ⟨j, -, h⟩ := Option.bind_eq_some_iff.1 h
  obtain ⟨fields, -, h⟩ := Option.bind_eq_some_iff.1 h
  split at h
  next group closeTimeout properties =>
    obtain ⟨_, -, h⟩ := Option.bind_eq_some_iff.1 h
    obtain ⟨d, hd, h⟩ := Option.bind_eq_some_iff.1 h
    obtain ⟨_, -, h⟩ := Option.bind_eq_some_iff.1 h
    cases h
    exact Duration.exists_ofMillis hd
  next => cases h

end Options

namespace Behaviour

theorem ofJson?_toJson (b : Behaviour) (h : b.maxPollRecords < UInt64.size) :
    ofJson? b.toJson = some { b with
      requestLatency := b.requestLatency.written, commitDelay := b.commitDelay.written } := by
  have hfields : b.toJson.fields?
      ["auto_heartbeat", "request_latency", "commit_delay", "max_poll_records"] =
      some [some (.bool b.autoHeartbeat),
        some (.nat (UInt64.ofNat b.requestLatency.millis).toNat),
        some (.nat (UInt64.ofNat b.commitDelay.millis).toNat), some (.nat b.maxPollRecords)] := rfl
  have hcount : (Json.nat b.maxPollRecords).count64? = some (.ofNat b.maxPollRecords) := if_pos h
  simp only [ofJson?, hfields, Option.bind_eq_bind, Option.bind_some, Option.elim_some,
    Json.count64?_nat, hcount, Option.map_some, UInt64.toNat_ofNat_of_lt' h]
  rfl

theorem read?_toJson (b : Behaviour) (h : b.maxPollRecords < UInt64.size) :
    read? b.toJson.write = some { b with
      requestLatency := b.requestLatency.written, commitDelay := b.commitDelay.written } := by
  rw [read?, Json.read?_write]
  exact ofJson?_toJson b h

theorem fields_of_read? {s : String} {b : Behaviour} (h : read? s = some b) :
    (∃ ms, b.requestLatency = .ofMillis ms) ∧ (∃ ms, b.commitDelay = .ofMillis ms) ∧
      b.maxPollRecords < UInt64.size := by
  obtain ⟨j, -, h⟩ := Option.bind_eq_some_iff.1 h
  obtain ⟨fields, -, h⟩ := Option.bind_eq_some_iff.1 h
  split at h
  next autoHeartbeat requestLatency commitDelay maxPollRecords =>
    obtain ⟨_, -, h⟩ := Option.bind_eq_some_iff.1 h
    obtain ⟨d, hd, h⟩ := Option.bind_eq_some_iff.1 h
    obtain ⟨d', hd', h⟩ := Option.bind_eq_some_iff.1 h
    obtain ⟨n, hn, h⟩ := Option.bind_eq_some_iff.1 h
    cases h
    refine ⟨Duration.exists_ofMillis hd, Duration.exists_ofMillis hd', ?_⟩
    cases maxPollRecords with
    | none =>
      cases hn
      exact (by decide : standard.maxPollRecords < UInt64.size)
    | some j =>
      obtain ⟨ms, -, rfl⟩ := Option.map_eq_some_iff.1 hn
      exact ms.toNat_lt_size
  next => cases h

end Behaviour

/-- Options and behaviours that were read from a text are read again from their own JSON text, in
whatever order its properties are written. -/
theorem reads_as_written :
    (∀ s o, Options.read? s = some o → ∀ order, order.Perm o.properties.entries →
      Options.read? (o.toJsonIn order).write = some o) ∧
    (∀ s b, Behaviour.read? s = some b → Behaviour.read? b.toJson.write = some b) ∧
    (∀ group ms properties, ∃ s, Options.read? s = some ⟨group, .ofMillis ms, properties⟩) ∧
    ∀ autoHeartbeat ms ms' (n : UInt64),
      ∃ s, Behaviour.read? s = some ⟨autoHeartbeat, .ofMillis ms, .ofMillis ms', n.toNat⟩ := by
  refine ⟨fun s o h order horder => ?_, fun s b h => ?_, fun group ms properties => ?_,
    fun autoHeartbeat ms ms' n => ?_⟩
  · obtain ⟨ms, hms⟩ := Options.closeTimeout_of_read? h
    rw [Options.read?_toJsonIn o horder, hms, Duration.written_ofMillis, ← hms]
  · obtain ⟨⟨ms, hms⟩, ⟨ms', hms'⟩, hn⟩ := Behaviour.fields_of_read? h
    rw [Behaviour.read?_toJson b hn, hms, hms', Duration.written_ofMillis,
      Duration.written_ofMillis, ← hms, ← hms']
  · have h := Options.read?_toJsonIn ⟨group, .ofMillis ms, properties⟩ (.refl _)
    rw [Duration.written_ofMillis] at h
    exact ⟨_, h⟩
  · have h := Behaviour.read?_toJson ⟨autoHeartbeat, .ofMillis ms, .ofMillis ms', n.toNat⟩
      n.toNat_lt_size
    rw [Duration.written_ofMillis, Duration.written_ofMillis] at h
    exact ⟨_, h⟩

end LogConsumer
