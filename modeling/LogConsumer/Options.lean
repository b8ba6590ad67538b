import LogConsumer.Duration
import LogConsumer.Failure
import LogConsumer.Text.Blank

/-! What an application asks of a consumer: its group, how long closing may take, and client
properties, two of which the consumer reads. -/
namespace LogConsumer

/-- Where reading starts in a partition without a committed offset. -/
inductive ResetPolicy
  | earliest
  | latest
deriving DecidableEq

namespace ResetPolicy

def setting : String := "auto.offset.reset"

def text : ResetPolicy → String
  | earliest => "earliest"
  | latest => "latest"

def ofText? (s : String) : Option ResetPolicy :=
  if s = "earliest" then some .earliest else if s = "latest" then some .latest else none

def ofText (s : String) : Except Failure ResetPolicy :=
  match ofText? s with
  | some policy => .ok policy
  | none =>
    .error (.configuration setting ("offset not available (unsupported policy '" ++ s ++ "')"))

end ResetPolicy

structure Options where
  group : String
  closeTimeout : Duration
  properties : SortedMap String String
deriving DecidableEq

namespace Options

def sessionSetting : String := "session.timeout.ms"

def standard : Options := ⟨"", .ofMillis 30000, .empty⟩

instance : Inhabited Options := ⟨standard⟩

def ofGroup (group : String) : Options := { standard with group }

def withProperty (key value : String) (o : Options) : Options :=
  { o with properties := o.properties.insert key value }

def withOffsetReset (policy : String) (o : Options) : Options :=
  o.withProperty ResetPolicy.setting policy

/-- Writes the whole milliseconds of `timeout` as the session property. -/
def withSessionTimeout (timeout : Duration) (o : Options) : Options :=
  o.withProperty sessionSetting (Decimal.ofNat timeout.millis)

/-- The session timeout, by default two seconds; blanks around the count are left out. -/
def sessionTimeout (o : Options) : Except Failure Duration :=
  match o.properties.get? sessionSetting with
  | none => .ok (.ofMillis 2000)
  | some s =>
    match Decimal.read64 (Text.trim s.toList) with
    | .ok n => .ok (.ofMillis (.ofNat n))
    | .error fault => .error (.configuration sessionSetting fault.message)

def offsetReset (o : Options) : Except Failure ResetPolicy :=
  ResetPolicy.ofText ((o.properties.get? ResetPolicy.setting).getD "latest")

theorem offsetReset_eq_error {o : Options} {e : Failure} (h : o.offsetReset = .error e) :
    ∃ s, o.properties.get? ResetPolicy.setting = some s ∧ ResetPolicy.ofText? s = none ∧
      e = .configuration ResetPolicy.setting
        ("offset not available (unsupported policy '" ++ s ++ "')") := by
  unfold offsetReset ResetPolicy.ofText at h
  cases hs : o.properties.get? ResetPolicy.setting with
  | none =>
    rw [hs] at h
    cases h
  | some s =>
    rw [hs, Option.getD_some] at h
    split at h
    next => cases h
    next hnone =>
      cases h
      exact ⟨s, rfl, hnone, rfl⟩

/-- A session timeout fails to be read if the property is there and its text is no count. -/
theorem sessionTimeout_eq_error_iff {o : Options} {e : Failure} :
    o.sessionTimeout = .error e ↔ ∃ s fault, o.properties.get? sessionSetting = some s ∧
      Decimal.read64 (Text.trim s.toList) = .error fault ∧
      e = .configuration sessionSetting fault.message := by
  unfold sessionTimeout
  cases hs : o.properties.get? sessionSetting with
  | none => simp
  | some s => cases hread : Decimal.read64 (Text.trim s.toList) <;> simp [hread, eq_comm]

/-- The close timeout is written as the low 64 bits of its milliseconds. -/
def toJson (o : Options) : Json :=
  .record [("group_id", .text o.group),
    ("close_timeout", .nat (UInt64.ofNat o.closeTimeout.millis).toNat),
    ("properties", .record (o.properties.entries.map fun e => (e.1, .text e.2)))]

def ofJson? (j : Json) : Option Options := do
  match ← j.fields? ["group_id", "close_timeout", "properties"] with
  | [group, closeTimeout, properties] =>
    return ⟨← group.elim (some standard.group) Json.text?,
      ← closeTimeout.elim (some standard.closeTimeout) fun j => j.count64?.map .ofMillis,
      ← properties.elim (some .empty) fun j => j.textFields?.map .ofList⟩
  | _ => none

def read? (s : String) : Option Options := Json.read? s >>= ofJson?

def orFailure (o : Option Options) : Except Failure Options :=
  match o with
  | some o => .ok o
  | none => .error (.configuration "options" "not the JSON form of options")

end Options

end LogConsumer
