import LogConsumer.Text.Decimal

/-! Spans of time to the nanosecond, below `2 ^ 64` seconds, and their text. -/
namespace LogConsumer

/-- Nanoseconds since the simulation began. -/
abbrev Time := Nat

structure Duration where
  nanos : Nat
  bounded : nanos < UInt64.size * 1_000_000_000
deriving DecidableEq

namespace Duration

def zero : Duration := ⟨0, by decide⟩

instance : Inhabited Duration := ⟨zero⟩

def ofMillis (ms : UInt64) : Duration :=
  ⟨ms.toNat * 1_000_000, by have := ms.toNat_lt_size; omega⟩

/-- A duration from whole seconds and the nanoseconds of the last one. -/
def ofParts? (seconds nanos : Nat) : Option Duration :=
  if h : seconds < UInt64.size ∧ nanos < 1_000_000_000 then
    some ⟨seconds * 1_000_000_000 + nanos, by omega⟩
  else none

def seconds (d : Duration) : Nat := d.nanos / 1_000_000_000

def subsecondNanos (d : Duration) : Nat := d.nanos % 1_000_000_000

def millis (d : Duration) : Nat := d.nanos / 1_000_000

@[simp] theorem millis_ofMillis (ms : UInt64) : (ofMillis ms).millis = ms.toNat :=
  Nat.mul_div_cancel _ (by decide)

/-- `whole` followed by `fraction` of `10 ^ places` with trailing zeros left out. -/
private def fractional (whole fraction places : Nat) : String :=
  let digits := (Decimal.padded places fraction).reverse.dropWhile (· == '0')
  if digits.isEmpty then Decimal.ofNat whole
  else Decimal.ofNat whole ++ "." ++ String.ofList digits.reverse

/-- The text in the largest unit of s, ms, µs and ns that is at most the duration. -/
def text (d : Duration) : String :=
  if 1_000_000_000 ≤ d.nanos then fractional d.seconds d.subsecondNanos 9 ++ "s"
  else if 1_000_000 ≤ d.nanos then fractional d.millis (d.nanos % 1_000_000) 6 ++ "ms"
  else if 1_000 ≤ d.nanos then fractional (d.nanos / 1_000) (d.nanos % 1_000) 3 ++ "µs"
  else Decimal.ofNat d.nanos ++ "ns"

end Duration

end LogConsumer
