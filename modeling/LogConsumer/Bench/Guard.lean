import LogConsumer.Scenario.Value

/-! A guard by itself. The permits it gives are numbered, and the one that is held has it. -/
namespace LogConsumer

inductive GuardStep
  | acquire
  /-- Acquires and at once releases, as another caller. -/
  | acquireElsewhere
  | release (permit : Nat)

structure GuardBench where
  guard : Guard Nat
  /-- How many permits were given. -/
  given : Nat

namespace GuardBench

def initial : GuardBench := ⟨.free, 0⟩

def step (b : GuardBench) : GuardStep → Except Failure Value × GuardBench
  | .acquire =>
    match b.guard.check with
    | .ok () => (.ok (.number b.given), ⟨⟨some b.given⟩, b.given + 1⟩)
    | .error e => (.error e, b)
  | .acquireElsewhere => (b.guard.check.map fun _ => .unit, b)
  | .release permit =>
    if b.guard.holder = some permit then (.ok (.flag true), { b with guard := .free })
    else (.ok (.flag false), b)

end GuardBench

end LogConsumer
