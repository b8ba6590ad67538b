import LogConsumer.Duration

/-! The session of a consumer that sends heartbeats by polling. It lapses when nothing has
touched it for longer than its timeout. -/
namespace LogConsumer

structure Session where
  /-- Absent if the session never lapses. -/
  timeout : Option Duration
  deadline : Option Time
deriving DecidableEq

namespace Session

def inactive : Session := ⟨none, none⟩

instance : Inhabited Session := ⟨inactive⟩

def isActive (s : Session) : Bool := s.timeout.isSome

/-- Sets the timeout; a session configured anew has no deadline until it is touched. -/
def configure (timeout : Option Duration) : Session := ⟨timeout, none⟩

def touch (now : Time) (s : Session) : Session :=
  match s.timeout with
  | some timeout => { s with deadline := some (now + timeout.nanos) }
  | none => s

/-- Whether the deadline has passed; it has not at the deadline itself. -/
def isExpired (now : Time) (s : Session) : Bool :=
  match s.timeout, s.deadline with
  | some _, some deadline => deadline < now
  | _, _ => false

@[simp] theorem isExpired_inactive (now : Time) : inactive.isExpired now = false := rfl

@[simp] theorem isExpired_configure (now : Time) (timeout : Option Duration) :
    (configure timeout).isExpired now = false := by cases timeout <;> rfl

theorem isExpired_touch {s : Session} {timeout : Duration} (h : s.timeout = some timeout)
    (touched now : Time) :
    (s.touch touched).isExpired now = decide (touched + timeout.nanos < now) := by
  simp [touch, isExpired, h]

end Session

end LogConsumer
