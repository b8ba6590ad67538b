import LogConsumer.Scenario.Value

/-! A session by itself, at times of its own. -/
namespace LogConsumer

inductive SessionStep
  | configure (timeout : Option Duration)
  | touch (time : Time)
  | expired (time : Time)

namespace Session

def step (s : Session) : SessionStep → Value × Session
  | .configure timeout => (.unit, configure timeout)
  | .touch time => (.unit, s.touch time)
  | .expired time => (.flag (s.isExpired time), s)

end Session

end LogConsumer
