import GridRobot.Link.Basic
import GridRobot.Loop.Basic
import GridRobot.Message.Error

/-!
# What can go wrong

A message cannot be built or read, a loop cannot be started or has broken down,
or a link refuses or fails.
-/

namespace GridRobot

/-- A failure of any part of a station. -/
inductive Failure
  | message (e : MessageError)
  | loop (e : LoopError)
  | link (e : LinkError)
  deriving DecidableEq

namespace Failure

/-- The text shown for a failure: that of its cause. -/
def text : Failure → String
  | message e => e.message
  | loop e => e.message
  | link e => e.message

end Failure

end GridRobot
