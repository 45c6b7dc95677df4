/-!
# Looking once

What a look at something that arrives over time can find.
-/

namespace GridRobot

/-- What is found by looking once. -/
inductive Poll (α : Type)
  | ready (a : α)
  /-- Nothing is here and nothing can come any more. -/
  | ended
  /-- Nothing is here yet. -/
  | pending
  deriving DecidableEq

end GridRobot
