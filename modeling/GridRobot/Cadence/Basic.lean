import GridRobot.Cadence.Duration

/-!
# The cadence of a station

A station polls its two queues, each at its own pace: it waits between one look
at the outbound queue and the next, and likewise for the inbound queue. The
waits are limited to ten seconds (`Cadence.limited`), so that a loop that is
asked to stop does so within that time.
-/

namespace GridRobot

/-- The waits between two looks at a queue. -/
@[ext] structure Cadence where
  outbound : Duration := .ofMillis 50
  inbound : Duration := .ofMillis 20
  deriving DecidableEq

namespace Cadence

instance : Inhabited Cadence := ⟨{}⟩

/-- Both waits are the same. -/
def uniform (wait : Duration) : Cadence := ⟨wait, wait⟩

/-- The longest wait of a station. -/
def longest : Duration := .ofSeconds 10

/-- The cadence with each wait cut down to the longest one. -/
def limited (c : Cadence) : Cadence := ⟨c.outbound.min longest, c.inbound.min longest⟩

end Cadence

end GridRobot
