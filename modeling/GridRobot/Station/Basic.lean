import GridRobot.Cadence.Basic
import GridRobot.Loop.Lane

/-!
# Stations

A station keeps the messages to be sent and the tokens received, each in a lane
of its own: a queue, the loops that work on it and the publisher of what becomes
of its items. The two lanes share nothing.

Starting both starts the outbound loop first; if the inbound loop cannot be
started then, the outbound one stays.

Shutting down has two parts. First both loops are taken out of their slots and
asked to stop (`beginShutdown`); once they are over, what they have done is
reported (`finishShutdown?`). Other calls may come between.
-/

namespace GridRobot

/-- A station with its two lanes. -/
structure Station where
  cadence : Cadence
  outbound : Lane OutboundFeed := { worker := {} }
  inbound : Lane InboundFeed := { worker := {} }

/-- The loops whose end is waited for. -/
structure Shutdown where
  outbound : Option Nat
  inbound : Option Nat
  deriving DecidableEq

/-- What the two loops have done. -/
structure ShutdownReport where
  outbound : Stats := {}
  inbound : Stats := {}
  deriving DecidableEq

namespace Station

/-- A station at rest; the waits of its cadence are limited. -/
def create (c : Cadence) : Station := { cadence := c.limited }

instance : Inhabited Station := ⟨create default⟩

/-! ### Queues and events -/

/-- Does `f` with the outbound queue and its events. -/
def updateOutbound (f : OutboundFeed → OutboundFeed) (s : Station) : Station :=
  { s with outbound.worker := f s.outbound.worker }

/-- Does `f` with the inbound queue and its events. -/
def updateInbound (f : InboundFeed → InboundFeed) (s : Station) : Station :=
  { s with inbound.worker := f s.inbound.worker }

/-- Queues a message for sending. -/
def enqueue (m : Message) (s : Station) : Station := s.updateOutbound (·.push m)

/-- Queues a token that was received. -/
def accept (token : String) (s : Station) : Station := s.updateInbound (·.push token)

/-! ### Loops -/

/-- Starts a loop that sends, unless one is still in charge. -/
def startOutbound (wait : Nat) (s : Station) : Except LoopError Station := do
  return { s with outbound := ← s.outbound.start wait }

/-- Starts a loop that classifies what was received, unless one is still in charge. -/
def startInbound (wait : Nat) (s : Station) : Except LoopError Station := do
  return { s with inbound := ← s.inbound.start wait }

/-- Starts both loops at the cadence of the station; an outbound loop that has been started
    stays when the inbound one cannot be. -/
def start (s : Station) : Except LoopError Unit × Station :=
  match s.startOutbound s.cadence.outbound.toMillis with
  | .error e => (.error e, s)
  | .ok s =>
    match s.startInbound s.cadence.inbound.toMillis with
    | .error e => (.error e, s)
    | .ok s => (.ok (), s)

/-- Asks the outbound loop to stop; it stays in its slot. -/
def requestStopOutbound (s : Station) : Station := { s with outbound := s.outbound.requestStop }

/-- Asks the inbound loop to stop; it stays in its slot. -/
def requestStopInbound (s : Station) : Station := { s with inbound := s.inbound.requestStop }

/-- Takes both loops out of their slots and asks them to stop. -/
def beginShutdown (s : Station) : Shutdown × Station :=
  (⟨s.outbound.slot, s.inbound.slot⟩,
    { s with outbound := s.outbound.detach, inbound := s.inbound.detach })

/-- The report of a shutdown, once the loops waited for are over; a broken outbound loop is
    reported before a broken inbound one. -/
def finishShutdown? (p : Shutdown) (s : Station) : Option (Except LoopError ShutdownReport) := do
  let outbound ← s.outbound.report? p.outbound
  let inbound ← s.inbound.report? p.inbound
  return do return { outbound := ← outbound, inbound := ← inbound }

/-! ### Steps -/

/-- The loops that are about to look whether they should stop do so. -/
def checkAll (now : Nat) (s : Station) : Station :=
  { s with outbound := s.outbound.checkAll now, inbound := s.inbound.checkAll now }

/-- The loops whose wait is over tick. -/
def fireDue (now : Nat) (s : Station) : Station :=
  { s with outbound := s.outbound.fireDue now, inbound := s.inbound.fireDue now }

/-- One round of the loops that have no wait. -/
def spin (now : Nat) (s : Station) : Station :=
  { s with outbound := s.outbound.spin now, inbound := s.inbound.spin now }

/-- The time, at most `n`, before the millisecond in which the next loop is due. -/
def quietFor (now n : Nat) (s : Station) : Nat := s.inbound.quietFor now (s.outbound.quietFor now n)

theorem quietFor_le (now n : Nat) (s : Station) : s.quietFor now n ≤ n :=
  Nat.le_trans (s.inbound.quietFor_le now _) (s.outbound.quietFor_le now n)

/-- The time until the last of the loops that were asked to stop has ticked. -/
def timeToStop (now : Nat) (s : Station) : Nat :=
  max (s.outbound.timeToStop now) (s.inbound.timeToStop now)

end Station

end GridRobot
