import GridRobot.Loop.Basic
import GridRobot.Publisher
import GridRobot.Queue
import GridRobot.Wire.Classify

/-!
# What loops work on

A worker does one piece of work a tick. The two workers of a station each have a
queue and a publisher: the outbound one takes a message, encodes it and
publishes that it was sent; the inbound one takes a token, classifies it and
publishes the message or why there is none. A token that is no message is a
failure of that tick, not of the loop.

A scripted worker plays back outcomes, then has nothing to do.
-/

namespace GridRobot

/-- Something a loop can work on. -/
class Worker (ω : Type) where
  name : String
  /-- One piece of work; without an outcome, the worker broke down. -/
  tick : ω → Option Outcome × ω
  /-- The number of ticks until there is nothing left to do. -/
  load : ω → Nat

/-- A message was taken for sending. -/
structure SentEvent where
  message : Message
  wire : String
  deriving DecidableEq

/-- A token was taken from those received. -/
inductive ReceivedEvent
  | accepted (message : Message)
  | rejected (token : String) (error : MessageError)
  deriving DecidableEq

/-- A queue, and a publisher of what becomes of its items. -/
structure Feed (α ε : Type) where
  queue : Queue α := {}
  events : Publisher ε := {}
  deriving DecidableEq

namespace Feed

variable {α ε : Type}

instance : Inhabited (Feed α ε) := ⟨{}⟩

/-- Takes the oldest item, if there is one, and publishes what `work` makes of it. -/
def tick (work : α → ε × Outcome) (f : Feed α ε) : Outcome × Feed α ε :=
  match f.queue.pop? with
  | none => (.idle, f)
  | some (a, queue) => ((work a).2, { queue, events := f.events.publish (work a).1 })

/-- Queues an item behind all others. -/
def push (a : α) (f : Feed α ε) : Feed α ε := { f with queue := f.queue.push a }

/-- Makes a subscription to what becomes of the items taken from now on. -/
def subscribe (f : Feed α ε) : Feed α ε := { f with events := f.events.subscribe }

end Feed

/-- What becomes of an outbound message. -/
def sending (m : Message) : SentEvent × Outcome := (⟨m, m.encode⟩, .processed)

/-- What becomes of an inbound token. -/
def receiving (token : String) : ReceivedEvent × Outcome :=
  match classify token with
  | .ok m => (.accepted m, .processed)
  | .error e => (.rejected token e, .failed)

/-- The messages to be sent. -/
abbrev OutboundFeed := Feed Message SentEvent

/-- The tokens received. -/
abbrev InboundFeed := Feed String ReceivedEvent

instance : Worker OutboundFeed where
  name := "outbound"
  tick f := ((f.tick sending).map some id)
  load f := f.queue.size

instance : Worker InboundFeed where
  name := "inbound"
  tick f := ((f.tick receiving).map some id)
  load f := f.queue.size

/-- The outcomes to come of a scripted worker; one of them may be that it breaks down. -/
structure Script where
  outcomes : List (Option Outcome)
  deriving DecidableEq

instance : Worker Script where
  name := "scripted"
  tick s :=
    match s.outcomes with
    | [] => (some .idle, s)
    | o :: rest => (o, ⟨rest⟩)
  load s := s.outcomes.length

end GridRobot
