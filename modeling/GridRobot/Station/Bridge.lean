import GridRobot.Link.Basic
import GridRobot.Station.Basic
import GridRobot.Wire.Bytes

/-!
# Bridges

A bridge joins a station to a link by two tasks. The *writer* has a subscription
to what the station sends, and sends the wire form of each message over the
link. The *reader* takes the tokens that arrive on the link and queues them at
the station. Each ends with the first error it meets; the reader also ends when
no more tokens will arrive.

Closing a bridge has two parts: `requestClose` cancels the reader and asks the
writer to end once it has sent everything; when the writer is over, `close`
closes the link. A bridge can also be let go (`abandon`): then its writer ends
in the same way, but its reader goes on. The link is released when nobody uses
it any more.
-/

namespace GridRobot

/-- How a task of a bridge stands. -/
inductive TaskState
  | running
  | finished (result : Except LinkError Unit)
  /-- The link broke down and took the task with it. -/
  | crashed
  | cancelled

namespace TaskState

/-- The task will take further steps. -/
def isRunning : TaskState → Bool
  | running => true
  | _ => false

/-- Cancels a task that is still running. -/
def cancel : TaskState → TaskState
  | running => cancelled
  | t => t

/-- What a task that is over has to report; a cancelled one reports no error. -/
def result : TaskState → Except LinkError Unit
  | running | cancelled => .ok ()
  | finished r => r
  | crashed => .error .taskFailed

end TaskState

/-- A bridge between a station and a link. -/
structure Bridge (σ : Type) where
  link : σ
  /-- The number of the writer's subscription. -/
  feed : Nat
  writer : TaskState := .running
  reader : TaskState := .running
  /-- The writer was asked to end. -/
  stopping : Bool := false
  /-- Somebody holds the bridge. -/
  held : Bool := true

namespace Bridge

variable {σ : Type}

/-- Joins a station to a link. -/
def spawn (link : σ) (s : Station) : Bridge σ × Station :=
  ({ link, feed := s.outbound.worker.events.next }, s.updateOutbound Feed.subscribe)

/-- Both tasks are over. -/
def isFinished (b : Bridge σ) : Bool := !b.writer.isRunning && !b.reader.isRunning

variable [Link σ]

/-! ### Steps of the tasks -/

/-- The writer ends and drops its subscription. -/
def endWriter (result : Except LinkError Unit) (b : Bridge σ) (s : Station) :
    Bridge σ × Station :=
  ({ b with writer := .finished result },
    s.updateOutbound fun f => { f with events := f.events.dropSubscription b.feed })

/-- The writer sends the next message, or ends if there is none and it was asked to. -/
def writerStep (b : Bridge σ) (s : Station) : Bridge σ × Station :=
  if b.writer.isRunning then
    match s.outbound.worker.events.poll b.feed with
    | (.ready e, events) =>
      let s := s.updateOutbound fun f => { f with events }
      match Link.send (Utf8.encode e.wire.toList) b.link with
      | (.ok (), link) => ({ b with link }, s)
      | (.error fault, link) => endWriter (.error fault) { b with link } s
    | (.ended, _) => b.endWriter (.ok ()) s
    | (.pending, _) => if b.stopping then b.endWriter (.ok ()) s else (b, s)
  else (b, s)

/-- The reader queues the next token, or ends. -/
def readerStep (b : Bridge σ) (s : Station) : Bridge σ × Station :=
  if b.reader.isRunning then
    let (arrival, link) := Link.receive b.link
    let b := { b with link }
    match arrival with
    | .token t => (b, s.accept (tokenOfBytes t))
    | .ended => ({ b with reader := .finished (.ok ()) }, s)
    | .failed e => ({ b with reader := .finished (.error e) }, s)
    | .crashed => ({ b with reader := .crashed }, s)
    | .pending => (b, s)
  else (b, s)

/-- The writer goes on until it has to wait or is over. -/
def runWriter (b : Bridge σ) (s : Station) : Bridge σ × Station :=
  ((s.outbound.worker.events.pending b.feed).length + 1).repeat
    (fun (b, s) => b.writerStep s) (b, s)

/-- The reader goes on until it has to wait or is over. -/
def runReader (b : Bridge σ) (s : Station) : Bridge σ × Station :=
  (Link.backlog b.link).repeat (fun (b, s) => b.readerStep s) (b, s)

/-! ### Ending a bridge -/

/-- Cancels the reader and asks the writer to end. -/
def requestClose (b : Bridge σ) : Bridge σ :=
  { b with stopping := true, reader := b.reader.cancel }

/-- Closes the link of a bridge whose tasks are over. The error of the writer is reported first,
    then that of the reader, then that of closing the link. -/
def close (b : Bridge σ) : Except LinkError Unit × Bridge σ :=
  let (closed, link) := Link.close b.link
  (do b.writer.result; b.reader.result; closed, { b with link, held := false })

/-- Lets go of a bridge: its writer ends when it has sent everything, its reader goes on. -/
def abandon (b : Bridge σ) : Bridge σ := { b with stopping := true, held := false }

/-- Releases the link if nobody uses it any more. -/
def releaseUnused (b : Bridge σ) : Bridge σ :=
  if b.isFinished && !b.held then { b with link := Link.release b.link } else b

end Bridge

end GridRobot
