import GridRobot.Link.Lines
import GridRobot.Link.Sink

/-!
# Line links

A link over a byte stream, one line a token. A token must not hold a line feed;
this is looked at before anything else. Closing shuts the stream down for
writing, once.
-/

namespace GridRobot

/-- A link over a byte stream. -/
structure LineLink where
  id : LinkId
  source : Source := {}
  sink : Sink := {}
  /-- The link has not been closed. -/
  writable : Bool := true
  deriving DecidableEq

namespace LineLink

/-- Sends a token as a line. -/
def send (t : Token) (l : LineLink) : Except LinkError Unit × LineLink :=
  if lineFeed ∈ t then (.error .lineBreak, l)
  else if !l.writable then (.error (.closedHere l.id), l)
  else
    match l.sink.write t with
    | (.error fault, sink) => (.error (.sendFailed fault), { l with sink })
    | (.ok (), sink) =>
      match sink.write [lineFeed] with
      | (.error fault, sink) => (.error (.sendFailed fault), { l with sink })
      | (.ok (), sink) => (sink.flush.mapError .sendFailed, { l with sink })

/-- Looks for the next line. -/
def receive (l : LineLink) : Arrival × LineLink :=
  let (arrival, source) := l.source.line
  (arrival, { l with source })

/-- Shuts the stream down for writing, unless that was done before. -/
def close (l : LineLink) : Except LinkError Unit × LineLink :=
  if l.writable then
    let (result, sink) := l.sink.shutdown
    (result.mapError .sendFailed, { l with sink, writable := false })
  else (.ok (), l)

/-- A link over an open pipe in memory. -/
def pipe (id : LinkId) : LineLink := { id, source := { live := true } }

/-! ### The other end of the pipe -/

/-- Writes bytes into the pipe, unless an end of it is gone. -/
def feed (bytes : List UInt8) (l : LineLink) : Except Unit LineLink :=
  if bytes = [] then .ok l
  else if l.source.live then .ok { l with source := l.source.append bytes }
  else .error ()

/-- Ends what is written into the pipe. -/
def endFeed (l : LineLink) : LineLink := { l with source := { l.source with live := false } }

/-- Takes the bytes that wait in the pipe, and tells whether they are the last. -/
def collect (l : LineLink) : List UInt8 × Bool × LineLink :=
  (l.sink.taken, l.sink.shut, { l with sink := { l.sink with taken := [] } })

/-- Lets go of the other end: nothing more comes, and writing fails. -/
def hangUp (l : LineLink) : LineLink :=
  { l.endFeed with sink := { l.sink with room := some 0, writeFault := some "broken pipe" } }

/-- Lets go of this end. -/
def release (l : LineLink) : LineLink :=
  { l.endFeed with writable := false, sink := { l.sink with shut := true } }

instance : Link LineLink where
  id := LineLink.id
  send := send
  receive := receive
  close := close
  release := release
  backlog l := l.source.backlog

end LineLink

end GridRobot
