import GridRobot.Link.Basic

/-!
# Lines of a byte stream

Over a byte stream, a token is a line: it is written with a line feed after it,
and read up to a line feed, less that and a carriage return before it. What the
stream holds after its last line feed is a token as well.

A stream is read in pieces. A read that gives no byte is an end of the stream
for that one time, and a read that fails loses what has been read of the line.
-/

namespace GridRobot

/-- The byte that ends a line. -/
abbrev lineFeed : UInt8 := 0x0A

/-- The byte that may stand before a line feed and is not part of the token. -/
abbrev carriageReturn : UInt8 := 0x0D

/-- What one read of a stream gives. -/
inductive Read
  | bytes (chunk : List UInt8)
  | fault (text : String)
  deriving DecidableEq

/-- The line before the first line feed, and what follows it. -/
def splitLine? : List UInt8 → Option (List UInt8 × List UInt8)
  | [] => none
  | b :: rest =>
    if b = lineFeed then some ([], rest)
    else (splitLine? rest).map fun (line, after) => (b :: line, after)

/-- A line without the carriage return at its end. -/
def chomp (line : List UInt8) : List UInt8 :=
  if line.getLast? = some carriageReturn then line.dropLast else line

/-- The reading side of a stream. -/
structure Source where
  /-- What the reads to come give. -/
  reads : List Read := []
  /-- More may be added to the reads; otherwise the stream ends after them. -/
  live : Bool := false
  /-- Read from the stream, but part of no line yet looked for. -/
  buffer : List UInt8 := []
  /-- The line that is being put together. -/
  begun : List UInt8 := []
  deriving DecidableEq

namespace Source

/-- What the end of the stream makes of the line begun before it. -/
def atEnd (line : List UInt8) : Arrival := if line = [] then .ended else .token line

/-- Puts a line together: `line` has been read of it, `buffer` comes next, then the reads. -/
def next (live : Bool) (line buffer : List UInt8) : List Read → Arrival × Source
  | [] =>
    match splitLine? buffer with
    | some (rest, after) => (.token (chomp (line ++ rest)), { live, buffer := after })
    | none =>
      if live then (.pending, { live, begun := line ++ buffer })
      else (atEnd (line ++ buffer), { live })
  | read :: reads =>
    match splitLine? buffer with
    | some (rest, after) =>
      (.token (chomp (line ++ rest)), { reads := read :: reads, live, buffer := after })
    | none =>
      match read with
      | .bytes [] => (atEnd (line ++ buffer), { reads, live })
      | .bytes chunk => next live (line ++ buffer) chunk reads
      | .fault text => (.failed (.receiveFailed text), { reads, live })

/-- Looks for the next line. -/
def line (s : Source) : Arrival × Source := next s.live s.begun s.buffer s.reads

/-- Adds a piece to what will be read. -/
def append (chunk : List UInt8) (s : Source) : Source :=
  if chunk = [] then s else { s with reads := s.reads ++ [.bytes chunk] }

/-- At least the number of looks that find something, up to the end of the stream. -/
def backlog (s : Source) : Nat :=
  s.begun.length + s.buffer.length + s.reads.length +
    (s.reads.flatMap fun
      | .bytes chunk => chunk
      | .fault _ => []).length + 1

end Source

end GridRobot
