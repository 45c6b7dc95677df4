/-!
# Writing to a stream

A stream may take only so many bytes at a time, and only so many in all; it may
fail when it has to pass on what it took, and when it is shut down. Writing goes
on until everything is taken or the stream takes no more.
-/

namespace GridRobot

/-- The writing side of a stream. -/
structure Sink where
  /-- All bytes taken so far. -/
  taken : List UInt8 := []
  /-- The most bytes taken by one write, if there is a limit. -/
  chunk : Option Nat := none
  /-- The number of bytes that will still be taken, if there is a limit. -/
  room : Option Nat := none
  /-- The failure of a write for which there is no room; without one, nothing is taken. -/
  writeFault : Option String := none
  flushFault : Option String := none
  shutdownFault : Option String := none
  /-- The stream has been shut down. -/
  shut : Bool := false
  deriving DecidableEq

namespace Sink

/-- A limit on `n`. -/
def limit (n : Nat) : Option Nat → Nat
  | some m => min n m
  | none => n

/-- The number of bytes that one write takes of `bytes`. -/
def accepts (s : Sink) (bytes : List UInt8) : Except String Nat :=
  match s.room, s.writeFault with
  | some 0, some fault => .error fault
  | room, _ => .ok (limit (limit bytes.length s.chunk) room)

/-- The stream after it has taken `bytes`. -/
def take (bytes : List UInt8) (s : Sink) : Sink :=
  { s with taken := s.taken ++ bytes, room := s.room.map (· - bytes.length) }

/-- Writes all of `bytes`, in at most `fuel` writes. -/
def writeWithin : (fuel : Nat) → List UInt8 → Sink → Except String Unit × Sink
  | _, [], s => (.ok (), s)
  | 0, _ :: _, s => (.ok (), s)
  | fuel + 1, bytes, s =>
    match s.accepts bytes with
    | .error fault => (.error fault, s)
    | .ok 0 => (.error "write zero", s)
    | .ok n => writeWithin fuel (bytes.drop n) (s.take (bytes.take n))

/-- Writes all of `bytes`; each write takes a byte or fails. -/
def write (bytes : List UInt8) (s : Sink) : Except String Unit × Sink :=
  writeWithin bytes.length bytes s

/-- Has the bytes taken so far passed on. -/
def flush (s : Sink) : Except String Unit :=
  match s.flushFault with
  | some fault => .error fault
  | none => .ok ()

/-- Shuts the stream down. -/
def shutdown (s : Sink) : Except String Unit × Sink :=
  (match s.shutdownFault with
    | some fault => .error fault
    | none => .ok (),
   { s with shut := true })

end Sink

end GridRobot
