import GridRobot.Wire.Classify

/-!
# Reading by counting bytes

A token can also be read by a cursor, which goes over its characters and counts
the bytes that it has passed. A shape is then read field by field (`Shape.scan`),
and what is told besides the message is a number of bytes (`Shape.match?`): the
token is cut there, in front of what follows the message.

A text cannot be cut just anywhere: the cut must be within the text, and not
within a character (`cut?`). Where it cannot be cut there is no going on, and then
nothing comes of a token (`Kind.decodeByCount`, `classifyPrefixByCount`) or of a
buffer (`Splitter.run`).
-/

namespace GridRobot

/-! ### Cursors -/

/-- How far a token has been read. -/
structure Cursor where
  /-- The characters that are still to be read. -/
  ahead : List Char
  /-- The number of bytes of the characters that were read. -/
  passed : Nat := 0

/-- Reads a field at a cursor, if it is there. -/
abbrev Scan := StateT Cursor Option

namespace Scan

/-- The next character. -/
def char : Scan Char := do
  match (← get).ahead with
  | [] => failure
  | c :: ahead =>
    modify fun cur => ⟨ahead, cur.passed + c.utf8Size⟩
    return c

/-- A character that has to be `expected`. -/
def literal (expected : Char) : Scan Unit := do
  guard ((← char) = expected)

/-- The characters `expected`, one by one. -/
def literals (expected : List Char) : Scan Unit := expected.forM literal

/-- The character that messages of a kind begin with. -/
def identifier (k : Kind) : Scan Unit := literal k.identifier

/-- The digit that the next character has to be. -/
def digit : Scan Digit := do
  Digit.ofChar? (← char)

/-- A cell; the column comes first. -/
def cell : Scan Cell := do
  let col ← digit
  let row ← digit
  return ⟨row, col⟩

end Scan

namespace Shape

open Scan

/-- Reads the fields of a shape, up to the last one. -/
def scan : Shape → Scan Message
  | warning => do
    identifier .warning
    return .warning (← digit)
  | done => do
    identifier .done
    return .done
  | location => do
    identifier .location
    let robot ← cell
    literals terminator
    return .location robot
  | blockDetected => do
    identifier .location
    let robot ← cell
    let block ← cell
    return .blockDetected robot block
  | movement => do
    identifier .movement
    literal separator
    let heading ← Direction.ofDigit? (← digit)
    let motion ← Motion.ofCode? (← digit)
    return .movement heading motion
  | finish => do
    identifier .finish
    literal separator
    return .finish
  | stateChange => do
    identifier .stateChange
    literal separator
    literal 'E'
    return .stateChange

/-- The message of this shape at the start of a token, and the number of bytes that it takes up. -/
def match? (s : Shape) (token : String) : Option (Message × Nat) :=
  (s.scan ⟨token.toList, 0⟩).map fun found => (found.1, found.2.passed)

end Shape

/-! ### Cuts -/

/-- The first `n` bytes of a text and what follows them, if it can be cut there. -/
def cut? (text : String) (n : Nat) : Option (String × String) :=
  if h : String.Pos.Raw.IsValid text ⟨n⟩ then
    let p := text.pos ⟨n⟩ h
    some ((text.sliceTo p).copy, (text.sliceFrom p).copy)
  else none

/-- The message of kind `k` that `token` begins with. -/
def Kind.decodeByCount (k : Kind) (token : String) : Option (Except MessageError Decoded) :=
  match k.shapes.findSome? (·.match? token) with
  | some (m, n) => do
    return .ok ⟨m, (← cut? token n).1⟩
  | none => some (.error (.unrecognised (some k) token))

/-- The message that `token` begins with. -/
def classifyPrefixByCount (token : String) : Option (Except MessageError Decoded) :=
  if token = "" then some (.error .emptyToken)
  else do
    match ← Kind.trialOrder.findSomeM? fun k => do return (← k.decodeByCount token).toOption with
    | some d => return .ok d
    | none => return .error (.unrecognised none token)

/-! ### Splitting a buffer -/

/-- A buffer of which some messages were taken off. -/
structure Splitter where
  /-- The messages that were found. -/
  found : List Message
  /-- The part of the buffer that is left. -/
  rest : String

namespace Splitter

/-- One pass of the loop: a message is taken off, or the rest is refused. -/
def pass (s : Splitter) : Option (Except MessageError Splitter) := do
  match ← classifyPrefixByCount s.rest with
  | .ok d => return .ok ⟨s.found ++ [d.message], (← cut? s.rest d.consumed).2⟩
  | .error e => return .error e

/-- What the loop comes to, if that takes no more than the given number of passes: it goes on as
    long as something is left. -/
def run (passes : Nat) (s : Splitter) : Option (Except MessageError (List Message)) :=
  if s.rest = "" then some (.ok s.found)
  else
    match passes with
    | 0 => none
    | passes + 1 => do
      match ← s.pass with
      | .ok next => next.run passes
      | .error e => return .error e

end Splitter

end GridRobot
