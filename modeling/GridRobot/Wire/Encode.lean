import GridRobot.Message.Basic

/-!
# The wire form

A message is written as a token of one to five ASCII characters, beginning with
the identifier of its kind:

    W<n>              warning that n instructions are pending
    D                 done
    L<x><y>??         location: column, then row
    L<x><y><bx><by>   location with an obstacle
    M#<d><t>          movement: heading, then 0 to advance or 1 to turn only
    E#                end of the route
    S#E               change of state
-/

namespace GridRobot

/-- Stands between the identifier of a kind and what follows it. -/
def separator : Char := '#'

/-- Ends the location of a robot that sees no obstacle. -/
def terminator : List Char := ['?', '?']

/-- A cell is written column first. -/
def Cell.wire (c : Cell) : List Char := [c.col.toChar, c.row.toChar]

namespace Message

/-- The characters after the identifier. -/
def payload : Message → List Char
  | warning n => [n.toChar]
  | done => []
  | location robot => robot.wire ++ terminator
  | blockDetected robot block => robot.wire ++ block.wire
  | movement heading motion => [separator, heading.digit.toChar, motion.code.toChar]
  | finish => [separator]
  | stateChange => [separator, 'E']

/-- The characters of the token of a message. -/
def wire (m : Message) : List Char := m.kind.identifier :: m.payload

/-- The token of a message. -/
def encode (m : Message) : String := String.ofList m.wire

theorem wire_ne_nil (m : Message) : m.wire ≠ [] := List.cons_ne_nil _ _

@[simp] theorem toList_encode (m : Message) : m.encode.toList = m.wire := by
  simp [encode]

end Message

end GridRobot
