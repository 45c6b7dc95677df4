/-!
# Kinds of messages

Every message belongs to one of six kinds, and every kind owns the character
that its messages begin with on the wire.
-/

namespace GridRobot

/-- What a message is about. -/
inductive Kind
  | location
  | warning
  | done
  | movement
  | finish
  | stateChange
  deriving DecidableEq, Inhabited

namespace Kind

/-- The kinds in the order in which they are listed. -/
def all : List Kind := [location, warning, done, movement, finish, stateChange]

/-- The character that messages of a kind begin with. -/
def identifier : Kind → Char
  | location => 'L'
  | warning => 'W'
  | done => 'D'
  | movement => 'M'
  | finish => 'E'
  | stateChange => 'S'

/-- The kind whose messages begin with `c`. -/
def ofIdentifier? (c : Char) : Option Kind := all.find? (·.identifier = c)

/-- The name of a kind in errors and in JSON. -/
def name : Kind → String
  | location => "LOCATION"
  | warning => "WARNING"
  | done => "DONE"
  | movement => "MOVEMENT"
  | finish => "END"
  | stateChange => "STATE_CHANGE"

/-- The order in which the kinds are tried on a token of unknown kind. -/
def trialOrder : List Kind := [stateChange, finish, location, movement, done, warning]

theorem ofIdentifier?_identifier (k : Kind) : ofIdentifier? k.identifier = some k := by
  cases k <;> decide

end Kind

end GridRobot
