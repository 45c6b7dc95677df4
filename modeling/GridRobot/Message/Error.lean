import GridRobot.Message.Kind

/-!
# Why a message is refused

A token can be empty or match no form; a message can be asked for with a
payload that does not fit. Each cause is a constructor, its wording is in
`MessageError.message`.
-/

namespace GridRobot

/-- The axis of a coordinate, as named in messages. -/
inductive Axis
  | row
  | column
  deriving DecidableEq

/-- The name of an axis in the reason of a fault. -/
def Axis.name : Axis → String
  | row => "row"
  | column => "column"

/-- A value that does not fit into the payload of a message. -/
inductive PayloadFault
  /-- The number of instructions of a warning is not a digit. -/
  | instructionCount (n : Int)
  /-- A coordinate of a location is not a digit. -/
  | coordinate (axis : Axis) (n : Int)
  deriving DecidableEq

namespace PayloadFault

/-- The kind of message that was asked for. -/
def kind : PayloadFault → Kind
  | instructionCount _ => .warning
  | coordinate _ _ => .location

/-- What is wrong with the value, in words that hold the value itself. -/
def reason : PayloadFault → String
  | instructionCount n => "instruction count " ++ toString n ++ " is not in 0..=9"
  | coordinate axis n => axis.name ++ " " ++ toString n ++ " does not fit in a single digit"

end PayloadFault

/-- Why a token or a payload is not a message. -/
inductive MessageError
  /-- The token has no character. -/
  | emptyToken
  /-- The token matches no form of the kind asked for, or of any kind. -/
  | unrecognised (kind : Option Kind) (token : String)
  /-- The payload asked for cannot be written. -/
  | malformed (fault : PayloadFault)
  deriving DecidableEq

/-- The text shown for an error. -/
def MessageError.message : MessageError → String
  | emptyToken => "the token received from the robot is empty"
  | unrecognised (some kind) token =>
    "can't build " ++ kind.name ++ " from message \"" ++ token ++ "\""
  | unrecognised none token => "couldn't parse message \"" ++ token ++ "\""
  | malformed fault => "malformed " ++ fault.kind.name ++ " payload: " ++ fault.reason

end GridRobot
