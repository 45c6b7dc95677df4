import GridRobot.Decimal.Shortest
import GridRobot.Text.Quoted

/-!
# Why a JSON text is refused

A text can be no JSON (`malformed`), it can end too soon (`truncated`), or it can
be JSON of something else than what is asked for (`mismatch`). Only the last has
a wording of its own, kept in `Fault.message`.
-/

namespace GridRobot.Json

/-- A JSON value as it is named when it is not the one asked for. -/
inductive Found
  | null
  | boolean (b : Bool)
  | integer (n : Int)
  | float (x : Float)
  | string (s : String)
  | list
  | object

/-- How a value is named in a complaint; numbers and texts are quoted. -/
def Found.text : Found → String
  | null => "null"
  | boolean b => "boolean `" ++ toString b ++ "`"
  | integer n => "integer `" ++ toString n ++ "`"
  | float x => "floating point `" ++ Shortest.text x ++ "`"
  | string s => "string " ++ quoted s
  | list => "sequence"
  | object => "map"

/-- The names that stand where one of them is asked for. -/
def alternatives (names : List String) : String :=
  match names with
  | [a] => "`" ++ a ++ "`"
  | [a, b] => "`" ++ a ++ "` or `" ++ b ++ "`"
  | _ => "one of " ++ ", ".intercalate (names.map fun a => "`" ++ a ++ "`")

/-- How a JSON value fails to be what is asked for. -/
inductive Fault
  | wrongType (found : Found) (expected : String)
  | wrongValue (found : Found) (expected : String)
  | wrongLength (length : Nat) (expected : String)
  | missingMember (name : String)
  | duplicateMember (name : String)
  | unknownMember (name : String) (names : List String)
  | unknownName (name : String) (names : List String)
  | notADigit (n : Nat)
  | durationOverflow

/-- The wording of a fault. -/
def Fault.message : Fault → String
  | wrongType found expected => "invalid type: " ++ found.text ++ ", expected " ++ expected
  | wrongValue found expected => "invalid value: " ++ found.text ++ ", expected " ++ expected
  | wrongLength length expected =>
    "invalid length " ++ toString length ++ ", expected " ++ expected
  | missingMember name => "missing field `" ++ name ++ "`"
  | duplicateMember name => "duplicate field `" ++ name ++ "`"
  | unknownMember name names => "unknown field `" ++ name ++ "`, expected " ++ alternatives names
  | unknownName name names => "unknown variant `" ++ name ++ "`, expected " ++ alternatives names
  | notADigit n => toString n ++ " is not a single decimal digit"
  | durationOverflow => "overflow deserializing Duration"

/-- Why a text is refused. -/
inductive Error
  /-- The text is not JSON, or a number in it is out of range, or it is nested too deeply. -/
  | malformed
  /-- The text ends within a value. -/
  | truncated
  /-- The text is JSON, but not of what is asked for. -/
  | mismatch (fault : Fault)

end GridRobot.Json
