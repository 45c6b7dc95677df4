import GridRobot.Json.Value

/-!
# Writing JSON

Values are written without blanks. In strings only quotes, backslashes and
controls are escaped, the latter by a letter where there is one.
-/

namespace GridRobot.Json

/-- The last two digits of the code unit of a control. -/
def controlDigits (c : Char) : List Char :=
  [Nat.digitChar (c.toNat / 16), Nat.digitChar (c.toNat % 16)]

/-- A character as it stands in a string. -/
def writeChar (c : Char) : List Char :=
  if c = '"' ∨ c = '\\' then ['\\', c]
  else if c = '\x08' then ['\\', 'b']
  else if c = '\x0c' then ['\\', 'f']
  else if c = '\n' then ['\\', 'n']
  else if c = '\r' then ['\\', 'r']
  else if c = '\t' then ['\\', 't']
  else if c.toNat < 0x20 then ['\\', 'u', '0', '0'] ++ controlDigits c
  else [c]

/-- A string between quotes, with escapes where they are needed. -/
def writeText (s : String) : List Char := '"' :: s.toList.flatMap writeChar ++ ['"']

/-- The decimal digits of an integer, with a sign if it is negative. -/
def writeInteger (n : Int) : List Char :=
  if n < 0 then '-' :: Nat.toDigits 10 n.natAbs else Nat.toDigits 10 n.natAbs

/-- An integer by its digits, and any other number by the shortest decimal that reads back as it. -/
def writeNumber : Number → List Char
  | .integer n => writeInteger n
  | .float x => (Shortest.text x).toList

mutual

/-- The text of a value. -/
def Value.write : Value → List Char
  | .null => "null".toList
  | .boolean true => "true".toList
  | .boolean false => "false".toList
  | .number n => writeNumber n
  | .text s => writeText s
  | .list vs => '[' :: writeItems true vs ++ [']']
  | .object ms => '\x7b' :: writeMembers true ms ++ ['\x7d']

/-- The items of a list; all but the first have a comma before them. -/
def writeItems (first : Bool) : List Value → List Char
  | [] => []
  | v :: vs => (if first then [] else [',']) ++ v.write ++ writeItems false vs

/-- The members of an object; all but the first have a comma before them. -/
def writeMembers (first : Bool) : List (String × Value) → List Char
  | [] => []
  | (name, v) :: ms =>
    (if first then [] else [',']) ++ writeText name ++ ':' :: v.write ++ writeMembers false ms

end

/-- The text of a value as a string. -/
def Value.render (v : Value) : String := String.ofList v.write

end GridRobot.Json
