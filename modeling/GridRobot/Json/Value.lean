import GridRobot.Json.Number
import GridRobot.Json.Text

/-!
# Values

JSON values as trees, for the places where a value has to be kept until it is
known what it should be. At most 127 lists and objects may stand one within the
other. A value that nobody asks for is passed over: it has to be JSON, but its
strings need not be text, its numbers need not be in range, and it may be
nested as deeply as it likes.
-/

namespace GridRobot.Json

/-- A JSON value; the members of an object are kept in the order of the text, even if two of
    them have the same name. -/
inductive Value
  | null
  | boolean (b : Bool)
  | number (n : Number)
  | text (s : String)
  | list (items : List Value)
  | object (members : List (String × Value))

instance : Inhabited Value := ⟨.null⟩

/-- How a value is named when it is not the one asked for. -/
def Value.found : Value → Found
  | null => .null
  | boolean b => .boolean b
  | number (.integer n) => .integer n
  | number (.float x) => .float x
  | text s => .string s
  | list _ => .list
  | object _ => .object

/-! ### Lists and objects -/

/-- Whether another item of a list follows; `first` tells that none has been read. -/
def moreItems (first : Bool) : Reader Bool := do
  let b ← token
  if b = byte ']' then return false
  else if first then return true
  else if b = byte ',' then
    skip
    if (← token) = byte ']' then throw .malformed else return true
  else throw .malformed

/-- Whether another member of an object follows, at whose name the reader then stands. -/
def moreMembers (first : Bool) : Reader Bool := do
  let b ← token
  if b = byte '\x7d' then return false
  else if first then
    if b = byte '"' then return true else throw .malformed
  else if b = byte ',' then
    skip
    if (← token) = byte '"' then return true else throw .malformed
  else throw .malformed

/-- The colon after the name of a member. -/
def colon : Reader Unit := do
  if (← token) = byte ':' then skip else throw .malformed

/-- The end of a list. -/
def closeList : Reader Unit := do
  if (← token) = byte ']' then skip else throw .malformed

/-- The end of an object. -/
def closeObject : Reader Unit := do
  if (← token) = byte '\x7d' then skip else throw .malformed

/-! ### Trees -/

/-- How numbers and strings are read. -/
structure Leaves where
  number : Reader Number
  text : Reader String

/-- Numbers and strings are kept. -/
def Leaves.kept : Leaves := ⟨Json.number, Json.text⟩

/-- Numbers and strings are passed over. -/
def Leaves.skipped : Leaves where
  number := do skipNumber; return .integer 0
  text := do skipText; return ""

mutual

/-- A value in which fewer than `depth` lists and objects stand one within the other; `fuel`
    bounds the number of bytes that begin or separate values. -/
def valueWithin (leaves : Leaves) : (fuel depth : Nat) → Reader Value
  | 0, _ => throw .malformed
  | fuel + 1, depth => do
    match Start.of (← token) with
    | .null => word [byte 'n', byte 'u', byte 'l', byte 'l']; return .null
    | .yes => word [byte 't', byte 'r', byte 'u', byte 'e']; return .boolean true
    | .no => word [byte 'f', byte 'a', byte 'l', byte 's', byte 'e']; return .boolean false
    | .minus | .digit => return .number (← leaves.number)
    | .quote => return .text (← leaves.text)
    | .list =>
      if depth ≤ 1 then throw .malformed
      skip
      return .list (← itemsWithin leaves fuel (depth - 1) true)
    | .object =>
      if depth ≤ 1 then throw .malformed
      skip
      return .object (← membersWithin leaves fuel (depth - 1) true)
    | .nothing => throw .malformed

/-- The items of a list and its end. -/
def itemsWithin (leaves : Leaves) : (fuel depth : Nat) → (first : Bool) → Reader (List Value)
  | 0, _, _ => throw .malformed
  | fuel + 1, depth, first => do
    if ← moreItems first then
      let v ← valueWithin leaves fuel depth
      return v :: (← itemsWithin leaves fuel depth false)
    else
      skip
      return []

/-- The members of an object and its end. -/
def membersWithin (leaves : Leaves) :
    (fuel depth : Nat) → (first : Bool) → Reader (List (String × Value))
  | 0, _, _ => throw .malformed
  | fuel + 1, depth, first => do
    if ← moreMembers first then
      let name ← leaves.text
      colon
      let v ← valueWithin leaves fuel depth
      return (name, v) :: (← membersWithin leaves fuel depth false)
    else
      skip
      return []

end

/-- More than the bytes left, which bounds the steps of a reader. -/
def bound : Reader Nat := do return (← get).length + 1

/-- A value that is kept, where `depth` more levels are allowed. -/
def value (depth : Nat) : Reader Value := do
  valueWithin .kept (2 * (← bound)) depth

/-- Passes over a value. -/
def skipValue : Reader Unit := do
  let n ← bound
  let _ ← valueWithin .skipped (2 * n) (n + 1)

/-- Reads a value that is not `expected`, and says so; of a list or an object, the first byte
    is enough. -/
def refuse {α : Type} (expected : String) : Reader α := do
  match Start.of (← token) with
  | .list => mismatch (.wrongType .list expected)
  | .object => mismatch (.wrongType .object expected)
  | _ => do mismatch (.wrongType (← value 1).found expected)

end GridRobot.Json
