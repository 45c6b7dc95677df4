import GridRobot.Json.Error

/-!
# Reading bytes

A reader takes bytes off the front of a text, or refuses it. The readers here
know bytes, blanks between the parts of a value, and fixed words; `Start` sorts
values by the byte they begin with.
-/

namespace GridRobot.Json

/-- Takes a value off the front of a text. -/
abbrev Reader := StateT (List UInt8) (Except Error)

/-- The byte of an ASCII character. -/
abbrev byte (c : Char) : UInt8 := c.toUInt8

/-- The text is not what is asked for. -/
def mismatch {α : Type} (fault : Fault) : Reader α := throw (.mismatch fault)

/-- The outcome of a check of what was read. -/
def settle {α : Type} : Except Fault α → Reader α
  | .ok a => pure a
  | .error fault => mismatch fault

/-- One of the four bytes that may stand between values. -/
def isBlank (b : UInt8) : Bool :=
  b = byte ' ' || b = byte '\n' || b = byte '\t' || b = byte '\r'

/-- The byte of a decimal digit. -/
def isDigit (b : UInt8) : Bool := byte '0' ≤ b && b ≤ byte '9'

/-- The next byte, left where it is. -/
def peek : Reader (Option UInt8) := do return (← get).head?

/-- Drops the next byte. -/
def skip : Reader Unit := modify (·.drop 1)

/-- The next byte after blanks, left where it is. -/
def token? : Reader (Option UInt8) := do
  modify (·.dropWhile isBlank)
  peek

/-- The next byte after blanks, where the text may not end. -/
def token : Reader UInt8 := do
  match ← token? with
  | some b => return b
  | none => throw .truncated

/-- The bytes `word`, one by one. -/
def word : List UInt8 → Reader Unit
  | [] => return
  | w :: ws => do
    match ← peek with
    | none => throw .truncated
    | some b => if b = w then do skip; word ws else throw .malformed

/-- The longest run of digits, as numbers. -/
def digits : Reader (List Nat) := do
  let rest ← get
  set (rest.dropWhile isDigit)
  return (rest.takeWhile isDigit).map fun b => b.toNat - 48

/-- A run of digits, at least one. -/
def digits₁ : Reader (List Nat) := do
  match ← peek with
  | none => throw .truncated
  | some b => if isDigit b then digits else throw .malformed

/-- What a value can be, by its first byte. -/
inductive Start
  | null
  | yes
  | no
  | minus
  | digit
  | quote
  | list
  | object
  | nothing

/-- What begins with a byte; a minus can only begin a number. -/
def Start.of (b : UInt8) : Start :=
  if b = byte 'n' then .null
  else if b = byte 't' then .yes
  else if b = byte 'f' then .no
  else if b = byte '-' then .minus
  else if isDigit b then .digit
  else if b = byte '"' then .quote
  else if b = byte '[' then .list
  else if b = byte '\x7b' then .object
  else .nothing

end GridRobot.Json
