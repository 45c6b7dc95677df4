import GridRobot.Json.Reader
import GridRobot.Text.Utf8

/-!
# Strings

A string is bytes between quotes. A backslash begins an escape; the escapes of
code units beyond the first plane come in pairs of surrogates. The bytes that
result are UTF-8.

Reading is done by a machine, a byte at a time; `Mode` tells where it is. A
string that is passed over need not be text: neither its bytes nor its
surrogates are looked at.
-/

namespace GridRobot.Json

/-- Where the machine is in a string. -/
inductive Mode
  | plain
  /-- After a backslash. -/
  | escape
  /-- Within the four digits of a code unit: how many are missing after the next one, the
      value of those read, and the high surrogate before this code unit. -/
  | unit (missing value : Nat) (high : Option Nat)
  /-- After a high surrogate. -/
  | paired (high : Nat)
  /-- After a high surrogate and a backslash. -/
  | pairedEscape (high : Nat)

/-- The value of a hexadecimal digit. -/
def hexValue? (b : UInt8) : Option Nat :=
  if isDigit b then some (b.toNat - 48)
  else if byte 'a' ≤ b ∧ b ≤ byte 'f' then some (b.toNat - 87)
  else if byte 'A' ≤ b ∧ b ≤ byte 'F' then some (b.toNat - 55)
  else none

/-- The byte that a one-letter escape stands for. -/
def escaped? (b : UInt8) : Option UInt8 :=
  if b = byte '"' ∨ b = byte '\\' ∨ b = byte '/' then some b
  else if b = byte 'b' then some 8
  else if b = byte 'f' then some 12
  else if b = byte 'n' then some 10
  else if b = byte 'r' then some 13
  else if b = byte 't' then some 9
  else none

/-- The first of two code units that make up one character. -/
def isHigh (n : Nat) : Bool := 0xD800 ≤ n && n ≤ 0xDBFF

/-- The second of two such code units. -/
def isLow (n : Nat) : Bool := 0xDC00 ≤ n && n ≤ 0xDFFF

/-- What a code unit adds to a string, and where it leaves the machine. -/
def takeUnit (strict : Bool) (high : Option Nat) (n : Nat) : Except Error (List UInt8 × Mode) :=
  if !strict then .ok ([], .plain)
  else
    match high with
    | none =>
      if isLow n then .error .malformed
      else if isHigh n then .ok ([], .paired n)
      else .ok (String.utf8EncodeChar (Char.ofNat n), .plain)
    | some high =>
      if isLow n then
        .ok (String.utf8EncodeChar (Char.ofNat (0x10000 + (high - 0xD800) * 1024 + (n - 0xDC00))),
          .plain)
      else .error .malformed

/-- The digits of a code unit are looked at only if there are four bytes left. -/
def startUnit (high : Option Nat) : List UInt8 → Except Error Mode
  | _ :: _ :: _ :: _ :: _ => .ok (.unit 3 0 high)
  | _ => .error .truncated

/-- The bytes of a string up to its closing quote, and what follows it. -/
def scanText (strict : Bool) : Mode → List UInt8 → Except Error (List UInt8 × List UInt8)
  | _, [] => .error .truncated
  | .plain, b :: rest =>
    if b = byte '"' then .ok ([], rest)
    else if b = byte '\\' then scanText strict .escape rest
    else if b < 0x20 then .error .malformed
    else do
      let (out, rest) ← scanText strict .plain rest
      return (b :: out, rest)
  | .escape, b :: rest =>
    if b = byte 'u' then do scanText strict (← startUnit none rest) rest
    else
      match escaped? b with
      | some c => do
        let (out, rest) ← scanText strict .plain rest
        return (c :: out, rest)
      | none => .error .malformed
  | .unit missing value high, b :: rest =>
    match hexValue? b with
    | none => .error .malformed
    | some d =>
      match missing with
      | missing + 1 => scanText strict (.unit missing (value * 16 + d) high) rest
      | 0 => do
        let (bytes, mode) ← takeUnit strict high (value * 16 + d)
        let (out, rest) ← scanText strict mode rest
        return (bytes ++ out, rest)
  | .paired high, b :: rest =>
    if b = byte '\\' then scanText strict (.pairedEscape high) rest else .error .malformed
  | .pairedEscape high, b :: rest =>
    if b = byte 'u' then do scanText strict (← startUnit (some high) rest) rest
    else .error .malformed

/-- A string, from its opening quote on. -/
def text : Reader String := do
  skip
  let (bytes, rest) ← scanText true .plain (← get)
  set rest
  match Utf8.decode? bytes with
  | some cs => return String.ofList cs
  | none => throw .malformed

/-- Passes over a string, from its opening quote on. -/
def skipText : Reader Unit := do
  skip
  let (_, rest) ← scanText false .plain (← get)
  set rest

end GridRobot.Json
