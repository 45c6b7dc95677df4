import GridRobot.Text.Shapeless

/-!
# Quoted text

A text that is named in a message stands between double quotes. Quotes and
backslashes in it are escaped, and so is what could not be seen: some controls
have a letter, the others and all shapeless characters are given by number.
-/

namespace GridRobot

/-- A character as it stands in a quoted text. -/
def escapeChar (c : Char) : List Char :=
  if c = '\x00' then ['\\', '0']
  else if c = '\t' then ['\\', 't']
  else if c = '\r' then ['\\', 'r']
  else if c = '\n' then ['\\', 'n']
  else if c = '"' ∨ c = '\\' then ['\\', c]
  else if isShapeless c then
    ['\\', 'u', '\x7b'] ++ Nat.toDigits 16 c.toNat ++ ['\x7d']
  else [c]

/-- A text between quotes. -/
def quoted (s : String) : String :=
  String.ofList ('"' :: s.toList.flatMap escapeChar ++ ['"'])

end GridRobot
