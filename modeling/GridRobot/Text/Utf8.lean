/-!
# Text as bytes

UTF-8 is read by a machine that takes a byte at a time. Between characters it is
`ready`; inside one it knows how many bytes are owed, between which bounds the
next one must lie, and the bits collected so far. The bounds rule out overlong
forms, surrogates and numbers past the last character.

A byte that the machine refuses ends the character begun before it. `decode?`
then gives up; `decodeLossy` writes one replacement character for what was
begun and looks at the byte afresh.
-/

namespace GridRobot.Utf8

/-- Stands for bytes that are not text. -/
def replacement : Char := '\uFFFD'

/-- What has been read of a character. -/
inductive State
  /-- Nothing. -/
  | ready
  /-- `owed + 1` bytes are missing, the next one between `low` and `high`; `bits` is the
      number read so far. -/
  | inside (owed : Nat) (low high : UInt8) (bits : Nat)
  deriving DecidableEq

namespace State

/-- The state after the first byte of a character of more than one byte. -/
def lead? (b : UInt8) : Option State :=
  if 0xC2 ≤ b ∧ b ≤ 0xDF then some (.inside 0 0x80 0xBF (b.toNat - 0xC0))
  else if b = 0xE0 then some (.inside 1 0xA0 0xBF 0)
  else if b = 0xED then some (.inside 1 0x80 0x9F 0xD)
  else if 0xE1 ≤ b ∧ b ≤ 0xEF then some (.inside 1 0x80 0xBF (b.toNat - 0xE0))
  else if b = 0xF0 then some (.inside 2 0x90 0xBF 0)
  else if b = 0xF4 then some (.inside 2 0x80 0x8F 4)
  else if 0xF1 ≤ b ∧ b ≤ 0xF3 then some (.inside 2 0x80 0xBF (b.toNat - 0xF0))
  else none

/-- Reads one byte: the character it ends, if any, and the state after it, or nothing if
    it cannot stand here. -/
def accept : State → UInt8 → Option (Option Char × State)
  | ready, b =>
    if b < 0x80 then some (some (Char.ofNat b.toNat), ready)
    else (lead? b).map (none, ·)
  | inside owed low high bits, b =>
    if low ≤ b ∧ b ≤ high then
      let bits := bits * 64 + (b.toNat - 0x80)
      match owed with
      | 0 => some (some (Char.ofNat bits), ready)
      | owed + 1 => some (none, inside owed 0x80 0xBF bits)
    else none

/-- Reads one byte and writes what is decided by it. -/
def feed (s : State) (b : UInt8) : List Char × State :=
  match s.accept b with
  | some (c, t) => (c.toList, t)
  | none =>
    match s with
    | ready => ([replacement], ready)
    | inside .. =>
      match ready.accept b with
      | some (c, t) => (replacement :: c.toList, t)
      | none => ([replacement, replacement], ready)

/-- What is written for a character that the end of the bytes cuts off. -/
def flush : State → List Char
  | ready => []
  | inside .. => [replacement]

end State

/-- The text of the bytes that follow those which led to state `s`. -/
def decodeLossyFrom (s : State) : List UInt8 → List Char
  | [] => s.flush
  | b :: bytes => (s.feed b).1 ++ decodeLossyFrom (s.feed b).2 bytes

/-- The text of `bytes`, with one replacement character for each longest run of bytes that
    begins a character but does not go on as one. -/
def decodeLossy (bytes : List UInt8) : List Char := decodeLossyFrom .ready bytes

/-- The text of the bytes that follow those which led to state `s`, if they are text. -/
def decodeFrom? (s : State) : List UInt8 → Option (List Char)
  | [] => if s = .ready then some [] else none
  | b :: bytes => do
    let (c, t) ← s.accept b
    return c.toList ++ (← decodeFrom? t bytes)

/-- The text of `bytes`, if they are text. -/
def decode? (bytes : List UInt8) : Option (List Char) := decodeFrom? .ready bytes

/-- The bytes of a text. -/
def encode (text : List Char) : List UInt8 := text.flatMap String.utf8EncodeChar

end GridRobot.Utf8
