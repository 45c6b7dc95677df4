import GridRobot.Cadence.Basic
import GridRobot.Json.Decoder
import GridRobot.Json.Printer
import GridRobot.Message.Basic

/-!
# JSON forms

The JSON form of everything that has one, apart from whole messages: points,
headings, kinds, digits, the payloads of messages, durations and cadences. Of
each there is a value to write and a decoder that reads it.
-/

namespace GridRobot.Json

variable {α β γ : Type}

/-! ### Small records -/

/-- A record of one member. -/
def single (title name : String) (d : Decoder α) (make : α → β) : Record (Option α) β where
  title := title
  listTitle := title ++ " with 1 element"
  members := [⟨name, Option.isSome, d.map fun a _ => some a, false⟩]
  closed := false
  blank := none
  finish
    | some a => .ok (make a)
    | none => .error (.missingMember name)

/-- The members of a record of two. -/
def pairMembers (name₁ : String) (d₁ : Decoder α) (name₂ : String) (d₂ : Decoder β)
    (optional : Bool) : List (Member (Option α × Option β)) :=
  [⟨name₁, fun s => s.1.isSome, d₁.map fun a s => (some a, s.2), optional⟩,
   ⟨name₂, fun s => s.2.isSome, d₂.map fun b s => (s.1, some b), optional⟩]

/-- A record of two members. -/
def pair (title name₁ : String) (d₁ : Decoder α) (name₂ : String) (d₂ : Decoder β)
    (make : α → β → γ) : Record (Option α × Option β) γ where
  title := title
  listTitle := title ++ " with 2 elements"
  members := pairMembers name₁ d₁ name₂ d₂ false
  closed := false
  blank := (none, none)
  finish
    | (some a, some b) => .ok (make a b)
    | (none, _) => .error (.missingMember name₁)
    | (some _, none) => .error (.missingMember name₂)

/-! ### Names -/

/-- The four headings, by their names. -/
def directionChoices : Choices Direction := Direction.all.map fun d => (d.name, d)

/-- The six kinds, by their names. -/
def kindChoices : Choices Kind := Kind.all.map fun k => (k.name, k)

/-- The two motions, by their names. -/
def motionChoices : Choices Motion := [.advance, .turnOnly].map fun m => (m.name, m)

/-- Reads a heading from its name. -/
def directionDecoder : Decoder Direction := .choice directionChoices

/-- Reads a kind from its name. -/
def kindDecoder : Decoder Kind := .choice kindChoices

/-- Reads a motion from its name. -/
def motionDecoder : Decoder Motion := .choice motionChoices

/-- A heading is written by its name. -/
def ofDirection (d : Direction) : Value := .text d.name

/-- A kind is written by its name. -/
def ofKind (k : Kind) : Value := .text k.name

/-- A motion is written by its name. -/
def ofMotion (m : Motion) : Value := .text m.name

/-! ### Numbers -/

/-- An integer is written as a number without a fraction. -/
def ofInteger (n : Int) : Value := .number (.integer n)

/-- A number below 256, which is then looked at again. -/
def digitDecoder : Decoder Digit :=
  (Decoder.integer "u8" 0 255).check fun n =>
    match Digit.ofInt? n with
    | some d => .ok d
    | none => .error (.notADigit n.toNat)

/-- A digit is written as a number. -/
def ofDigit (d : Digit) : Value := ofInteger d.val

/-- An integer of the range of coordinates; none of them is changed by saturating. -/
def coordDecoder : Decoder Coord := (Decoder.integer "i32" minCoord maxCoord).map Coord.saturate

/-! ### Points and payloads -/

/-- A point has two members, its row and its column; both have to be there. -/
def pointRecord : Record (Option Coord × Option Coord) Point :=
  pair "struct Point" "row" coordDecoder "col" coordDecoder Point.mk

/-- A point is written row first. -/
def ofPoint (p : Point) : Value :=
  .object [("row", ofInteger p.row.val), ("col", ofInteger p.col.val)]

/-- The payload of a location. Its members are those of a point, but have to be digits. -/
def cellRecord : Record (Option Digit × Option Digit) Cell :=
  pair "struct Location" "row" digitDecoder "col" digitDecoder Cell.mk

/-- What is written of a cell, row first. -/
def cellMembers (c : Cell) : List (String × Value) :=
  [("row", ofDigit c.row), ("col", ofDigit c.col)]

/-- A cell is written like its point. -/
def ofCell (c : Cell) : Value := .object (cellMembers c)

/-- The payload of a warning. -/
def warningRecord : Record (Option Digit) Digit :=
  single "struct Warning" "instructions" digitDecoder id

/-- What is written of a warning. -/
def warningMembers (n : Digit) : List (String × Value) := [("instructions", ofDigit n)]

/-- The payload of a location with an obstacle. -/
def blockRecord : Record (Option Cell × Option Cell) (Cell × Cell) :=
  pair "struct BlockDetected" "robot" cellRecord.decoder "block" cellRecord.decoder Prod.mk

/-- What is written of a location with an obstacle, the robot first. -/
def blockMembers (robot block : Cell) : List (String × Value) :=
  [("robot", ofCell robot), ("block", ofCell block)]

/-- The payload of a movement. -/
def movementRecord : Record (Option Direction × Option Bool) (Direction × Motion) :=
  pair "struct Movement" "direction" directionDecoder "is_move" Decoder.boolean
    fun d moves => (d, Motion.ofBool moves)

/-- What is written of a movement; that it advances is a truth value here, not a name. -/
def movementMembers (heading : Direction) (motion : Motion) : List (String × Value) :=
  [("direction", ofDirection heading), ("is_move", .boolean motion.moves)]

/-! ### Durations and cadences -/

/-- A natural number that fits into a 64-bit word. -/
def word64Decoder : Decoder Nat := (Decoder.integer "u64" 0 maxWord).map Int.toNat

/-- A natural number that fits into a 32-bit word. -/
def word32Decoder : Decoder Nat := (Decoder.integer "u32" 0 0xFFFFFFFF).map Int.toNat

/-- A duration has no members but its own. -/
def durationRecord : Record (Option Nat × Option Nat) Duration where
  title := "struct Duration"
  listTitle := "struct Duration"
  members := pairMembers "secs" word64Decoder "nanos" word32Decoder false
  closed := true
  blank := (none, none)
  finish s :=
    match Duration.ofParts? (s.1.getD 0) (s.2.getD 0) with
    | some d => .ok d
    | none => .error .durationOverflow

/-- A duration is written in whole seconds and the nanoseconds beyond them. -/
def ofDuration (d : Duration) : Value :=
  .object [("secs", ofInteger d.seconds), ("nanos", ofInteger d.nanos)]

/-- The waits of a cadence that are missing have their usual length. -/
def cadenceRecord : Record (Option Duration × Option Duration) Cadence where
  title := "struct DispatchConfig"
  listTitle := "struct DispatchConfig"
  members :=
    pairMembers "outbound_wait" durationRecord.decoder "inbound_wait" durationRecord.decoder true
  closed := false
  blank := (none, none)
  finish s := .ok
    { outbound := s.1.getD (default : Cadence).outbound,
      inbound := s.2.getD (default : Cadence).inbound }

/-- A cadence is written with both of its waits. -/
def ofCadence (c : Cadence) : Value :=
  .object [("outbound_wait", ofDuration c.outbound), ("inbound_wait", ofDuration c.inbound)]

end GridRobot.Json
