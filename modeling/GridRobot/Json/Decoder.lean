import GridRobot.Json.Value

/-!
# Decoders

A decoder reads a value of some type in two ways: straight from a text, where the
first thing that is wrong is reported, and from a tree, where the text is
already known to be JSON. Decoders of numbers, choices and records are built
here once for both ways.

A *record* is a list of members. It is written as an object, in any order and
with members of other names in between, or as a list of the values of its
members in their order. While it is read, what is known of it is kept in a
partial record `σ`.
-/

namespace GridRobot.Json

/-- Reads values of type `α`, from texts and from trees. -/
structure Decoder (α : Type) where
  read : Reader α
  ofValue : Value → Except Fault α

namespace Decoder

variable {α β : Type}

/-- The values of `d` for which `f` finds no fault. -/
def check (d : Decoder α) (f : α → Except Fault β) : Decoder β where
  read := do settle (f (← d.read))
  ofValue v := do f (← d.ofValue v)

/-- The values of `d`, each made into another by `f`. -/
def map (f : α → β) (d : Decoder α) : Decoder β := d.check fun a => .ok (f a)

/-- An integer between `low` and `high`. -/
def ranged (expected : String) (low high : Int) : Number → Except Fault Int
  | .integer n => if low ≤ n ∧ n ≤ high then .ok n else .error (.wrongValue (.integer n) expected)
  | .float x => .error (.wrongType (.float x) expected)

/-- The integers between `low` and `high`, which are called `expected`. -/
def integer (expected : String) (low high : Int) : Decoder Int where
  read := do
    match Start.of (← token) with
    | .minus | .digit => do settle (ranged expected low high (← number))
    | _ => refuse expected
  ofValue
    | .number n => ranged expected low high n
    | v => .error (.wrongType v.found expected)

/-- The two truth values; nothing else counts as one. -/
def boolean : Decoder Bool where
  read := do
    match Start.of (← token) with
    | .yes => word [byte 't', byte 'r', byte 'u', byte 'e']; return true
    | .no => word [byte 'f', byte 'a', byte 'l', byte 's', byte 'e']; return false
    | _ => refuse "a boolean"
  ofValue
    | .boolean b => .ok b
    | v => .error (.wrongType v.found "a boolean")

end Decoder

/-! ### Choices -/

/-- Names and what they stand for. -/
abbrev Choices (α : Type) := List (String × α)

/-- What a name stands for. -/
def Choices.find {α : Type} (choices : Choices α) (name : String) : Except Fault α :=
  match choices.lookup name with
  | some a => .ok a
  | none => .error (.unknownName name (choices.map Prod.fst))

/-- A name out of `choices`. -/
def choiceName {α : Type} (choices : Choices α) : Reader α := do
  match Start.of (← token) with
  | .quote => do settle (choices.find (← text))
  | _ => refuse "variant identifier"

/-- The null that may stand beside a name. -/
def unit : Reader Unit := do
  match Start.of (← token) with
  | .null => word [byte 'n', byte 'u', byte 'l', byte 'l']
  | _ => refuse "unit"

/-- The value that stands beside a name in a tree. -/
def unitOfValue : Value → Except Fault Unit
  | .null | .object [] => .ok ()
  | v => .error (.wrongType v.found "unit")

/-- One of `choices`: its name, or an object that gives this name the value null. -/
def Decoder.choice {α : Type} (choices : Choices α) : Decoder α where
  read := do
    match Start.of (← token) with
    | .quote => choiceName choices
    | .object =>
      skip
      let a ← choiceName choices
      colon
      unit
      closeObject
      return a
    | _ => throw .malformed
  ofValue
    | .text name => choices.find name
    | .object [(name, v)] => do
      let a ← choices.find name
      unitOfValue v
      return a
    | .object _ => .error (.wrongValue .object "map with a single key")
    | v => .error (.wrongType v.found "string or map")

/-! ### Records -/

/-- A member of a record of which `σ` is known while it is read. -/
structure Member (σ : Type) where
  name : String
  /-- The member has been read. -/
  known : σ → Bool
  fill : Decoder (σ → σ)
  /-- The record is complete without the member. -/
  optional : Bool

/-- How a record is read. -/
structure Record (σ α : Type) where
  /-- What the record is called. -/
  title : String
  /-- What a list of its values is called. -/
  listTitle : String
  members : List (Member σ)
  /-- Members of other names are refused. -/
  closed : Bool
  /-- Nothing is known. -/
  blank : σ
  finish : σ → Except Fault α

namespace Record

variable {σ α : Type} (r : Record σ α)

/-- The first member that is missing. -/
def missing? (s : σ) : Option String :=
  (r.members.find? fun m => !m.known s && !m.optional).map Member.name

/-- The record of which everything is known. -/
def complete (s : σ) : Except Fault α :=
  match r.missing? s with
  | some name => .error (.missingMember name)
  | none => r.finish s

/-- The values of `members`, of which `count` were read before; the list is not closed. -/
def readItems (count : Nat) (first : Bool) (s : σ) : List (Member σ) → Reader σ
  | [] => return s
  | m :: ms => do
    if ← moreItems first then
      let f ← m.fill.read
      readItems (count + 1) false (f s) ms
    else if m.optional then readItems (count + 1) first s ms
    else mismatch (.wrongLength count r.listTitle)

/-- The members of an object up to its end. -/
def readMembers : (fuel : Nat) → (first : Bool) → σ → Reader σ
  | 0, _, _ => throw .malformed
  | fuel + 1, first, s => do
    if ← moreMembers first then
      let name ← text
      match r.members.find? (·.name = name) with
      | some m =>
        if m.known s then mismatch (.duplicateMember name)
        colon
        let f ← m.fill.read
        readMembers fuel false (f s)
      | none =>
        if r.closed then mismatch (.unknownMember name (r.members.map Member.name))
        colon
        skipValue
        readMembers fuel false s
    else return s

/-- The values of `members` in a tree, of which `count` came before. -/
def ofItems (count : Nat) (s : σ) : List (Member σ) → List Value → Except Fault σ
  | [], [] => .ok s
  | [], vs =>
    .error (.wrongLength (count + vs.length)
      (toString count ++ (if count = 1 then " element in sequence" else " elements in sequence")))
  | m :: ms, v :: vs => do
    let f ← m.fill.ofValue v
    ofItems (count + 1) (f s) ms vs
  | m :: ms, [] =>
    if m.optional then ofItems count s ms [] else .error (.wrongLength count r.listTitle)

/-- The members of an object in a tree. -/
def ofMembers (s : σ) : List (String × Value) → Except Fault σ
  | [] => .ok s
  | (name, v) :: rest =>
    match r.members.find? (·.name = name) with
    | some m => do
      if m.known s then throw (.duplicateMember name)
      let f ← m.fill.ofValue v
      ofMembers (f s) rest
    | none => do
      if r.closed then throw (.unknownMember name (r.members.map Member.name))
      ofMembers s rest

/-- Reads a record as an object or as a list. -/
def decoder : Decoder α where
  read := do
    match Start.of (← token) with
    | .list =>
      skip
      let s ← r.readItems 0 true r.blank r.members
      let a ← settle (r.finish s)
      closeList
      return a
    | .object =>
      skip
      let s ← r.readMembers (← bound) true r.blank
      let a ← settle (r.complete s)
      closeObject
      return a
    | _ => refuse r.title
  ofValue
    | .list vs => do r.finish (← r.ofItems 0 r.blank r.members vs)
    | .object ms => do r.complete (← r.ofMembers r.blank ms)
    | v => .error (.wrongType v.found r.title)

end Record

/-- The value of a whole text. -/
def run {α : Type} (read : Reader α) (bytes : List UInt8) : Except Error α := do
  let (a, rest) ← read bytes
  if rest.all isBlank then return a else throw .malformed

end GridRobot.Json
