import GridRobot.Json.Forms

/-!
# Messages as JSON

A message is an object with the members of its payload and a member `type` that
says which message it is. The tag may stand anywhere among the members, so these
are kept as trees until the object ends, and only then read as the payload of
that message. Instead of an object there may be a list of the tag and the
values of the payload.
-/

namespace GridRobot.Json

/-- Which message an object is. -/
inductive Tag
  | warning
  | done
  | location
  | blockDetected
  | movement
  | finish
  | stateChange
  deriving DecidableEq

/-- The tags by their names. They tell more than kinds do: a location with an obstacle has one of
    its own. -/
def tagChoices : Choices Tag :=
  [("Warning", .warning), ("Done", .done), ("Location", .location),
   ("BlockDetected", .blockDetected), ("Movement", .movement), ("End", .finish),
   ("StateChange", .stateChange)]

/-- What a complaint calls the form of a message. -/
def messageTitle : String := "internally tagged enum Message"

/-- A message without payload takes an object with any members, or an empty list. -/
def emptyPayload : Value → Except Fault Unit
  | .list [] | .object _ => .ok ()
  | .list vs => .error (.wrongLength vs.length "0 elements in sequence")
  | v => .error (.wrongType v.found messageTitle)

/-- The message of a tag and a payload. -/
def Tag.message (payload : Value) : Tag → Except Fault Message
  | warning => do return .warning (← warningRecord.decoder.ofValue payload)
  | location => do return .location (← cellRecord.decoder.ofValue payload)
  | blockDetected => do
    let (robot, block) ← blockRecord.decoder.ofValue payload
    return .blockDetected robot block
  | movement => do
    let (heading, motion) ← movementRecord.decoder.ofValue payload
    return .movement heading motion
  | done => do emptyPayload payload; return .done
  | finish => do emptyPayload payload; return .finish
  | stateChange => do emptyPayload payload; return .stateChange

/-- How many lists and objects may stand one within the other. -/
def nesting : Nat := 127

/-- The tag of an object and its other members, which are not closed. -/
def taggedMembers :
    (fuel : Nat) → (first : Bool) → Option Tag → Reader (Tag × List (String × Value))
  | 0, _, _ => throw .malformed
  | fuel + 1, first, tag? => do
    if ← moreMembers first then
      let name ← text
      if name = "type" then
        if tag?.isSome then mismatch (.duplicateMember "type")
        colon
        let tag ← choiceName tagChoices
        taggedMembers fuel false (some tag)
      else
        colon
        let v ← value nesting
        let (tag, members) ← taggedMembers fuel false tag?
        return (tag, (name, v) :: members)
    else
      match tag? with
      | some tag => return (tag, [])
      | none => mismatch (.missingMember "type")

/-- The values of a list after its tag; the list is not closed. -/
def payloadItems : (fuel : Nat) → Reader (List Value)
  | 0 => throw .malformed
  | fuel + 1 => do
    if ← moreItems false then
      let v ← value nesting
      return v :: (← payloadItems fuel)
    else return []

/-- Reads a message. -/
def message : Reader Message := do
  match Start.of (← token) with
  | .list =>
    skip
    if ← moreItems true then
      let tag ← choiceName tagChoices
      let items ← payloadItems (← bound)
      closeList
      settle (tag.message (.list items))
    else mismatch (.missingMember "type")
  | .object =>
    skip
    let (tag, members) ← taggedMembers (← bound) true none
    closeObject
    settle (tag.message (.object members))
  | _ => refuse messageTitle

/-- The members of the object of a message. -/
def messageMembers : Message → List (String × Value)
  | .warning n => ("type", .text "Warning") :: warningMembers n
  | .done => [("type", .text "Done")]
  | .location robot => ("type", .text "Location") :: cellMembers robot
  | .blockDetected robot block => ("type", .text "BlockDetected") :: blockMembers robot block
  | .movement heading motion => ("type", .text "Movement") :: movementMembers heading motion
  | .finish => [("type", .text "End")]
  | .stateChange => [("type", .text "StateChange")]

/-- A message is written as an object with its tag first. -/
def ofMessage (m : Message) : Value := .object (messageMembers m)

/-- The message of a JSON text. -/
def messageOfBytes (bytes : List UInt8) : Except Error Message := run message bytes

end GridRobot.Json
