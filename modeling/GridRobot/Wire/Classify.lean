import GridRobot.Wire.Shape

/-!
# Classifying tokens

A token says what it is only by how it begins. `decodeAs` reads the start of a
token as a message of a given kind, `classifyPrefix` as a message of any kind;
what follows the message is left alone. `classifyAll` reads a whole buffer of
messages written one after the other.
-/

namespace GridRobot

/-- A message read at the start of a token. -/
structure Decoded where
  message : Message
  /-- The part of the token that was read. -/
  raw : String
  deriving DecidableEq

/-- The number of bytes that were read. -/
def Decoded.consumed (d : Decoded) : Nat := d.raw.utf8ByteSize

/-- The message of kind `k` at the start of `token`, and the rest. -/
def Kind.read (k : Kind) (token : List Char) : Option (Message × List Char) :=
  k.shapes.findSome? (·.read token)

/-- The first message that some kind, in trial order, finds at the start of
    `token`, and the rest. -/
def readMessage (token : List Char) : Option (Message × List Char) :=
  Kind.trialOrder.findSome? (·.read token)

/-- A message together with the part of the token that stands before `rest`. -/
def Decoded.of (token : List Char) : Message × List Char → Decoded
  | (m, rest) => ⟨m, String.ofList (token.take (token.length - rest.length))⟩

/-- The message of kind `k` that `token` begins with. -/
def decodeAs (k : Kind) (token : String) : Except MessageError Decoded :=
  match k.read token.toList with
  | some found => .ok (Decoded.of token.toList found)
  | none => .error (.unrecognised (some k) token)

/-- Why no message begins `token`. -/
def MessageError.ofToken (token : List Char) : MessageError :=
  if token = [] then .emptyToken else .unrecognised none (String.ofList token)

/-- The message that `token` begins with. -/
def classifyPrefix (token : String) : Except MessageError Decoded :=
  match readMessage token.toList with
  | some found => .ok (Decoded.of token.toList found)
  | none => .error (.ofToken token.toList)

/-- The message that `token` begins with, whatever follows it. -/
def classify (token : String) : Except MessageError Message :=
  Decoded.message <$> classifyPrefix token

theorem Kind.length_read_lt {k : Kind} {token rest : List Char} {m : Message}
    (h : k.read token = some (m, rest)) : rest.length < token.length := by
  obtain ⟨s, _, hs⟩ := List.exists_of_findSome?_eq_some h
  exact s.length_read_lt hs

theorem length_readMessage_lt {token rest : List Char} {m : Message}
    (h : readMessage token = some (m, rest)) : rest.length < token.length := by
  obtain ⟨k, _, hk⟩ := List.exists_of_findSome?_eq_some h
  exact k.length_read_lt hk

/-- The messages that follow each other in `buffer`, to its very end. -/
def readMessages (buffer : List Char) : Except MessageError (List Message) :=
  if buffer = [] then .ok []
  else
    match _h : readMessage buffer with
    | some (m, rest) => (m :: ·) <$> readMessages rest
    | none => .error (.ofToken buffer)
termination_by buffer.length
decreasing_by exact length_readMessage_lt _h

/-- The messages of a buffer; an empty buffer holds none and is refused. -/
def classifyAll (buffer : String) : Except MessageError (List Message) :=
  if buffer.toList = [] then .error .emptyToken else readMessages buffer.toList

end GridRobot
