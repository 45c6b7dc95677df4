import GridRobot.Text.Utf8
import GridRobot.Wire.Classify

/-!
# Messages as bytes

Links carry bytes. A message travels as the bytes of its token; what arrives is
made into text, bad bytes replaced, and classified.
-/

namespace GridRobot

/-- The text of a token that arrived as bytes. -/
def tokenOfBytes (bytes : List UInt8) : String := String.ofList (Utf8.decodeLossy bytes)

/-- The bytes of the token of a message. -/
def Message.bytes (m : Message) : List UInt8 := Utf8.encode m.wire

/-- The message that a token of bytes begins with. -/
def classifyBytes (bytes : List UInt8) : Except MessageError Message :=
  classify (tokenOfBytes bytes)

end GridRobot
