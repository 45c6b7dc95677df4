import GridRobot.Proofs.Text.Lossy
import GridRobot.Proofs.Wire.Lossless

/-!
# Classifying bytes

Tokens arrive as bytes, which need not be text. The bytes of a message are ASCII
characters, and no replacement character is one. So replacing what is not text
neither makes a message nor hides one: a message is found exactly if its bytes
begin the token, whatever follows them (`classifyBytes_exact`).
-/

namespace GridRobot

/-! ### What begins a token -/

theorem Message.replacement_not_mem_wire (m : Message) : Utf8.replacement ∉ m.wire :=
  fun hmem => absurd (m.isAscii_wire _ hmem) (by decide)

theorem Message.lt_of_mem_bytes {m : Message} {b : UInt8} (h : b ∈ m.bytes) : b < 0x80 := by
  obtain ⟨c, hc, hb⟩ := List.mem_flatMap.1 h
  have hascii := m.isAscii_wire c hc
  rw [Utf8.encodeChar_of_isAscii hascii, List.mem_singleton] at hb
  rw [hb, UInt8.lt_iff_toNat_lt, UInt32.toNat_toUInt8]
  exact Nat.lt_of_le_of_lt (Nat.mod_le _ _) hascii

/-- What begins the text of a token is what begins its bytes. -/
theorem Message.begins_tokenOfBytes_iff {m : Message} {bytes : List UInt8} :
    m.Begins (tokenOfBytes bytes) ↔ m.bytes <+: bytes := by
  rw [begins_iff, tokenOfBytes, String.toList_ofList]
  exact (Utf8.reads_decodeLossy bytes).isPrefix_iff m.replacement_not_mem_wire

/-! ### Classifying -/

theorem classifyBytes_eq_ok_iff {bytes : List UInt8} {m : Message} :
    classifyBytes bytes = .ok m ↔ m.bytes <+: bytes := by
  rw [classifyBytes, classify_eq_ok_iff, Message.begins_tokenOfBytes_iff]

/-- Of no bytes comes the empty text, and of others another one. -/
theorem tokenOfBytes_eq_empty_iff {bytes : List UInt8} : tokenOfBytes bytes = "" ↔ bytes = [] := by
  rw [← String.toList_inj, tokenOfBytes, String.toList_ofList]
  constructor
  · intro h
    have hreads := Utf8.reads_decodeLossy bytes
    rw [h] at hreads
    cases hreads
    rfl
  · rintro rfl
    rfl

/-- A token of bytes is classified as a message exactly if the bytes of the message, which are ASCII
    characters, begin it; whatever follows these bytes does not hide the message. The text that the
    bytes are made into, with one replacement character for each stump, begins with the messages
    that the bytes begin with, and no others. If there is none, the token is refused as a whole. -/
theorem classifyBytes_exact (bytes : List UInt8) :
    (∀ m : Message, classifyBytes bytes = .ok m ↔ m.bytes <+: bytes) ∧
    (∀ m : Message, ∀ b ∈ m.bytes, b < 0x80) ∧
    (∀ m : Message, classifyBytes (m.bytes ++ bytes) = .ok m) ∧
    (∀ m : Message, m.Begins (tokenOfBytes bytes) ↔ m.bytes <+: bytes) ∧
    (∀ text, Utf8.Reads bytes text ↔ text = (tokenOfBytes bytes).toList) ∧
    ((∀ m : Message, ¬m.bytes <+: bytes) →
      classifyBytes bytes =
        .error (if bytes = [] then .emptyToken else .unrecognised none (tokenOfBytes bytes))) := by
  refine ⟨fun m => classifyBytes_eq_ok_iff, fun m b => Message.lt_of_mem_bytes, fun m => ?_,
    fun m => Message.begins_tokenOfBytes_iff, fun text => ?_, fun h => ?_⟩
  · exact classifyBytes_eq_ok_iff.2 (List.prefix_append _ _)
  · have hreads := Utf8.reads_decodeLossy bytes
    rw [tokenOfBytes, String.toList_ofList]
    exact ⟨fun htext => htext.unique hreads, fun htext => htext ▸ hreads⟩
  · have hnone : ∀ m : Message, ¬m.Begins (tokenOfBytes bytes) :=
      fun m hm => h m (Message.begins_tokenOfBytes_iff.1 hm)
    rw [classifyBytes, classify, classifyPrefix_of_not_begins hnone, MessageError.ofToken_toList]
    simp only [tokenOfBytes_eq_empty_iff]
    rfl

/-- A truncated character before a message, and between its bytes, is no part of it. -/
example : classifyBytes [0xE2, 0x82, 0x44] = .error (.unrecognised none "\uFFFDD") ∧
    classifyBytes [0x57, 0xC3, 0x33] = .error (.unrecognised none "W\uFFFD3") ∧
    classifyBytes [0x44, 0xE2, 0x82] = .ok .done := by
  decide

end GridRobot
