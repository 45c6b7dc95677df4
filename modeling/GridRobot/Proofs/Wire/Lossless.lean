import GridRobot.Proofs.Wire.Grammar
import GridRobot.Wire.Bytes

/-!
# Messages survive as bytes

The wire form of a message is ASCII text, so that its bytes are made into the
same text again, and classified as the message
(`classifyBytes_bytes`).
-/

namespace GridRobot

/-- A character of one byte. -/
def IsAscii (c : Char) : Prop := c.toNat < 128

instance (c : Char) : Decidable (IsAscii c) := inferInstanceAs (Decidable (c.toNat < 128))

namespace Utf8

theorem encodeChar_of_isAscii {c : Char} (h : IsAscii c) :
    String.utf8EncodeChar c = [c.val.toUInt8] := by
  rw [String.utf8EncodeChar_eq_singleton]
  rw [Char.utf8Size_eq_one_iff, UInt32.le_iff_toNat_le]
  exact Nat.le_of_lt_succ h

/-- Between characters, an ASCII character is read at once. -/
theorem feed_ready_of_isAscii {c : Char} (h : IsAscii c) :
    State.ready.feed c.val.toUInt8 = ([c], .ready) := by
  have hval : c.val.toUInt8.toNat = c.toNat := by
    rw [UInt32.toNat_toUInt8]
    exact Nat.mod_eq_of_lt (Nat.lt_trans h (by decide))
  have hlt : c.val.toUInt8 < 0x80 := by
    rw [UInt8.lt_iff_toNat_lt, hval]
    exact h
  rw [State.feed, State.accept, if_pos hlt, hval, Char.ofNat_toNat]
  rfl

theorem decodeLossy_encode_of_isAscii {text : List Char} (h : ∀ c ∈ text, IsAscii c) :
    decodeLossy (encode text) = text := by
  rw [decodeLossy, encode]
  induction text with
  | nil => rfl
  | cons c text ih =>
    obtain ⟨hc, htext⟩ := List.forall_mem_cons.1 h
    rw [List.flatMap_cons, encodeChar_of_isAscii hc, List.singleton_append, decodeLossyFrom,
      feed_ready_of_isAscii hc, ih htext]
    rfl

end Utf8

theorem Digit.isAscii_toChar (d : Digit) : IsAscii d.toChar := by
  revert d
  decide

namespace Message

theorem isAscii_wire (m : Message) : ∀ c ∈ m.wire, IsAscii c := by
  cases m <;>
    simp [wire, kind, payload, Cell.wire, terminator, Kind.identifier, Digit.isAscii_toChar] <;>
    decide

/-- The bytes of a message are made into its token. -/
theorem tokenOfBytes_bytes (m : Message) : tokenOfBytes m.bytes = m.encode := by
  rw [tokenOfBytes, bytes, Utf8.decodeLossy_encode_of_isAscii m.isAscii_wire, encode]

theorem classify_encode (m : Message) : classify m.encode = .ok m :=
  classify_eq_ok_iff.2 ⟨"", String.append_empty.symm⟩

theorem classifyBytes_bytes (m : Message) : classifyBytes m.bytes = .ok m := by
  rw [classifyBytes, tokenOfBytes_bytes, classify_encode]

end Message

end GridRobot
