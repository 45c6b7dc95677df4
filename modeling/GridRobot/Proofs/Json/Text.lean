import GridRobot.Json.Printer
import GridRobot.Proofs.Json.Reading
import GridRobot.Proofs.Text.Utf8
import GridRobot.Proofs.Wire.Lossless
import Mathlib.Tactic.SplitIfs

/-!
# Strings are read as they are written

A character that is not escaped stands in a string as its bytes, none of which
ends the string or begins an escape (`isPlain_of_mem_encodeChar`); an escaped one
is read as the bytes that it stands for (`scanText_writeChar`). So a string is
read as its own bytes, which are its text (`text_writeText`).
-/

namespace GridRobot

namespace Utf8

variable {c : Char} {text : List Char} {bytes rest : List UInt8} {s : State}

theorem decodeFrom?_cons (s : State) (b : UInt8) (rest : List UInt8) :
    decodeFrom? s (b :: rest) =
      (s.accept b).bind fun r => (decodeFrom? r.2 rest).map (r.1.toList ++ ·) := by
  rw [decodeFrom?]
  cases s.accept b with
  | none => rfl
  | some r =>
    show (decodeFrom? r.2 rest >>= _) = (decodeFrom? r.2 rest).map _
    cases decodeFrom? r.2 rest <;> rfl

theorem State.Ends.decodeFrom?_append (h : s.Ends bytes c) (rest : List UInt8) :
    decodeFrom? s (bytes ++ rest) = (decodeFrom? .ready rest).map (c :: ·) := by
  induction h with
  | last h =>
    rw [List.singleton_append, decodeFrom?_cons, h]
    rfl
  | next h _ ih =>
    rw [List.cons_append, decodeFrom?_cons, h, Option.bind_some, ih]
    exact Option.map_id'

/-- The bytes of a text are read as that text. -/
theorem decode?_encode (text : List Char) : decode? (encode text) = some text := by
  rw [decode?, encode]
  induction text with
  | nil => rfl
  | cons c text ih =>
    rw [List.flatMap_cons, (State.ends_ready_iff.2 rfl).decodeFrom?_append, ih]
    rfl

theorem encode_append (text text' : List Char) :
    encode (text ++ text') = encode text ++ encode text' := List.flatMap_append

theorem le_of_mem_tails {k n : Nat} {b : UInt8} (h : b ∈ tails k n) : 0x80 ≤ b.toNat := by
  induction k with
  | zero => cases h
  | succ k ih =>
    rcases List.mem_cons.1 h with rfl | h
    · rw [UInt8.toNat_ofNat']
      omega
    · exact ih h

theorem le_of_mem_cons_tails {j k n : Nat} {b : UInt8} (hj : 0x80 ≤ j ∧ j < 0x100)
    (h : b ∈ UInt8.ofNat j :: tails k n) : 0x80 ≤ b.toNat := by
  rcases List.mem_cons.1 h with rfl | h
  · rw [UInt8.toNat_ofNat']
    omega
  · exact le_of_mem_tails h

/-- The bytes of a character of more than one byte are none of an ASCII character. -/
theorem le_of_mem_encodeChar {b : UInt8} (hc : ¬IsAscii c) (hb : b ∈ String.utf8EncodeChar c) :
    0x80 ≤ b.toNat := by
  have hc : 0x80 ≤ c.toNat := Nat.le_of_not_lt hc
  have hlt : c.toNat < 0x110000 := by
    rcases c.valid with h | h
    · exact Nat.lt_trans h (by decide)
    · exact h.2
  have hbytes := encodeChar_eq c.valid
  rw [Char.toNat_val, Char.ofNat_toNat, if_neg (by omega)] at hbytes
  rw [hbytes] at hb
  split_ifs at hb with htwo hthree
  · exact le_of_mem_cons_tails (by omega) hb
  · exact le_of_mem_cons_tails (by omega) hb
  · exact le_of_mem_cons_tails (by omega) hb

end Utf8

namespace Json

variable {c : Char} {out rest rest' : List UInt8} {b : UInt8}

/-! ### Bytes of strings -/

theorem toNat_byte (hc : IsAscii c) : (byte c).toNat = c.toNat := by
  show c.val.toUInt8.toNat = _
  rw [UInt32.toNat_toUInt8]
  exact Nat.mod_eq_of_lt (Nat.lt_trans hc (by decide))

/-- ASCII characters are one byte each. -/
theorem encode_of_isAscii {cs : List Char} (hcs : ∀ c ∈ cs, IsAscii c) :
    Utf8.encode cs = cs.map byte := by
  rw [Utf8.encode]
  induction cs with
  | nil => rfl
  | cons c cs ih =>
    obtain ⟨hc, hcs⟩ := List.forall_mem_cons.1 hcs
    rw [List.flatMap_cons, Utf8.encodeChar_of_isAscii hc, ih hcs]
    rfl

/-- The byte stands for itself in a string. -/
def IsPlain (b : UInt8) : Prop := b ≠ byte '"' ∧ b ≠ byte '\\' ∧ ¬b < 0x20

theorem isPlain_of_le (h : 0x80 ≤ b.toNat) : IsPlain b := by
  refine ⟨?_, ?_, fun hlt => ?_⟩
  · rintro rfl
    exact absurd h (by decide)
  · rintro rfl
    exact absurd h (by decide)
  · have hlt : b.toNat < 0x20 := UInt8.lt_iff_toNat_lt.1 hlt
    omega

/-- Of a character that is not escaped, all bytes stand for themselves. -/
theorem isPlain_of_mem_encodeChar (hquote : c ≠ '"') (hbackslash : c ≠ '\\')
    (hcontrol : ¬c.toNat < 0x20) (hb : b ∈ String.utf8EncodeChar c) : IsPlain b := by
  by_cases hc : IsAscii c
  · rw [Utf8.encodeChar_of_isAscii hc, List.mem_singleton] at hb
    have hval : b.toNat = c.toNat := hb ▸ toNat_byte hc
    refine ⟨?_, ?_, fun hlt => ?_⟩
    · rintro rfl
      exact hquote (Char.toNat_inj.1 hval.symm)
    · rintro rfl
      exact hbackslash (Char.toNat_inj.1 hval.symm)
    · exact hcontrol (hval ▸ UInt8.lt_iff_toNat_lt.1 hlt)
  · exact isPlain_of_le (Utf8.le_of_mem_encodeChar hc hb)

/-- A hexadecimal digit is one byte, and has its value. -/
theorem hexValue?_digitChar {k : Nat} (hk : k < 16) :
    String.utf8EncodeChar k.digitChar = [byte k.digitChar] ∧
      hexValue? (byte k.digitChar) = some k := by
  revert k
  decide

/-! ### Strings -/

theorem scanText_plain (hb : IsPlain b) (h : scanText true .plain rest = .ok (out, rest')) :
    scanText true .plain (b :: rest) = .ok (b :: out, rest') := by
  rw [scanText, if_neg hb.1, if_neg hb.2.1, if_neg hb.2.2, h]
  rfl

theorem scanText_plain_append {bytes : List UInt8} (hbytes : ∀ b ∈ bytes, IsPlain b)
    (h : scanText true .plain rest = .ok (out, rest')) :
    scanText true .plain (bytes ++ rest) = .ok (bytes ++ out, rest') := by
  induction bytes with
  | nil => exact h
  | cons b bytes ih =>
    obtain ⟨hb, hbytes⟩ := List.forall_mem_cons.1 hbytes
    exact scanText_plain hb (ih hbytes)

/-- A backslash and a letter are read as the byte that they stand for. -/
theorem scanText_escape {b' : UInt8} (hb : escaped? b = some b') (hu : b ≠ byte 'u')
    (h : scanText true .plain rest = .ok (out, rest')) :
    scanText true .plain (byte '\\' :: b :: rest) = .ok (b' :: out, rest') := by
  rw [scanText, if_neg (by decide), if_pos rfl, scanText, if_neg hu, hb, h]
  rfl

theorem scanText_digit {missing value k : Nat} {high : Option Nat} (hk : k < 16) :
    scanText true (.unit (missing + 1) value high) (byte k.digitChar :: rest) =
      scanText true (.unit missing (value * 16 + k) high) rest := by
  rw [scanText, (hexValue?_digitChar hk).2]

/-- A code unit that is a control is read as that character. -/
theorem scanText_control {k : Nat} (hk : k < 0x20)
    (h : scanText true .plain rest = .ok (out, rest')) :
    scanText true .plain
        (Utf8.encode ['\\', 'u', '0', '0', (k / 16).digitChar, (k % 16).digitChar] ++ rest) =
      .ok (String.utf8EncodeChar (Char.ofNat k) ++ out, rest') := by
  have hhigh := hexValue?_digitChar (k := k / 16) (by omega)
  have hlow := hexValue?_digitChar (k := k % 16) (by omega)
  have hbytes : Utf8.encode ['\\', 'u', '0', '0', (k / 16).digitChar, (k % 16).digitChar] =
      [byte '\\', byte 'u', byte '0', byte '0', byte (k / 16).digitChar,
        byte (k % 16).digitChar] := by
    show _ ++ (_ ++ (_ ++ (_ ++ (_ ++ (_ ++ []))))) = _
    rw [hhigh.1, hlow.1]
    rfl
  have hvalue : (((0 * 16 + 0) * 16 + 0) * 16 + k / 16) * 16 + k % 16 = k := by omega
  have hunit : takeUnit true none k = .ok (String.utf8EncodeChar (Char.ofNat k), .plain) := by
    have hlow : isLow k = false := by simp [isLow]; omega
    have hhigh : isHigh k = false := by simp [isHigh]; omega
    simp [takeUnit, hlow, hhigh]
  rw [hbytes]
  show scanText true (.unit 3 0 none) (byte (Nat.digitChar 0) :: byte (Nat.digitChar 0) ::
    byte (k / 16).digitChar :: byte (k % 16).digitChar :: rest) = _
  rw [scanText_digit (by decide), scanText_digit (by decide), scanText_digit (by omega), scanText,
    hlow.2]
  dsimp only
  rw [hvalue, hunit]
  show (scanText true .plain rest >>= _) = _
  rw [h]
  rfl

/-- A character is read as its bytes. -/
theorem scanText_writeChar (c : Char) (h : scanText true .plain rest = .ok (out, rest')) :
    scanText true .plain (Utf8.encode (writeChar c) ++ rest) =
      .ok (String.utf8EncodeChar c ++ out, rest') := by
  rw [writeChar]
  split_ifs with hsame hb hf hn hr ht hcontrol
  · rcases hsame with rfl | rfl
    · exact scanText_escape rfl (by decide) h
    · exact scanText_escape rfl (by decide) h
  · exact hb ▸ scanText_escape rfl (by decide) h
  · exact hf ▸ scanText_escape rfl (by decide) h
  · exact hn ▸ scanText_escape rfl (by decide) h
  · exact hr ▸ scanText_escape rfl (by decide) h
  · exact ht ▸ scanText_escape rfl (by decide) h
  · have hread := scanText_control hcontrol h
    rwa [Char.ofNat_toNat] at hread
  · rw [not_or] at hsame
    have hencode : Utf8.encode [c] = String.utf8EncodeChar c := List.append_nil _
    rw [hencode]
    exact scanText_plain_append (fun b => isPlain_of_mem_encodeChar hsame.1 hsame.2 hcontrol) h

theorem scanText_flatMap_writeChar (cs : List Char) (rest : List UInt8) :
    scanText true .plain (Utf8.encode (cs.flatMap writeChar) ++ byte '"' :: rest) =
      .ok (Utf8.encode cs, rest) := by
  induction cs with
  | nil => rfl
  | cons c cs ih =>
    rw [List.flatMap_cons, Utf8.encode_append, List.append_assoc, scanText_writeChar c ih]
    rfl

/-- A string is read as it is written. -/
theorem text_writeText (s : String) (rest : List UInt8) :
    text (Utf8.encode (writeText s) ++ rest) = .ok (s, rest) := by
  have hbytes : Utf8.encode (writeText s) ++ rest =
      byte '"' :: (Utf8.encode (s.toList.flatMap writeChar) ++ byte '"' :: rest) := by
    show byte '"' :: (Utf8.encode (s.toList.flatMap writeChar ++ ['"']) ++ rest) = _
    rw [Utf8.encode_append, List.append_assoc]
    rfl
  rw [hbytes, text, bind_eq (skip_cons _ _), bind_eq (get_eq _),
    bind_eq (lift_eq (scanText_flatMap_writeChar s.toList rest) _)]
  dsimp only
  rw [bind_eq (set_eq rest _), Utf8.decode?_encode]
  dsimp only
  rw [String.ofList_toList, pure_eq]

end Json

end GridRobot
