/-!
# Digits

The numbers carried by messages are single decimal digits. Only the ten ASCII
digits are read as such: a digit of another script is not one.
-/

namespace GridRobot

/-- A decimal digit. -/
abbrev Digit := Fin 10

namespace Digit

def zero : Digit := ⟨0, by decide⟩

def one : Digit := ⟨1, by decide⟩

def two : Digit := ⟨2, by decide⟩

def three : Digit := ⟨3, by decide⟩

/-- The greatest digit. -/
def max : Digit := ⟨9, by decide⟩

/-- The digit of value `n`, if there is one. -/
def ofInt? (n : Int) : Option Digit :=
  if h : 0 ≤ n ∧ n < 10 then some ⟨n.toNat, by omega⟩ else none

/-- The digit written `c`; ASCII only. -/
def ofChar? (c : Char) : Option Digit :=
  if h : '0' ≤ c ∧ c ≤ '9' then
    some ⟨c.toNat - 48, by
      have := h.2
      rw [Char.le_def, UInt32.le_iff_toNat_le] at this
      change c.toNat ≤ 57 at this
      omega⟩
  else none

/-- The character of a digit. -/
def toChar (d : Digit) : Char := Nat.digitChar d

@[simp] theorem ofChar?_toChar (d : Digit) : ofChar? d.toChar = some d := by
  revert d
  decide

theorem toNat_toChar (d : Digit) : d.toChar.toNat = d.val + 48 := by
  revert d
  decide

/-- A character is read as the digit that it writes, and as no other. -/
theorem ofChar?_eq_some {c : Char} {d : Digit} : ofChar? c = some d ↔ c = d.toChar := by
  constructor
  · intro h
    rw [ofChar?] at h
    split at h
    · next hc =>
      cases h
      have hlow := hc.1
      rw [Char.le_def, UInt32.le_iff_toNat_le] at hlow
      change 48 ≤ c.toNat at hlow
      rw [← Char.toNat_inj, toNat_toChar]
      simp only
      omega
    · cases h
  · rintro rfl
    exact ofChar?_toChar d

theorem toChar_ne_question (d : Digit) : d.toChar ≠ '?' := by
  revert d
  decide

theorem ofInt?_eq_some {n : Int} {d : Digit} : ofInt? n = some d ↔ (d.val : Int) = n := by
  unfold ofInt?
  constructor
  · intro h
    split at h
    · cases h
      simp only
      omega
    · cases h
  · rintro rfl
    have := d.isLt
    rw [dif_pos (by omega)]
    simp

end Digit

end GridRobot
