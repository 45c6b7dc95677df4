import GridRobot.Digit

/-!
# Coordinates

A coordinate is an integer in the range of a signed 32-bit word. Sums and
differences that leave the range stop at its ends (`Coord.saturate`), so moving
on the grid never wraps around.

* `Coord.val_saturate`: saturating keeps an integer of the range as it is;
* `Coord.ofInt?_eq_some`: exactly the integers of the range are coordinates;
* `Coord.clamp_mem`: a coordinate that was moved into a range is in it.
-/

namespace GridRobot

/-- The least coordinate. -/
abbrev minCoord : Int := -2147483648

/-- The greatest coordinate. -/
abbrev maxCoord : Int := 2147483647

/-- A coordinate of the grid, on either axis. -/
structure Coord where
  val : Int
  min_le : minCoord ≤ val := by decide
  le_max : val ≤ maxCoord := by decide
  deriving DecidableEq

namespace Coord

def zero : Coord := { val := 0 }

def one : Coord := { val := 1 }

def minusOne : Coord := { val := -1 }

instance : Inhabited Coord := ⟨zero⟩

@[ext] theorem ext {a b : Coord} (h : a.val = b.val) : a = b := by
  cases a; cases b; cases h; rfl

theorem val_inj {a b : Coord} : a.val = b.val ↔ a = b := ⟨ext, congrArg val⟩

/-- The coordinate nearest to `n`. -/
def saturate (n : Int) : Coord where
  val := max minCoord (min n maxCoord)
  min_le := by unfold minCoord maxCoord; omega
  le_max := by unfold minCoord maxCoord; omega

/-- The coordinate `n`, if it is in range. -/
def ofInt? (n : Int) : Option Coord :=
  if h : minCoord ≤ n ∧ n ≤ maxCoord then some ⟨n, h.1, h.2⟩ else none

/-- A digit's value as a coordinate. -/
def ofDigit (d : Digit) : Coord where
  val := d.val
  min_le := by unfold minCoord; omega
  le_max := by unfold maxCoord; omega

instance : Add Coord := ⟨fun a b => saturate (a.val + b.val)⟩

instance : Sub Coord := ⟨fun a b => saturate (a.val - b.val)⟩

/-- The coordinate moved into the range from `low` to `high`; where the range is
    empty, values above `high` go to `low`. -/
def clamp (a low high : Coord) : Coord :=
  if a.val < low.val then low
  else if high.val < a.val then (if low.val ≤ high.val then high else low)
  else a

theorem val_saturate {n : Int} (h₁ : minCoord ≤ n) (h₂ : n ≤ maxCoord) :
    (saturate n).val = n := by
  simp only [saturate]
  omega

theorem ofInt?_eq_some {n : Int} {a : Coord} : ofInt? n = some a ↔ a.val = n := by
  unfold ofInt?
  constructor
  · intro h
    split at h
    · cases h; rfl
    · cases h
  · rintro rfl
    simp [a.min_le, a.le_max]

theorem val_add (a b : Coord) : (a + b).val = max minCoord (min (a.val + b.val) maxCoord) := rfl

theorem clamp_mem {low high : Coord} (a : Coord) (h : low.val ≤ high.val) :
    low.val ≤ (a.clamp low high).val ∧ (a.clamp low high).val ≤ high.val := by
  unfold clamp
  split
  · exact ⟨Int.le_refl _, h⟩
  · split
    · simp [h]
    · omega

theorem clamp_eq_self {a low high : Coord} (h₁ : low.val ≤ a.val) (h₂ : a.val ≤ high.val) :
    a.clamp low high = a := by
  rw [clamp, if_neg (Int.not_lt.2 h₁), if_neg (Int.not_lt.2 h₂)]

end Coord

end GridRobot
