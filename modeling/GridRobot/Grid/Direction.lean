import GridRobot.Digit

/-!
# Headings

The four headings of the robot, numbered clockwise from up, as they stand in the
wire form of a movement.
-/

namespace GridRobot

/-- A heading on the grid; rows grow downwards, columns to the right. -/
inductive Direction
  | up
  | right
  | down
  | left
  deriving DecidableEq, Inhabited

namespace Direction

/-- The headings in the order of their digits. -/
def all : List Direction := [up, right, down, left]

/-- The digit of a heading: quarter turns clockwise from up. -/
def digit : Direction → Digit
  | up => .zero
  | right => .one
  | down => .two
  | left => .three

/-- The heading of a digit; only the first four digits name one. -/
def ofDigit? (n : Nat) : Option Direction := all[n]?

/-- The name of a heading in JSON. -/
def name : Direction → String
  | up => "UP"
  | right => "RIGHT"
  | down => "DOWN"
  | left => "LEFT"

/-- The heading that leads back. -/
def opposite : Direction → Direction
  | up => down
  | right => left
  | down => up
  | left => right

/-- A quarter turn to the right. -/
def clockwise : Direction → Direction
  | up => right
  | right => down
  | down => left
  | left => up

@[simp] theorem ofDigit?_digit (d : Direction) : ofDigit? d.digit = some d := by
  cases d <;> rfl

theorem digit_of_ofDigit? {n : Nat} {d : Direction} (h : ofDigit? n = some d) :
    d.digit.val = n := by
  match n, h with
  | 0, h => cases h; rfl
  | 1, h => cases h; rfl
  | 2, h => cases h; rfl
  | 3, h => cases h; rfl
  | _ + 4, h => simp [ofDigit?, all] at h

end Direction

end GridRobot
