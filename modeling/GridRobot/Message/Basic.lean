import GridRobot.Grid.Point
import GridRobot.Message.Error

/-!
# Messages

The messages that the robot and its controller exchange. Payloads are made of
digits, cells and headings, so every message can be written; the constructors
`Message.warning?`, `Message.location?` and `Message.blockDetected?` check
payloads given as integers and points, and `Message.instructions?`,
`Message.robot?` and `Message.block?` give them back.

* `Cell.ofPoint_toPoint`: a cell is recovered from its point;
* `Cell.toPoint_of_ofPoint`: and a point that is a cell is the point of that cell;
* `Message.location?_eq_ok_iff`: the points that can be told are those of the cells.
-/

namespace GridRobot

/-- A cell that can be written: both coordinates are digits. -/
@[ext] structure Cell where
  row : Digit
  col : Digit
  deriving DecidableEq, Inhabited

/-- Whether a movement changes the cell or only the heading. -/
inductive Motion
  | advance
  | turnOnly
  deriving DecidableEq, Inhabited

namespace Motion

/-- The digit of a motion on the wire. -/
def code : Motion → Digit
  | advance => .zero
  | turnOnly => .one

/-- The motion of a digit on the wire; only two digits are the code of one. -/
def ofCode? : Nat → Option Motion
  | 0 => some advance
  | 1 => some turnOnly
  | _ => none

/-- The motion that advances, or the one that does not. -/
def ofBool (moves : Bool) : Motion := if moves then advance else turnOnly

/-- Whether the cell changes. -/
def moves : Motion → Bool
  | advance => true
  | turnOnly => false

/-- The name of a motion in JSON. -/
def name : Motion → String
  | advance => "IsMove"
  | turnOnly => "IsNotMove"

@[simp] theorem ofCode?_code (m : Motion) : ofCode? m.code.val = some m := by
  cases m <;> rfl

theorem code_of_ofCode? {n : Nat} {m : Motion} (h : ofCode? n = some m) : m.code.val = n := by
  match n, h with
  | 0, h => cases h; rfl
  | 1, h => cases h; rfl

theorem ofBool_moves (m : Motion) : ofBool m.moves = m := by
  cases m <;> rfl

end Motion

/-- A message between the robot and its controller. -/
inductive Message
  /-- A number of instructions is pending. -/
  | warning (instructions : Digit)
  | done
  /-- The robot stands on a cell. -/
  | location (robot : Cell)
  /-- The robot stands on a cell and sees an obstacle on another. -/
  | blockDetected (robot block : Cell)
  | movement (heading : Direction) (motion : Motion)
  /-- The route is finished. -/
  | finish
  | stateChange
  deriving DecidableEq, Inhabited

namespace Cell

/-- The cell of a point; the row is checked before the column. -/
def ofPoint (p : Point) : Except MessageError Cell :=
  match Digit.ofInt? p.row.val, Digit.ofInt? p.col.val with
  | some row, some col => .ok ⟨row, col⟩
  | none, _ => .error (.malformed (.coordinate .row p.row.val))
  | some _, none => .error (.malformed (.coordinate .column p.col.val))

/-- The point of a cell. -/
def toPoint (c : Cell) : Point := ⟨.ofDigit c.row, .ofDigit c.col⟩

theorem ofPoint_toPoint (c : Cell) : ofPoint c.toPoint = .ok c := by
  have hr : Digit.ofInt? c.toPoint.row.val = some c.row := Digit.ofInt?_eq_some.2 rfl
  have hc : Digit.ofInt? c.toPoint.col.val = some c.col := Digit.ofInt?_eq_some.2 rfl
  simp [ofPoint, hr, hc]

theorem toPoint_of_ofPoint {p : Point} {c : Cell} (h : ofPoint p = .ok c) : c.toPoint = p := by
  unfold ofPoint at h
  split at h
  · next row col hr hc =>
    cases h
    exact Point.ext (Coord.ext (Digit.ofInt?_eq_some.1 hr)) (Coord.ext (Digit.ofInt?_eq_some.1 hc))
  · cases h
  · cases h

end Cell

namespace Message

/-- A warning that `n` instructions are pending. -/
def warning? (n : Int) : Except MessageError Message :=
  match Digit.ofInt? n with
  | some d => .ok (.warning d)
  | none => .error (.malformed (.instructionCount n))

/-- The robot stands on `robot`. -/
def location? (robot : Point) : Except MessageError Message := do
  return .location (← Cell.ofPoint robot)

/-- The robot stands on `robot` and sees an obstacle on `block`. -/
def blockDetected? (robot block : Point) : Except MessageError Message := do
  return .blockDetected (← Cell.ofPoint robot) (← Cell.ofPoint block)

/-- The number of instructions that are pending, as a warning tells it. -/
def instructions? : Message → Option Int
  | warning n => some n.val
  | _ => none

/-- The point where a message tells that the robot is. -/
def robot? : Message → Option Point
  | location robot | blockDetected robot _ => some robot.toPoint
  | _ => none

/-- The point where a message tells that an obstacle is. -/
def block? : Message → Option Point
  | blockDetected _ block => some block.toPoint
  | _ => none

/-- The kind of a message. It does not tell whether a location comes with an obstacle. -/
def kind : Message → Kind
  | warning _ => .warning
  | done => .done
  | location _ | blockDetected _ _ => .location
  | movement _ _ => .movement
  | finish => .finish
  | stateChange => .stateChange

theorem location?_eq_ok_iff {p : Point} {m : Message} :
    location? p = .ok m ↔ ∃ c : Cell, c.toPoint = p ∧ m = .location c := by
  constructor
  · intro h
    cases hcell : Cell.ofPoint p with
    | error e =>
      rw [location?, hcell] at h
      cases h
    | ok c =>
      rw [location?, hcell] at h
      cases h
      exact ⟨c, Cell.toPoint_of_ofPoint hcell, rfl⟩
  · rintro ⟨c, rfl, rfl⟩
    rw [location?, Cell.ofPoint_toPoint]
    rfl

end Message

end GridRobot
