import GridRobot.Wire.Encode

/-!
# Shapes of tokens

One shape for each row of the table of the wire form; the location with and
without an obstacle are two shapes of one kind. `Shape.read` matches a shape at
the start of a token and leaves what follows it.

* `Shape.of_read`: what a shape reads is a wire form of that shape;
* `Shape.length_read_lt`: what is left is shorter than the token.
-/

namespace GridRobot

/-- The shapes a token can begin with. -/
inductive Shape
  | stateChange
  | finish
  | location
  | blockDetected
  | movement
  | done
  | warning
  deriving DecidableEq

/-- The shape of the token of a message. -/
def Message.shape : Message → Shape
  | warning _ => .warning
  | done => .done
  | location _ => .location
  | blockDetected _ _ => .blockDetected
  | movement _ _ => .movement
  | finish => .finish
  | stateChange => .stateChange

/-- The cell of which column and row are written. -/
def Cell.ofChars? (x y : Char) : Option Cell := do
  let col ← Digit.ofChar? x
  let row ← Digit.ofChar? y
  return ⟨row, col⟩

theorem Cell.ofChars?_eq_some {x y : Char} {c : Cell} :
    ofChars? x y = some c ↔ [x, y] = c.wire := by
  simp only [ofChars?, Option.bind_eq_bind, Option.bind_eq_some_iff]
  constructor
  · rintro ⟨col, hcol, row, hrow, h⟩
    cases h
    rw [Digit.ofChar?_eq_some.1 hcol, Digit.ofChar?_eq_some.1 hrow]
    rfl
  · intro h
    cases h
    exact ⟨c.col, Digit.ofChar?_toChar _, c.row, Digit.ofChar?_toChar _, rfl⟩

@[simp] theorem Cell.ofChars?_toChar (c : Cell) :
    ofChars? c.col.toChar c.row.toChar = some c := ofChars?_eq_some.2 rfl

/-- The shapes of a kind, in the order in which they are tried. -/
def Kind.shapes : Kind → List Shape
  | location => [.location, .blockDetected]
  | warning => [.warning]
  | done => [.done]
  | movement => [.movement]
  | finish => [.finish]
  | stateChange => [.stateChange]

namespace Shape

/-- The message of this shape at the start of a token, and the rest of it. -/
def read : Shape → List Char → Option (Message × List Char)
  | stateChange, 'S' :: '#' :: 'E' :: rest => some (.stateChange, rest)
  | finish, 'E' :: '#' :: rest => some (.finish, rest)
  | location, 'L' :: x :: y :: '?' :: '?' :: rest => do
    return (.location (← Cell.ofChars? x y), rest)
  | blockDetected, 'L' :: x :: y :: u :: v :: rest => do
    return (.blockDetected (← Cell.ofChars? x y) (← Cell.ofChars? u v), rest)
  | movement, 'M' :: '#' :: d :: t :: rest => do
    let heading ← Direction.ofDigit? (← Digit.ofChar? d)
    let motion ← Motion.ofCode? (← Digit.ofChar? t)
    return (.movement heading motion, rest)
  | done, 'D' :: rest => some (.done, rest)
  | warning, 'W' :: n :: rest => do
    return (.warning (← Digit.ofChar? n), rest)
  | _, _ => none

/-- What a shape reads is a wire form of that shape. -/
theorem of_read {s : Shape} {token rest : List Char} {m : Message}
    (h : s.read token = some (m, rest)) : m.shape = s ∧ token = m.wire ++ rest := by
  rw [read.eq_def] at h
  split at h
  · cases h
    exact ⟨rfl, rfl⟩
  · cases h
    exact ⟨rfl, rfl⟩
  · -- The two shapes of a location: each cell is read back from the two characters it is
    -- written with, column first.
    simp only [Option.bind_eq_bind, Option.bind_eq_some_iff, Cell.ofChars?_eq_some] at h
    obtain ⟨robot, hrobot, h⟩ := h
    cases h
    cases hrobot
    exact ⟨rfl, rfl⟩
  · simp only [Option.bind_eq_bind, Option.bind_eq_some_iff, Cell.ofChars?_eq_some] at h
    obtain ⟨robot, hrobot, block, hblock, h⟩ := h
    cases h
    cases hrobot
    cases hblock
    exact ⟨rfl, rfl⟩
  · simp only [Option.bind_eq_bind, Option.bind_eq_some_iff, Digit.ofChar?_eq_some] at h
    obtain ⟨d, rfl, heading, hheading, t, rfl, motion, hmotion, h⟩ := h
    cases h
    -- Not every digit is a heading or a motion: those that are one are its own digit.
    have hd : heading.digit = d := Fin.ext (Direction.digit_of_ofDigit? hheading)
    have ht : motion.code = t := Fin.ext (Motion.code_of_ofCode? hmotion)
    subst hd ht
    exact ⟨rfl, rfl⟩
  · cases h
    exact ⟨rfl, rfl⟩
  · simp only [Option.bind_eq_bind, Option.bind_eq_some_iff, Digit.ofChar?_eq_some] at h
    obtain ⟨n, rfl, h⟩ := h
    cases h
    exact ⟨rfl, rfl⟩
  · cases h

/-- What is left is shorter than the token. -/
theorem length_read_lt {s : Shape} {token rest : List Char} {m : Message}
    (h : s.read token = some (m, rest)) : rest.length < token.length := by
  obtain ⟨-, rfl⟩ := of_read h
  rw [List.length_append]
  exact Nat.lt_add_of_pos_left (List.length_pos_iff.2 m.wire_ne_nil)

end Shape

end GridRobot
