import GridRobot.Robot
import Mathlib.Data.List.Infix

/-!
# Walks

A walk takes one step after the other. As long as the exact walk stays within the
range of coordinates, the walk is exact, and going back in the opposite headings
undoes it (`Point.StaysInRange`). Where it would leave the range a coordinate
stays at the end of it: a step changes one coordinate at most, by one, and never
the other way (`Point.StepsOnce`). So nothing wraps around, and no walk leads
further than its steps along an axis (`Point.near_walk`).

In a box each step is followed by a move back into the box, which undoes it or
leaves it as it is. So a walk that begins in the box stays there
(`Box.contains_walk`), and as a coordinate in the box is only changed by the steps
along its axis, the two axes can be walked one without the other
(`Box.walk_on_eq`). All this is put together in `grid_walks`.
-/

namespace GridRobot

/-! ### Axes -/

/-- The coordinate of a point on an axis. -/
def Point.on (p : Point) : Axis → Coord
  | .row => p.row
  | .column => p.col

theorem Point.ext_on {p q : Point} (h : ∀ axis, p.on axis = q.on axis) : p = q :=
  Point.ext (h .row) (h .column)

namespace Direction

/-- The axis along which a heading leads. -/
def axis : Direction → Axis
  | up | down => .row
  | left | right => .column

/-- The way in which a heading leads along its axis. -/
def sign : Direction → Int
  | up | left => -1
  | down | right => 1

/-- A step leads along one axis, by one. -/
theorem val_offset_on (d : Direction) (axis : Axis) :
    (d.offset.on axis).val = if axis = d.axis then d.sign else 0 := by
  cases d <;> cases axis <;> rfl

theorem sign_cases (d : Direction) : d.sign = 1 ∨ d.sign = -1 := by
  cases d <;> decide

theorem val_offset_opposite_on (d : Direction) (axis : Axis) :
    (d.opposite.offset.on axis).val = -(d.offset.on axis).val := by
  cases d <;> cases axis <;> rfl

end Direction

/-- The sum of the offsets of headings along an axis. -/
def drift (axis : Axis) : List Direction → Int
  | [] => 0
  | d :: ds => (d.offset.on axis).val + drift axis ds

variable {p q : Point} {d : Direction} {ds : List Direction}

/-! ### Free walks -/

namespace Point

theorem step_on (p : Point) (d : Direction) (axis : Axis) :
    (p.step d).on axis = p.on axis + d.offset.on axis := by
  cases axis <;> rfl

theorem val_step_on (p : Point) (d : Direction) (axis : Axis) :
    ((p.step d).on axis).val =
      max minCoord (min ((p.on axis).val + (d.offset.on axis).val) maxCoord) := by
  rw [step_on, Coord.val_add]

/-- The point reached by steps in the headings `ds`, one after the other. -/
def walk (p : Point) (ds : List Direction) : Point := ds.foldl step p

/-- The exact walk leaves the range of coordinates nowhere. -/
def StaysInRange (p : Point) (ds : List Direction) : Prop :=
  ∀ before, before <+: ds → ∀ axis,
    minCoord ≤ (p.on axis).val + drift axis before ∧ (p.on axis).val + drift axis before ≤ maxCoord

namespace StaysInRange

/-- A step that stays in range is exact. -/
theorem val_step_on (h : p.StaysInRange (d :: ds)) (axis : Axis) :
    ((p.step d).on axis).val = (p.on axis).val + (d.offset.on axis).val := by
  obtain ⟨hmin, hmax⟩ := h [d] ⟨ds, rfl⟩ axis
  simp only [drift] at hmin hmax
  rw [Point.val_step_on]
  omega

theorem tail (h : p.StaysInRange (d :: ds)) : (p.step d).StaysInRange ds := by
  intro before hbefore axis
  have hrange := h (d :: before) (List.cons_prefix_cons.2 ⟨rfl, hbefore⟩) axis
  rw [drift] at hrange
  rw [h.val_step_on]
  omega

/-- A walk that stays in range is exact. -/
theorem val_walk_on (h : p.StaysInRange ds) (axis : Axis) :
    ((p.walk ds).on axis).val = (p.on axis).val + drift axis ds := by
  induction ds generalizing p with
  | nil => exact (Int.add_zero _).symm
  | cons d ds ih =>
    have hwalk : p.walk (d :: ds) = (p.step d).walk ds := rfl
    rw [hwalk, ih h.tail, h.val_step_on, drift, Int.add_assoc]

/-- A step that stays in range can be taken back. -/
theorem step_opposite (h : p.StaysInRange (d :: ds)) : (p.step d).step d.opposite = p := by
  refine Point.ext_on fun axis => Coord.ext ?_
  have hmin := (p.on axis).min_le
  have hmax := (p.on axis).le_max
  rw [Point.val_step_on, h.val_step_on, Direction.val_offset_opposite_on]
  omega

theorem walk_opposite (h : p.StaysInRange ds) :
    (p.walk ds).walk (ds.reverse.map Direction.opposite) = p := by
  induction ds generalizing p with
  | nil => rfl
  | cons d ds ih =>
    have hback : ((p.step d).walk ds).walk (ds.reverse.map Direction.opposite) = p.step d :=
      ih h.tail
    rw [walk, List.reverse_cons, List.map_append, List.foldl_append]
    exact (congrArg (·.step d.opposite) hback).trans h.step_opposite

end StaysInRange

/-- What a single step does: at most one coordinate changes, by one and in the way of the heading;
    where it would leave the range it does not change. -/
structure StepsOnce (d : Direction) (p q : Point) : Prop where
  across {axis : Axis} (h : axis ≠ d.axis) : q.on axis = p.on axis
  along : (q.on d.axis).val = (p.on d.axis).val + d.sign ∨
    q.on d.axis = p.on d.axis ∧
      ¬(minCoord ≤ (p.on d.axis).val + d.sign ∧ (p.on d.axis).val + d.sign ≤ maxCoord)

theorem stepsOnce (p : Point) (d : Direction) : StepsOnce d p (p.step d) where
  across {axis} h := by
    have hmin := (p.on axis).min_le
    have hmax := (p.on axis).le_max
    refine Coord.ext ?_
    rw [val_step_on, d.val_offset_on, if_neg h]
    omega
  along := by
    have hmin := (p.on d.axis).min_le
    have hmax := (p.on d.axis).le_max
    rw [← Coord.val_inj, val_step_on, d.val_offset_on, if_pos rfl]
    rcases d.sign_cases with hsign | hsign <;> omega

/-- A walk leads no further along an axis than it has steps along it. -/
theorem near_walk (p : Point) (ds : List Direction) (axis : Axis) :
    (((p.walk ds).on axis).val - (p.on axis).val).natAbs ≤
      (ds.filter (·.axis = axis)).length := by
  induction ds generalizing p with
  | nil => simp [walk]
  | cons d ds ih =>
    have hwalk : p.walk (d :: ds) = (p.step d).walk ds := rfl
    have hrest := ih (p.step d)
    rw [hwalk]
    by_cases hd : d.axis = axis
    · subst hd
      rw [List.filter_cons_of_pos (by simp), List.length_cons]
      have hsign := d.sign_cases
      rcases (p.stepsOnce d).along with hone | ⟨hstay, -⟩
      · omega
      · rw [hstay] at hrest
        omega
    · rw [List.filter_cons_of_neg (by simpa using hd)]
      rwa [(p.stepsOnce d).across (Ne.symm hd)] at hrest

end Point

/-! ### Walks in a box -/

/-- A box of points that is not empty. -/
structure Box where
  low : Point
  high : Point
  row_le : low.row.val ≤ high.row.val
  col_le : low.col.val ≤ high.col.val

namespace Box

variable (b : Box)

/-- The point is in the box. -/
def Contains (p : Point) : Prop :=
  ∀ axis, (b.low.on axis).val ≤ (p.on axis).val ∧ (p.on axis).val ≤ (b.high.on axis).val

/-- One step further, and then back into the box. -/
def step (p : Point) (d : Direction) : Point := (p.step d).clamp b.low b.high

/-- The point reached by such steps in the headings `ds`, one after the other. -/
def walk (p : Point) (ds : List Direction) : Point := ds.foldl b.step p

theorem step_on (p : Point) (d : Direction) (axis : Axis) :
    (b.step p d).on axis =
      (p.on axis + d.offset.on axis).clamp (b.low.on axis) (b.high.on axis) := by
  cases axis <;> rfl

theorem contains_step (p : Point) (d : Direction) : b.Contains (b.step p d) := by
  intro axis
  rw [b.step_on]
  cases axis with
  | row => exact Coord.clamp_mem _ b.row_le
  | column => exact Coord.clamp_mem _ b.col_le

variable {b}

theorem contains_walk (h : b.Contains p) (ds : List Direction) : b.Contains (b.walk p ds) := by
  induction ds generalizing p with
  | nil => exact h
  | cons d ds ih => exact ih (b.contains_step p d)

/-- A step along the other axis leaves a coordinate where it is, if that is in the box. -/
theorem step_on_of_ne (h : b.Contains p) {axis : Axis} (hd : axis ≠ d.axis) :
    (b.step p d).on axis = p.on axis := by
  rw [b.step_on, ← Point.step_on, (p.stepsOnce d).across hd,
    Coord.clamp_eq_self (h axis).1 (h axis).2]

/-- On each axis, a walk only depends on where it begins there and on the headings along it. -/
theorem walk_on_eq (hp : b.Contains p) (hq : b.Contains q) {axis : Axis} (h : p.on axis = q.on axis)
    (ds : List Direction) :
    (b.walk p ds).on axis = (b.walk q (ds.filter (·.axis = axis))).on axis := by
  induction ds generalizing p q with
  | nil => exact h
  | cons d ds ih =>
    by_cases hd : d.axis = axis
    · rw [List.filter_cons_of_pos (by simpa using hd)]
      refine ih (b.contains_step p d) (b.contains_step q d) ?_
      rw [b.step_on, b.step_on, h]
    · rw [List.filter_cons_of_neg (by simpa using hd)]
      exact ih (b.contains_step p d) hq ((step_on_of_ne hp (Ne.symm hd)).trans h)

/-- The grid of the robot. -/
def grid : Box := ⟨.origin, Robot.gridCorner, by decide, by decide⟩

/-- A robot walks in the box of its grid. -/
example (heading : Direction) (p : Point) :
    Robot.moved heading .advance p = grid.step p heading := rfl

end Box

/-! ### What holds of every walk -/

/-- What holds of the walk from `p` in the headings `ds`, through the plane and in any box. -/
structure GridWalks (p : Point) (ds : List Direction) : Prop where
  /-- If the exact walk stays in range, the walk is exact and can be undone. -/
  exact (h : p.StaysInRange ds) (axis : Axis) :
    ((p.walk ds).on axis).val = (p.on axis).val + drift axis ds
  undone (h : p.StaysInRange ds) : (p.walk ds).walk (ds.reverse.map Direction.opposite) = p
  /-- Whether or not it does, each step is one step or none, and nothing wraps around. -/
  steps {before : List Direction} {d : Direction} (h : before ++ [d] <+: ds) :
    Point.StepsOnce d (p.walk before) (p.walk (before ++ [d]))
  near (axis : Axis) : (((p.walk ds).on axis).val - (p.on axis).val).natAbs ≤
    (ds.filter (·.axis = axis)).length
  /-- In a box, all positions are in the box. -/
  boxed (b : Box) (h : b.Contains p) {before : List Direction} (hbefore : before <+: ds) :
    b.Contains (b.walk p before)
  /-- In a box, the headings along an axis alone lead to the same coordinate on it, and so do all
      headings among which these are the same. -/
  apart (b : Box) (h : b.Contains p) (axis : Axis) :
    (b.walk p ds).on axis = (b.walk p (ds.filter (·.axis = axis))).on axis
  alike (b : Box) (h : b.Contains p) (axis : Axis) {ds' : List Direction}
    (hsame : ds.filter (·.axis = axis) = ds'.filter (·.axis = axis)) :
    (b.walk p ds).on axis = (b.walk p ds').on axis

/-- Walks are exact where they can be, and elsewhere stop at the ends of the range or of a box, on
    each axis for itself. -/
theorem grid_walks (p : Point) (ds : List Direction) : GridWalks p ds where
  exact h axis := h.val_walk_on axis
  undone h := h.walk_opposite
  steps {before d} _ := by
    have hlast : p.walk (before ++ [d]) = (p.walk before).step d :=
      List.foldl_concat Point.step p d before
    rw [hlast]
    exact (p.walk before).stepsOnce d
  near axis := p.near_walk ds axis
  boxed b h {before} _ := Box.contains_walk h before
  apart b h axis := Box.walk_on_eq h h rfl ds
  alike b h axis {ds'} hsame := by
    rw [Box.walk_on_eq h h rfl ds, hsame, ← Box.walk_on_eq h h rfl ds']

/-- At the end of the range: a walk that stays in range is undone, and in a box that ends there the
    steps across do not matter. -/
theorem grid_walks_edge :
    let p : Point := ⟨⟨maxCoord, by decide, by decide⟩, .zero⟩
    let b : Box := ⟨⟨.zero, ⟨minCoord, by decide, by decide⟩⟩, p, by decide, by decide⟩
    p.StaysInRange [.up, .right, .down, .left] ∧
      (p.walk [.up, .right, .down, .left]).walk [.right, .up, .left, .down] = p ∧
      b.Contains p ∧ b.Contains (b.walk p [.down, .right, .up, .left]) ∧
      (b.walk p [.down, .right, .up, .left]).row = (b.walk p [.down, .up]).row := by
  intro p b
  have hrange : p.StaysInRange [.up, .right, .down, .left] := by
    have hall : ∀ before ∈ List.inits [Direction.up, .right, .down, .left],
        ∀ axis ∈ [Axis.row, .column],
          minCoord ≤ (p.on axis).val + drift axis before ∧
            (p.on axis).val + drift axis before ≤ maxCoord := by decide
    intro before hbefore axis
    exact hall before ((List.mem_inits _ _).2 hbefore) axis (by cases axis <;> decide)
  have hbox : b.Contains p := by
    intro axis
    cases axis <;> decide
  exact ⟨hrange, (grid_walks p _).undone hrange, hbox,
    (grid_walks p _).boxed b hbox (List.prefix_refl _), (grid_walks p _).apart b hbox .row⟩

end GridRobot
