import GridRobot.Grid.Coord
import GridRobot.Grid.Direction

/-!
# Points and walks

A point is a row and a column. Steps add the offset of a heading, with
saturation on each axis; a *guarded* step is then moved back into a box
(`Point.clamp`), which is how the robot stays on its grid.
-/

namespace GridRobot

/-- A point of the plane of coordinates. -/
@[ext] structure Point where
  row : Coord
  col : Coord
  deriving DecidableEq, Inhabited

namespace Point

/-- The point at row `row` and column `col`, if both are in range. -/
def ofInts? (row col : Int) : Option Point := do
  return ⟨← Coord.ofInt? row, ← Coord.ofInt? col⟩

/-- The corner of the grid where both coordinates are least. -/
def origin : Point := ⟨.zero, .zero⟩

instance : Add Point := ⟨fun p q => ⟨p.row + q.row, p.col + q.col⟩⟩

instance : Sub Point := ⟨fun p q => ⟨p.row - q.row, p.col - q.col⟩⟩

/-- The point moved, axis by axis, into the box with corners `low` and `high`. -/
def clamp (p low high : Point) : Point :=
  ⟨p.row.clamp low.row high.row, p.col.clamp low.col high.col⟩

/-- How a point is shown. -/
def render (p : Point) : String :=
  "<row=" ++ toString p.row.val ++ ", col=" ++ toString p.col.val ++ ">"

end Point

/-- One step in a heading. -/
def Direction.offset : Direction → Point
  | up => ⟨.minusOne, .zero⟩
  | right => ⟨.zero, .one⟩
  | down => ⟨.one, .zero⟩
  | left => ⟨.zero, .minusOne⟩

/-- The point one step further in heading `d`. -/
def Point.step (p : Point) (d : Direction) : Point := p + d.offset

end GridRobot
