/-!
# Handles

A shared thing is reached through handles. Copying one makes another handle of
the same thing; the thing lives as long as any of its handles does.
-/

namespace GridRobot

/-- The handles made so far, and whether each is still held. -/
structure Handles where
  held : List Bool := [true]
  deriving DecidableEq

namespace Handles

/-- The number of the next handle. -/
def next (h : Handles) : Nat := h.held.length

/-- Makes another handle. -/
def clone (h : Handles) : Handles := ⟨h.held ++ [true]⟩

/-- Lets go of the `i`-th handle. -/
def drop (i : Nat) (h : Handles) : Handles := ⟨h.held.set i false⟩

/-- Some handle is still held. -/
def alive (h : Handles) : Bool := h.held.any id

end Handles

end GridRobot
