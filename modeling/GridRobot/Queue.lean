/-!
# Queues

An unbounded queue: items are taken out in the order in which they were put in.
-/

namespace GridRobot

/-- A queue, oldest item first. -/
@[ext] structure Queue (α : Type) where
  items : List α := []
  deriving DecidableEq

namespace Queue

variable {α : Type}

instance : Inhabited (Queue α) := ⟨{}⟩

/-- The queue with one more item behind all others. -/
def push (a : α) (q : Queue α) : Queue α := ⟨q.items ++ [a]⟩

/-- The oldest item and the queue without it. -/
def pop? (q : Queue α) : Option (α × Queue α) :=
  match q.items with
  | [] => none
  | a :: rest => some (a, ⟨rest⟩)

/-- The number of items in the queue. -/
def size (q : Queue α) : Nat := q.items.length

/-- There is nothing in the queue. -/
def isEmpty (q : Queue α) : Bool := q.items.isEmpty

/-- How a queue is shown: by its size. -/
def describe (q : Queue α) : String :=
  "CommandQueue \x7b len: " ++ toString q.size ++ " \x7d"

theorem items_of_pop? {q r : Queue α} {a : α} (h : q.pop? = some (a, r)) :
    q.items = a :: r.items := by
  unfold pop? at h
  split at h
  · cases h
  · next heq => cases h; exact heq

theorem pop?_eq_none {q : Queue α} : q.pop? = none ↔ q.items = [] := by
  unfold pop?
  split <;> simp_all

end Queue

end GridRobot
