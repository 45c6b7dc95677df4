import GridRobot.Loop.Worker

/-!
# Lanes

A lane is a worker with the loops that work on it. All loops ever started are
kept, with their counters. The *slot* of a lane holds the loop that is in
charge; a new loop is started only if the slot is empty or its loop is over.
Shutting down empties the slot at once, before the loop that was in it has
come to its end.

`fire` and `check` are the steps of single loops. The steps of a whole lane are
made of them: `fireDue` for the loops whose wait is over, `checkAll`, and
`spin`, one round of the loops that have no wait and something to do.
-/

namespace GridRobot

/-- A worker and its loops. -/
structure Lane (ω : Type) where
  worker : ω
  /-- The loops in the order in which they were started. -/
  loops : List PollLoop := []
  /-- The loop in charge. -/
  slot : Option Nat := none

/-- One tick of a loop. -/
def PollLoop.fire {ω : Type} [Worker ω] (l : PollLoop) (w : ω) : PollLoop × ω :=
  (l.ticked (Worker.tick w).1, (Worker.tick w).2)

/-- One tick of each of the loops that `p` chooses, one after the other. -/
def fireEach {ω : Type} [Worker ω] (p : PollLoop → ω → Bool) :
    List PollLoop → ω → List PollLoop × ω
  | [], w => ([], w)
  | l :: ls, w =>
    let (l, w) := if p l w then l.fire w else (l, w)
    let (ls, w) := fireEach p ls w
    (l :: ls, w)

namespace Lane

variable {ω : Type}

/-! ### Calls -/

/-- The loop in charge. -/
def current (a : Lane ω) : Option PollLoop := a.slot.bind (a.loops[·]?)

/-- Does `f` with the `i`-th loop. -/
def update (i : Nat) (f : PollLoop → PollLoop) (a : Lane ω) : Lane ω :=
  { a with loops := a.loops.modify i f }

/-- Starts a loop, unless one is still in charge. -/
def start [Worker ω] (wait : Nat) (a : Lane ω) : Except LoopError (Lane ω) :=
  let started : Lane ω :=
    { a with loops := a.loops ++ [.started wait], slot := some a.loops.length }
  match a.current with
  | none => .ok started
  | some l =>
    if l.isOver then .ok started
    else if l.stopping then .error (.stopping (Worker.name ω))
    else .error (.alreadyRunning (Worker.name ω))

/-- Asks the loop in charge to stop. -/
def requestStop (a : Lane ω) : Lane ω :=
  match a.slot with
  | some i => a.update i PollLoop.requestStop
  | none => a

/-- A loop is in charge, not over, and not asked to stop. -/
def isRunning (a : Lane ω) : Bool := a.current.any fun l => !l.stopping && !l.isOver

/-- Takes the loop in charge out of the slot and asks it to stop. -/
def detach (a : Lane ω) : Lane ω := { a.requestStop with slot := none }

/-- What a loop has done, once it is over; without a loop, nothing was done. -/
def report? [Worker ω] (i : Option Nat) (a : Lane ω) : Option (Except LoopError Stats) :=
  match i.bind (a.loops[·]?) with
  | none => some (.ok {})
  | some l =>
    match l.phase with
    | .finished => some (.ok l.stats)
    | .crashed => some (.error (.crashed (Worker.name ω)))
    | _ => none

/-- The loop started last has no wait, so that the number of its idle ticks means nothing. -/
def unpaced (a : Lane ω) : Bool := a.loops.getLast?.any fun l => l.wait = 0

/-! ### Steps -/

/-- The loops that are about to look whether they should stop do so. -/
def checkAll (now : Nat) (a : Lane ω) : Lane ω := { a with loops := a.loops.map (·.check now) }

/-- The loops whose wait is over tick. -/
def fireDue [Worker ω] (now : Nat) (a : Lane ω) : Lane ω :=
  let (loops, worker) := fireEach (fun l _ => l.isDue now) a.loops a.worker
  { a with loops, worker }

/-- The loops that have no wait, and have something to do or should stop, tick. The other ticks of
    loops without a wait are left out: they find nothing to do, there is no end of them, and how
    many there are is up to chance. So they are not counted either (`unpaced`). -/
def spin [Worker ω] (now : Nat) (a : Lane ω) : Lane ω :=
  let (loops, worker) :=
    fireEach (fun l w => l.isSpinning && (l.stopping || Worker.load w ≠ 0)) a.loops a.worker
  { a with loops := loops.map (·.check now), worker }

/-- At least the number of rounds after which `spin` changes nothing. -/
def rounds [Worker ω] (a : Lane ω) : Nat := Worker.load a.worker + 1

/-- The time, at most `n`, before the millisecond in which the next loop is due. -/
def quietFor (now n : Nat) (a : Lane ω) : Nat := a.loops.foldr (fun l n => l.quietFor now n) n

theorem quietFor_le (now n : Nat) (a : Lane ω) : a.quietFor now n ≤ n := by
  unfold quietFor
  induction a.loops with
  | nil => exact Nat.le_refl n
  | cons l ls ih => exact Nat.le_trans (l.quietFor_le now _) ih

/-- The time until the last of the loops that were asked to stop has ticked. -/
def timeToStop (now : Nat) (a : Lane ω) : Nat :=
  (a.loops.map fun l => if l.stopping then l.timeLeft now else 0).foldl max 0

end Lane

end GridRobot
