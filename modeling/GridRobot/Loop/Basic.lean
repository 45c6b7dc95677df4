/-!
# Polling loops

A loop goes round in three phases: it looks whether it was asked to stop
(`checking`); if not, it waits (`waiting`), which nothing cuts short; then it
ticks, and looks again. So a loop that is asked to stop while it waits ticks
once more, and one that is asked before it looks does not.

Time is a number of milliseconds. A loop without a wait lets others go first
and is due at once. A tick can break a loop (`crashed`). The ticks of a loop are
counted (`Stats`).

A loop that has not been started can be ticked by hand.
-/

namespace GridRobot

/-- What a tick did. -/
inductive Outcome
  | idle
  | processed
  | failed
  deriving DecidableEq

/-- What a loop has done so far. The counters have no greatest value: they stand for words of 64
    bits, which a loop could only fill up by ticking for ages. -/
@[ext] structure Stats where
  ticks : Nat := 0
  processed : Nat := 0
  errors : Nat := 0
  deriving DecidableEq

instance : Inhabited Stats := ⟨{}⟩

/-- The counters after one more tick. -/
def Stats.record (s : Stats) : Outcome → Stats
  | .idle => { s with ticks := s.ticks + 1 }
  | .processed => { s with ticks := s.ticks + 1, processed := s.processed + 1 }
  | .failed => { s with ticks := s.ticks + 1, errors := s.errors + 1 }

/-- Where a loop is in its round. -/
inductive Phase
  | unstarted
  /-- About to look whether it should stop. -/
  | checking
  /-- About to tick, at `due` or later. -/
  | waiting (due : Nat)
  | finished
  | crashed
  deriving DecidableEq

/-- A loop; what it works on is kept apart. -/
structure PollLoop where
  wait : Nat
  /-- The loop was asked to stop. -/
  stopping : Bool := false
  stats : Stats := {}
  phase : Phase := .unstarted
  deriving DecidableEq

namespace PollLoop

/-- A loop that has just been started. -/
def started (wait : Nat) : PollLoop := { wait, phase := .checking }

/-- Starts a loop that may have been ticked by hand before; its counters go on. -/
def start (l : PollLoop) : PollLoop := { l with phase := .checking }

/-- Asks the loop to stop, which it learns when it looks. -/
def requestStop (l : PollLoop) : PollLoop := { l with stopping := true }

/-- The loop will never tick again. -/
def isOver (l : PollLoop) : Bool := l.phase = .finished || l.phase = .crashed

/-- The loop looks whether it should stop. -/
def check (now : Nat) (l : PollLoop) : PollLoop :=
  if l.phase = .checking then
    { l with phase := if l.stopping then .finished else .waiting (now + l.wait) }
  else l

/-- The loop has ticked, with an outcome or so that it broke. -/
def ticked (l : PollLoop) : Option Outcome → PollLoop
  | some o =>
    { l with
      stats := l.stats.record o
      phase := if l.phase = .unstarted then .unstarted else .checking }
  | none => { l with phase := .crashed }

/-- The loop has a wait, and it is over. -/
def isDue (now : Nat) (l : PollLoop) : Bool :=
  match l.phase with
  | .waiting due => l.wait ≠ 0 && due ≤ now
  | _ => false

/-- The loop has no wait and is about to tick. -/
def isSpinning (l : PollLoop) : Bool :=
  match l.phase with
  | .waiting _ => l.wait = 0
  | _ => false

/-- The time until the next tick of a loop. -/
def timeLeft (now : Nat) (l : PollLoop) : Nat :=
  match l.phase with
  | .waiting due => due - now
  | _ => 0

/-- The time, at most `n`, before the millisecond in which the loop is next due. -/
def quietFor (now n : Nat) (l : PollLoop) : Nat :=
  match l.phase with
  | .waiting due => if l.wait = 0 then n else min n (due - (now + 1))
  | _ => n

theorem quietFor_le (now n : Nat) (l : PollLoop) : l.quietFor now n ≤ n := by
  unfold quietFor
  split
  · split
    · exact Nat.le_refl n
    · exact Nat.min_le_left n _
  · exact Nat.le_refl n

/-- A stop request is never taken back. -/
theorem stopping_check (now : Nat) (l : PollLoop) : (l.check now).stopping = l.stopping := by
  unfold check
  split <;> rfl

theorem stopping_ticked (l : PollLoop) (o : Option Outcome) :
    (l.ticked o).stopping = l.stopping := by
  cases o <;> rfl

end PollLoop

/-- Why a loop does not do what it is asked to. -/
inductive LoopError
  | alreadyRunning (name : String)
  /-- The loop was asked to stop and has not done so yet. -/
  | stopping (name : String)
  | crashed (name : String)
  deriving DecidableEq

namespace LoopError

/-- The loop that is concerned. -/
def loop : LoopError → String
  | alreadyRunning name | stopping name | crashed name => name

/-- The text shown for an error. -/
def message : LoopError → String
  | alreadyRunning name => name ++ " loop is already running"
  | stopping name => name ++ " loop is still stopping, shut it down before restarting"
  | crashed name => name ++ " loop ended abnormally"

end LoopError

end GridRobot
