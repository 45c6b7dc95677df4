import GridRobot.Loop.Lane

/-!
# One loop by itself

A single loop with its worker and a clock: it can be ticked by hand before it is
started, then it runs with the clock until it is stopped and joined.
-/

namespace GridRobot

/-- One loop, its worker and a clock. -/
structure Solo (ω : Type) where
  now : Nat := 0
  worker : ω
  loop : PollLoop
  /-- The end of the loop has been waited for. -/
  joined : Bool := false

/-- Why a call does not suit the state of the loop. -/
inductive Misuse
  | started
  | notStarted
  /-- The loop was not asked to stop, so waiting for it would have no end. -/
  | notStopped
  deriving DecidableEq

namespace Solo

variable {ω : Type} [Worker ω]

/-- The loop as the only one of a lane. -/
def lane (s : Solo ω) : Lane ω := { worker := s.worker, loops := [s.loop] }

/-- The state after its lane has become `a`. -/
def withLane (s : Solo ω) (a : Lane ω) : Solo ω :=
  { s with worker := a.worker, loop := a.loops.headD s.loop }

/-- Lets everything happen that needs no time. -/
def settle (s : Solo ω) : Solo ω :=
  let a := s.lane.checkAll s.now
  s.withLane (a.rounds.repeat (Lane.spin s.now) a)

/-- One millisecond passes. -/
def passMilli (s : Solo ω) : Solo ω :=
  let s := { s with now := s.now + 1 }
  (s.withLane (s.lane.fireDue s.now)).settle

/-- `n` milliseconds pass, starting from a settled state; those in which the loop is not due
    are passed at once. -/
def run (n : Nat) (s : Solo ω) : Solo ω :=
  match n with
  | 0 => s
  | n + 1 =>
    let quiet := s.loop.quietFor s.now n
    run (n - quiet) (passMilli { s with now := s.now + quiet })
termination_by n

/-- `n` milliseconds pass, starting from any state. -/
def advance (n : Nat) (s : Solo ω) : Solo ω := run n s.settle

theorem now_passMilli (s : Solo ω) : s.passMilli.now = s.now + 1 := rfl

/-- Passing quiet time at once takes as long as it would take step by step. -/
theorem now_run (n : Nat) (s : Solo ω) : (run n s).now = s.now + n := by
  fun_induction run n s with
  | case1 s => rfl
  | case2 s n quiet ih =>
    have hq : quiet ≤ n := s.loop.quietFor_le s.now n
    rw [ih, now_passMilli]
    simp only
    omega

theorem now_advance (n : Nat) (s : Solo ω) : (s.advance n).now = s.now + n := now_run n s.settle

/-- The loop was started, whatever has become of it since. -/
def isStarted (s : Solo ω) : Bool := s.loop.phase ≠ .unstarted

/-- The loop can be waited for. -/
def isHeld (s : Solo ω) : Bool := s.isStarted && !s.joined

/-- One tick by hand; without an outcome, the worker broke down. -/
def tick (s : Solo ω) : Except Misuse (Option Outcome × Solo ω) :=
  if s.isStarted then .error .started
  else
    let (outcome, worker) := Worker.tick s.worker
    match outcome with
    | some o => .ok (some o, { s with worker, loop := s.loop.ticked (some o) })
    | none => .ok (none, { s with worker })

/-- Starts the loop, once. -/
def start (s : Solo ω) : Except Misuse (Solo ω) :=
  if s.isStarted then .error .started else .ok { s with loop := s.loop.start }

/-- Asks the loop to stop, whether or not it was started. -/
def requestStop (s : Solo ω) : Solo ω := { s with loop := s.loop.requestStop }

/-- Waits for the end of the loop, and takes what it has done. -/
def join (s : Solo ω) : Except Misuse (Except LoopError Stats × Solo ω) :=
  if !s.isHeld then .error .notStarted
  else if !s.loop.isOver && !s.loop.stopping then .error .notStopped
  else
    let s := s.settle
    let s : Solo ω := { s.advance (s.loop.timeLeft s.now) with joined := true }
    .ok (if s.loop.phase = .crashed then .error (.crashed (Worker.name ω)) else .ok s.loop.stats, s)

/-- Asks the loop to stop and waits for its end. -/
def stop (s : Solo ω) : Except Misuse (Except LoopError Stats × Solo ω) :=
  if !s.isHeld then .error .notStarted else s.requestStop.join

end Solo

end GridRobot
