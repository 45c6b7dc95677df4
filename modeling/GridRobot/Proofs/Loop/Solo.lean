import GridRobot.Loop.Solo
import GridRobot.Proofs.Lane.Paced
import GridRobot.Proofs.Machine

/-!
# Runs of one loop by itself

A single loop with its clock is ticked by hand, started, asked to stop, and left
to itself for some time, in any order. If the loop has a wait, it goes on as
follows.

* Settling is looking whether it should stop (`Solo.settle_eq`).
* When a millisecond passes, the loop ticks and looks again if it is due then
  (`Solo.passMilli_of_isDue`), and nothing else happens
  (`Solo.passMilli_of_not_isDue`).
* What is kept when quiet time passes, and when a millisecond does, is kept
  however much time passes (`Solo.run_preserves`).
-/

namespace GridRobot

namespace Solo

variable {ω : Type} [Worker ω] {s : Solo ω}

/-! ### Histories -/

/-- What is done with a single loop. -/
inductive Act
  /-- The loop is ticked by hand. -/
  | tick
  | start
  | requestStop
  /-- Everything happens that needs no time. -/
  | settle
  /-- Some milliseconds pass. -/
  | advance (n : Nat)
  deriving DecidableEq

/-- A call that does not suit the state of the loop changes nothing. -/
def machine : Machine Act (Solo ω) where
  step
    | .tick, s => (s.tick.toOption.map Prod.snd).getD s
    | .start, s => s.start.toOption.getD s
    | .requestStop, s => s.requestStop
    | .settle, s => s.settle
    | .advance n, s => s.advance n

/-- When the loop is asked to stop. -/
def asked : Act → Solo ω → List Nat
  | .requestStop, s => [s.now]
  | _, _ => []

/-- The action gives the loop the time to look whether it should stop. -/
def Act.settles : Act → Bool
  | .settle | .advance _ => true
  | _ => false

/-- Waiting for the end of the loop lasts until `time`, and has the given result. -/
def EndsAt (time : Nat) (result : Except LoopError Stats) (s : Solo ω) : Prop :=
  ∃ s', s.join = .ok (result, s') ∧ s'.now = time

/-! ### Time -/

theorem settle_eq (hwait : 0 < s.loop.wait) :
    s.settle = { s with loop := s.loop.check s.now } := by
  have hrests : ∀ l ∈ (s.lane.checkAll s.now).loops, l.Rests := by
    intro l hl
    rw [List.mem_singleton.1 hl]
    exact s.loop.rests_check hwait s.now
  have hspin : ∀ n : Nat, n.repeat (Lane.spin s.now) (s.lane.checkAll s.now) =
      s.lane.checkAll s.now := by
    intro n
    induction n with
    | zero => rfl
    | succ n ih => rw [Nat.repeat, ih, Lane.spin_eq_self hrests]
  show s.withLane _ = _
  rw [hspin]
  rfl

theorem settle_of_rests (h : s.loop.Rests) : s.settle = s := by
  rw [settle_eq h.wait_pos, h.check_eq_self]

theorem passMilli_of_not_isDue (h : s.loop.Rests) (hdue : s.loop.isDue (s.now + 1) = false) :
    s.passMilli = { s with now := s.now + 1 } := by
  have hfire : fireEach (fun l _ => l.isDue (s.now + 1)) [s.loop] s.worker =
      ([s.loop], s.worker) :=
    fireEach_eq_self fun l hl => List.mem_singleton.1 hl ▸ hdue
  rw [passMilli, lane, Lane.fireDue]
  dsimp only
  rw [hfire]
  exact settle_of_rests h

theorem passMilli_of_isDue (hdue : s.loop.isDue (s.now + 1) = true) :
    s.passMilli =
      { s with
        now := s.now + 1
        worker := (Worker.tick s.worker).2
        loop := (s.loop.ticked (Worker.tick s.worker).1).check (s.now + 1) } := by
  have hfire : fireEach (fun l _ => l.isDue (s.now + 1)) [s.loop] s.worker =
      ([s.loop.ticked (Worker.tick s.worker).1], (Worker.tick s.worker).2) :=
    fireEach_cons_of_pos hdue []
  rw [passMilli, lane, Lane.fireDue]
  dsimp only
  rw [hfire]
  exact settle_eq (by simpa [withLane] using PollLoop.wait_pos_of_isDue hdue)

/-- What is kept when time passes in which the loop is not due, and when a millisecond passes, is
    kept however much time passes. -/
theorem run_preserves {P : Solo ω → Prop}
    (hquiet : ∀ s n, P s → P { s with now := s.now + s.loop.quietFor s.now n })
    (hmilli : ∀ s, P s → P s.passMilli) (n : Nat) {s : Solo ω} (h : P s) : P (run n s) := by
  fun_induction run n s with
  | case1 s => exact h
  | case2 s n quiet ih => exact ih (hmilli _ (hquiet s n h))

/-- A loop that is not about to tick lets time pass. -/
theorem advance_of_not_isWaiting (h : s.loop.Rests) (hw : s.loop.isWaiting = false) (n : Nat) :
    s.advance n = { s with now := s.now + n } := by
  have hrun : ∃ now, run n s = { s with now } := by
    refine run_preserves (P := fun s' => ∃ now, s' = { s with now }) ?_ ?_ n ⟨s.now, rfl⟩
    · rintro - n ⟨now, rfl⟩
      exact ⟨_, rfl⟩
    · rintro - ⟨now, rfl⟩
      exact ⟨now + 1, passMilli_of_not_isDue h (PollLoop.isDue_of_not_isWaiting hw)⟩
  obtain ⟨now, hnow⟩ := hrun
  have hlast : now = s.now + n := (congrArg Solo.now hnow).symm.trans (now_run n s)
  rw [advance, settle_of_rests h, hnow, hlast]

/-- A loop that has looked, and is over or was asked to stop, is waited for until it is over. -/
theorem join_eq (hheld : s.isHeld = true) (hrests : s.loop.Rests)
    (hend : s.loop.isOver = true ∨ s.loop.stopping = true) :
    s.join =
      .ok (if (s.advance (s.loop.timeLeft s.now)).loop.phase = .crashed
          then .error (.crashed (Worker.name ω))
          else .ok (s.advance (s.loop.timeLeft s.now)).loop.stats,
        { s.advance (s.loop.timeLeft s.now) with joined := true }) := by
  have hstopped : ¬(!s.loop.isOver && !s.loop.stopping) = true := by
    rcases hend with h | h
    · simp [h]
    · simp [h]
  rw [join, if_neg (by simp [hheld]), if_neg hstopped]
  dsimp only
  rw [settle_of_rests hrests]

end Solo

end GridRobot
