import GridRobot.Proofs.Lane.Clock

/-!
# Lanes in which nothing more happens without time

The loops without a wait tick in rounds. In each round in which one of them
takes part, an item is taken off the queue, and those that were asked to stop
come to their end in the first round. So after the first round, and as many more
as there are items that wait, the lane is *still* (`Lane.Clock.still_spins`):
further rounds change nothing.

A lane may be told of more rounds than it needs, and of time that passes in
which no loop of it is due, because somebody else needs them. It does not notice
(`Lane.Clock.Still.alike_spins`, `Lane.Clock.Still.alike_idle`): what happens to
it and when is what happens if it is alone (`Lane.Clock.settling`,
`Lane.Clock.millis`).
-/

namespace GridRobot

namespace Lane

namespace Clock

variable {α ε : Type} [Worker (Feed α ε)] {c : Clock α ε}

/-! ### Moves that cannot be told apart -/

/-- In this lane, it cannot be seen whether the one or the other happens. -/
structure Alike (ms ms' : List (Move α)) (c : Clock α ε) : Prop where
  run : machine.run ms c = machine.run ms' c
  timed : machine.log timed ms c = machine.log timed ms' c

namespace Alike

variable {ms ms' ms'' rest rest' : List (Move α)}

theorem refl (ms : List (Move α)) (c : Clock α ε) : Alike ms ms c := ⟨rfl, rfl⟩

theorem symm (h : Alike ms ms' c) : Alike ms' ms c := ⟨h.run.symm, h.timed.symm⟩

theorem trans (h : Alike ms ms' c) (h' : Alike ms' ms'' c) : Alike ms ms'' c :=
  ⟨h.run.trans h'.run, h.timed.trans h'.timed⟩

theorem append (h : Alike ms ms' c) (hrest : Alike rest rest' (machine.run ms c)) :
    Alike (ms ++ rest) (ms' ++ rest') c := by
  constructor
  · rw [machine.run_append, machine.run_append, hrest.run, h.run]
  · rw [machine.log_append, machine.log_append, hrest.timed, h.timed, h.run]

theorem cons (m : Move α) (h : Alike ms ms' (machine.step m c)) :
    Alike (m :: ms) (m :: ms') c :=
  append (refl [m] c) h

end Alike

/-! ### Still lanes -/

/-- All loops have looked. -/
def Looked (c : Clock α ε) : Prop := ∀ l ∈ c.lane.loops, l.phase ≠ .checking

/-- Nothing happens before time passes. -/
structure Still (c : Clock α ε) : Prop where
  looked : c.Looked
  idle : ∀ l ∈ c.lane.loops, spins l c.lane.worker = false

namespace Still

theorem ticks_spin (h : c.Still) : ticks .spin c = [] := (ticksOfEach_eq_nil 0).2 h.idle

theorem step_look (h : c.Still) : machine.step .look c = c :=
  congrArg (Clock.mk c.now) (checkAll_eq_self h.looked c.now)

theorem step_spin (h : c.Still) : machine.step .spin c = c := by
  have hfire : fireEach spins c.lane.loops c.lane.worker = (c.lane.loops, c.lane.worker) :=
    fireEach_eq_self h.idle
  have hspin : c.lane.spin c.now = c.lane.checkAll c.now := by
    show Lane.checkAll c.now { c.lane with
      loops := (fireEach spins c.lane.loops c.lane.worker).1
      worker := (fireEach spins c.lane.loops c.lane.worker).2 } = _
    rw [hfire]
  show Clock.mk c.now (c.lane.spin c.now) = c
  rw [hspin]
  exact h.step_look

/-- Further rounds change nothing, and nothing is seen of them. -/
theorem alike_replicate (h : c.Still) (n : Nat) : Alike (List.replicate n .spin) [] c := by
  induction n with
  | zero => exact .refl _ _
  | succ n ih =>
    have hlog : timed .spin c = [] := by
      rw [timed, beats, h.ticks_spin]
      rfl
    constructor
    · rw [List.replicate_succ, machine.run_cons, h.step_spin]
      exact ih.run
    · rw [List.replicate_succ, machine.log_cons, h.step_spin, hlog]
      exact ih.timed

end Still

/-- If a lane is still after some rounds, it cannot be seen whether more follow. -/
theorem alike_spins {m n : Nat} (h : (machine.run (List.replicate m .spin) c).Still) (hle : m ≤ n) :
    Alike (List.replicate n .spin) (List.replicate m .spin) c := by
  obtain ⟨k, rfl⟩ := Nat.exists_eq_add_of_le hle
  have hmore := (Alike.refl (List.replicate m .spin) c).append (h.alike_replicate k)
  rwa [List.replicate_append_replicate, List.append_nil] at hmore

/-! ### When a lane is still -/

/-- All loops have looked, and those without a wait that were asked to stop are over. -/
structure Cleared (c : Clock α ε) : Prop where
  looked : c.Looked
  stopping : ∀ l ∈ c.lane.loops, l.isSpinning = true → l.stopping = false

theorem looked_look (c : Clock α ε) : (machine.step .look c).Looked := by
  show ∀ l ∈ c.lane.loops.map (·.check c.now), l.phase ≠ .checking
  rw [List.forall_mem_map]
  exact fun l _ => l.phase_check_ne c.now

/-- A loop without a wait that takes part in a round has looked afterwards; if it was asked to stop,
    it is over. -/
theorem isSpinning_check_ticked {l : PollLoop} {now : Nat} {o : Option Outcome}
    (hl : l.isSpinning = true) (h : ((l.ticked o).check now).isSpinning = true) :
    ((l.ticked o).check now).stopping = false := by
  have hwaiting : l.isWaiting = true := by
    cases hphase : l.phase with
    | waiting due => simp [PollLoop.isWaiting, hphase]
    | _ => simp [PollLoop.isSpinning, hphase] at hl
  cases o with
  | none =>
    rw [PollLoop.check_crashed] at h
    cases h
  | some o =>
    rw [PollLoop.check_ticked hwaiting] at h ⊢
    cases hstop : l.stopping with
    | false => rfl
    | true => simp [PollLoop.isSpinning, hstop] at h

theorem cleared_spin (h : c.Looked) : (machine.step .spin c).Cleared := by
  have hcleared : ∀ l ∈ (fireEach spins c.lane.loops c.lane.worker).1,
      (l.check c.now).isSpinning = true → (l.check c.now).stopping = false := by
    refine forall_mem_fireEach (fun l w _ hspins => ?_) (fun l w hlooked hspins hl => ?_) h _
    · exact isSpinning_check_ticked (Bool.and_eq_true_iff.1 hspins).1
    · -- It would have taken part if it had been asked to stop.
      have hsame : l.check c.now = l := if_neg hlooked
      rw [hsame] at hl ⊢
      rw [spins, hl, Bool.true_and, Bool.or_eq_false_iff] at hspins
      exact hspins.1
  constructor
  · show ∀ l ∈ (fireEach spins c.lane.loops c.lane.worker).1.map (·.check c.now), _
    rw [List.forall_mem_map]
    exact fun l _ => l.phase_check_ne c.now
  · show ∀ l ∈ (fireEach spins c.lane.loops c.lane.worker).1.map (·.check c.now), _
    rw [List.forall_mem_map]
    exact hcleared

theorem cleared_spins (h : c.Looked) (n : Nat) :
    (machine.run (List.replicate (n + 1) .spin) c).Cleared := by
  induction n generalizing c with
  | zero => exact cleared_spin h
  | succ n ih => exact ih (cleared_spin h).looked

/-- The number of items that wait. -/
def waiting (c : Clock α ε) : Nat := c.lane.worker.queue.items.length

section

variable {work : α → ε × Outcome}
  (hwork : ∀ f : Feed α ε, Worker.tick f = (f.tick work).map some id)

include hwork

/-- In a round, as many items are taken as loops take part in it. -/
theorem waiting_spin (c : Clock α ε) :
    (machine.step .spin c).waiting = c.waiting - (ticks .spin c).length := by
  have hserves := serves_ticksOfEach hwork spins 0 c.lane.loops c.lane.worker
  have hqueue : (machine.step .spin c).lane.worker.queue.items =
      c.lane.worker.queue.items.drop (ticks .spin c).length := hserves.eq_drop
  rw [waiting, hqueue, List.length_drop]
  rfl

variable (hload : ∀ f : Feed α ε, Worker.load f = f.queue.size)

include hload

/-- A lane is still after as many rounds as items wait. -/
theorem still_spins (h : c.Cleared) {n : Nat} (hn : c.waiting ≤ n) :
    (machine.run (List.replicate n .spin) c).Still := by
  induction n generalizing c with
  | zero =>
    have hnone : Worker.load c.lane.worker = 0 := (hload _).trans (Nat.le_zero.1 hn)
    refine ⟨h.looked, fun l hl => ?_⟩
    cases hspins : l.isSpinning with
    | false => rw [spins, hspins, Bool.false_and]
    | true => simp [spins, hspins, h.stopping l hl hspins, hnone]
  | succ n ih =>
    -- Either no loop takes part in the next round, or one does and takes an item.
    rw [List.replicate_succ, machine.run_cons]
    by_cases hnone : ticks .spin c = []
    · have hstill : c.Still := ⟨h.looked, (ticksOfEach_eq_nil 0).1 hnone⟩
      rw [hstill.step_spin, (hstill.alike_replicate n).run]
      exact hstill
    · refine ih (cleared_spin h.looked) ?_
      have hpos := List.length_pos_iff.2 hnone
      rw [waiting_spin hwork]
      omega

end

/-! ### A lane that is alone -/

/-- What happens to a lane that is alone when it settles. -/
def settling (c : Clock α ε) : List (Move α) :=
  .look :: List.replicate (machine.step .look c).lane.rounds .spin

/-- What happens to a lane that is alone in a millisecond. -/
def milli (c : Clock α ε) : List (Move α) := .pass :: settling (machine.step .pass c)

/-- One millisecond passes for a lane that is alone. -/
def passMilli (c : Clock α ε) : Clock α ε := machine.run (milli c) c

/-- What happens to a lane that is alone in `n` milliseconds. -/
def millis (n : Nat) (c : Clock α ε) : List (Move α) := Machine.repeatActs passMilli milli n c

theorem run_millis (n : Nat) (c : Clock α ε) :
    machine.run (millis n c) c = n.repeat passMilli c :=
  (machine.run_repeatActs id (fun _ => rfl) n c).symm

theorem millis_add (m n : Nat) (c : Clock α ε) :
    millis (m + n) c = millis m c ++ millis n (machine.run (millis m c) c) := by
  rw [run_millis]
  exact Machine.repeatActs_add passMilli milli m n c

namespace Still

/-- While the lane is still and no loop is due, nothing happens in a millisecond. -/
theorem alike_milli (h : c.Still) (hdue : ∀ l ∈ c.lane.loops, l.isDue (c.now + 1) = false) :
    Alike (milli c) [.idle 1] c := by
  have hpass : machine.step .pass c = ⟨c.now + 1, c.lane⟩ :=
    congrArg (Clock.mk (c.now + 1)) (fireDue_eq_self hdue)
  have hbeats : timed .pass c = [] := by
    rw [timed, beats, show ticks .pass c = [] from (ticksOfEach_eq_nil 0).2 hdue]
    rfl
  have hstill : Still (⟨c.now + 1, c.lane⟩ : Clock α ε) := ⟨h.looked, h.idle⟩
  constructor
  · rw [milli, settling, machine.run_cons, machine.run_cons, hpass, hstill.step_look]
    exact (hstill.alike_replicate _).run
  · rw [milli, settling, machine.log_cons, machine.log_cons, hbeats, hpass, hstill.step_look]
    exact (hstill.alike_replicate _).timed

/-- It cannot be seen whether quiet time passes at once or in milliseconds. -/
theorem alike_millis (h : c.Still) {n : Nat}
    (hquiet : ∀ l ∈ c.lane.loops, ∀ k, 1 ≤ k → k ≤ n → l.isDue (c.now + k) = false) :
    Alike (millis n c) [.idle n] c := by
  induction n with
  | zero => exact ⟨rfl, rfl⟩
  | succ n ih =>
    have hbefore := ih fun l hl k hk hle => hquiet l hl k hk (Nat.le_succ_of_le hle)
    -- The lane stands as it did, so that the next millisecond is quiet as well.
    have hrun : machine.run (millis n c) c = ⟨c.now + n, c.lane⟩ := hbefore.run
    have hlast : Alike (milli (machine.run (millis n c) c)) [.idle 1]
        (machine.run (millis n c) c) := by
      rw [hrun]
      have hstill : Still (⟨c.now + n, c.lane⟩ : Clock α ε) := ⟨h.looked, h.idle⟩
      exact hstill.alike_milli fun l hl => hquiet l hl (n + 1) (Nat.le_add_left 1 n) (Nat.le_refl _)
    rw [millis_add]
    exact (hbefore.append hlast).trans ⟨rfl, rfl⟩

end Still

omit [Worker (Feed α ε)] in
/-- In time that is quiet no loop is due. -/
theorem not_isDue_of_quietFor {n q : Nat} (hq : q ≤ c.lane.quietFor c.now n) {l : PollLoop}
    (hl : l ∈ c.lane.loops) {k : Nat} (hpos : 1 ≤ k) (hk : k ≤ q) :
    l.isDue (c.now + k) = false := by
  by_cases hwait : l.wait = 0
  · rw [← Bool.not_eq_true]
    exact fun hdue => Nat.ne_of_gt (PollLoop.wait_pos_of_isDue hdue) hwait
  · have hwait : 0 < l.wait := Nat.pos_of_ne_zero hwait
    cases hphase : l.phase with
    | waiting due =>
      have hle : c.lane.quietFor c.now n ≤ due - (c.now + 1) :=
        quietFor_le_of_mem hl hwait hphase n
      rw [PollLoop.isDue_of_waiting hwait hphase]
      exact decide_eq_false (by omega)
    | _ => exact PollLoop.isDue_of_not_isWaiting (by simp [PollLoop.isWaiting, hphase])

section

variable {work : α → ε × Outcome}
  (hwork : ∀ f : Feed α ε, Worker.tick f = (f.tick work).map some id)
  (hload : ∀ f : Feed α ε, Worker.load f = f.queue.size)

include hwork hload

theorem still_settling (c : Clock α ε) : (machine.run (settling c) c).Still := by
  have hrounds : (machine.step .look c).lane.rounds = (machine.step .look c).waiting + 1 :=
    congrArg (· + 1) (hload _)
  rw [settling, machine.run_cons, hrounds, List.replicate_succ, machine.run_cons]
  refine still_spins hwork hload (cleared_spin (looked_look c)) ?_
  rw [waiting_spin hwork]
  exact Nat.sub_le _ _

/-- If a lane is still after some rounds, it cannot be seen whether they are more than it needs. -/
theorem alike_settling {n : Nat}
    (h : (machine.run (.look :: List.replicate n .spin) c).Still) :
    Alike (.look :: List.replicate n .spin) (settling c) c := by
  refine .cons .look ?_
  rcases Nat.le_total n (machine.step .look c).lane.rounds with hle | hle
  · exact (alike_spins h hle).symm
  · exact alike_spins (still_settling hwork hload c) hle

end

end Clock

end Lane

end GridRobot
