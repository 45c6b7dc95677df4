import GridRobot.Proofs.Loop.Timetable

/-!
# When a loop ticks

A loop that has a wait is ticked by hand, or not, and started. From when it
first looks it keeps to its timetable: asking it to stop makes the next tick its
last one, also if it has ticked in that very millisecond. A loop that was asked
to stop before it first looks does not tick at all (`Solo.keeps_timetable`).
-/

namespace GridRobot

namespace Solo

variable {ω : Type} [Worker ω] {w : ω} {wait m : Nat} {acts : List Act}

/-! ### Before the loop looks -/

/-- A loop that was ticked `m` times by hand, and not otherwise. -/
def standing (w : ω) (wait m : Nat) (stopping : Bool) (phase : Phase) (now : Nat) : Solo ω where
  now := now
  worker := Worker.after w m
  loop := { wait, stopping, stats := Worker.tally w m, phase }

/-- Before it is started, a loop does nothing but tick by hand. -/
theorem step_unstarted (hwait : 0 < wait) {act : Act} (hact : act ≠ .start)
    (hsound : act = .tick → Worker.outcome w m ≠ none) (stopping : Bool) (now : Nat) :
    ∃ now', machine.step act (standing w wait m stopping .unstarted now) =
      standing w wait (m + [act].count .tick) (stopping || act = .requestStop) .unstarted now' := by
  have hrests : (standing w wait m stopping .unstarted now).loop.Rests := ⟨hwait, nofun⟩
  cases act with
  | tick =>
    obtain ⟨o, ho⟩ := Option.ne_none_iff_exists'.1 (hsound rfl)
    have htick : (standing w wait m stopping .unstarted now).tick =
        .ok (some o, standing w wait (m + 1) stopping .unstarted now) := by
      have hworker : Worker.tick (Worker.after w m) = (some o, Worker.after w (m + 1)) :=
        Prod.ext ho rfl
      simp [tick, isStarted, standing, hworker, Worker.tally_succ ho, PollLoop.ticked]
    exact ⟨now, by simp [machine, htick, Except.toOption]⟩
  | start => exact absurd rfl hact
  | requestStop => exact ⟨now, by simp [machine, standing, requestStop, PollLoop.requestStop]⟩
  | settle => exact ⟨now, by simpa [machine] using settle_of_rests hrests⟩
  | advance n =>
    refine ⟨now + n, ?_⟩
    simp only [machine, advance_of_not_isWaiting hrests rfl n]
    simp [standing]

theorem run_unstarted (hwait : 0 < wait) (hstart : .start ∉ acts)
    (hsound : ∀ k < m + acts.count .tick, Worker.outcome w k ≠ none) (stopping : Bool) (now : Nat) :
    ∃ now', machine.run acts (standing w wait m stopping .unstarted now) =
      standing w wait (m + acts.count .tick) (stopping || decide (.requestStop ∈ acts)) .unstarted
        now' := by
  induction acts generalizing m stopping now with
  | nil => exact ⟨now, by simp⟩
  | cons act acts ih =>
    have hcount : m + (act :: acts).count .tick = m + [act].count .tick + acts.count .tick := by
      rw [← List.singleton_append, List.count_append, Nat.add_assoc]
    have hact : act ≠ .start := fun h => hstart (h ▸ List.mem_cons_self)
    have hfirst : act = .tick → Worker.outcome w m ≠ none := by
      rintro rfl
      exact hsound m (by rw [List.count_cons_self]; omega)
    obtain ⟨now₁, hstep⟩ := step_unstarted hwait hact hfirst stopping now
    obtain ⟨now₂, hrun⟩ := ih (fun h => hstart (List.mem_cons_of_mem _ h)) (hcount ▸ hsound)
      (stopping || act = .requestStop) now₁
    refine ⟨now₂, ?_⟩
    rw [Machine.run_cons, hstep, hrun, hcount, Bool.or_assoc]
    simp [eq_comm]

theorem step_start (stopping : Bool) (now : Nat) :
    machine.step .start (standing w wait m stopping .unstarted now) =
      standing w wait m stopping .checking now := rfl

/-- A loop that was not asked to stop before it looked waits for its first tick. -/
theorem settle_standing (hwait : 0 < wait) (now : Nat) :
    (standing w wait m false .checking now).settle =
      standing w wait m false (.waiting (now + wait)) now := by
  rw [settle_eq hwait]
  rfl

/-- Between its start and its first look, a loop does nothing but note that it should stop. -/
theorem run_checking (hacts : ∀ act ∈ acts, act.settles = false) (stopping : Bool) (now : Nat) :
    machine.run acts (standing w wait m stopping .checking now) =
      standing w wait m (stopping || decide (.requestStop ∈ acts)) .checking now := by
  induction acts generalizing stopping with
  | nil => simp
  | cons act acts ih =>
    rw [List.forall_mem_cons] at hacts
    have hstep : machine.step act (standing w wait m stopping .checking now) =
        standing w wait m (stopping || act = .requestStop) .checking now := by
      cases act with
      | tick => simp [machine, tick, isStarted, standing, Except.toOption]
      | start => simp [machine, start, isStarted, standing, Except.toOption]
      | requestStop => simp [machine, standing, requestStop, PollLoop.requestStop]
      | settle => cases hacts.1
      | advance n => cases hacts.1
    rw [Machine.run_cons, hstep, ih hacts.2, Bool.or_assoc]
    simp [eq_comm]

/-- A loop that has looked and was not asked to stop waits for its first tick. -/
theorem kept_standing (hwait : 0 < wait) (now : Nat) :
    (⟨w, wait, m, now⟩ : Timetable ω).Kept []
      (standing w wait m false (.waiting (now + wait)) now) := by
  refine ⟨rfl, hwait, rfl, .waiting 0 nofun ⟨rfl, rfl⟩ ?_ ?_ ?_ rfl nofun⟩
  · simp [standing, Timetable.due]
  · simp [standing, Timetable.due]
  · simp [standing, Timetable.due, hwait]

/-! ### Loops that do not tick -/

/-- A loop that was asked to stop before it looked. -/
def resigned (w : ω) (wait m : Nat) (looked : Bool) (now : Nat) : Solo ω :=
  standing w wait m true (if looked then .finished else .checking) now

theorem rests_resigned (hwait : 0 < wait) (now : Nat) : (resigned w wait m true now).loop.Rests :=
  ⟨hwait, nofun⟩

/-- Such a loop is over as soon as it looks. -/
theorem settle_resigned (hwait : 0 < wait) (looked : Bool) (now : Nat) :
    (resigned w wait m looked now).settle = resigned w wait m true now := by
  rw [settle_eq hwait]
  cases looked with
  | false => rfl
  | true => rfl

theorem advance_resigned (hwait : 0 < wait) (looked : Bool) (now n : Nat) :
    (resigned w wait m looked now).advance n = resigned w wait m true (now + n) := by
  rw [advance, settle_resigned hwait, ← settle_of_rests (rests_resigned hwait now)]
  exact advance_of_not_isWaiting (rests_resigned hwait now) rfl n

theorem step_resigned (hwait : 0 < wait) (act : Act) (looked : Bool) (now : Nat) :
    ∃ now', machine.step act (resigned w wait m looked now) =
      resigned w wait m (looked || act.settles) now' := by
  cases act with
  | settle => exact ⟨now, by simpa [machine, Act.settles] using settle_resigned hwait looked now⟩
  | advance n =>
    exact ⟨now + n, by simpa [machine, Act.settles] using advance_resigned hwait looked now n⟩
  | _ => exact ⟨now, by cases looked <;> rfl⟩

theorem run_resigned (hwait : 0 < wait) (acts : List Act) (looked : Bool) (now : Nat) :
    ∃ now', machine.run acts (resigned w wait m looked now) =
      resigned w wait m (looked || acts.any Act.settles) now' := by
  induction acts generalizing looked now with
  | nil => exact ⟨now, by simp⟩
  | cons act acts ih =>
    obtain ⟨now₁, hstep⟩ := step_resigned (w := w) (m := m) hwait act looked now
    obtain ⟨now₂, hrun⟩ := ih (looked || act.settles) now₁
    refine ⟨now₂, ?_⟩
    rw [Machine.run_cons, hstep, hrun, List.any_cons, Bool.or_assoc]

theorem endsAt_resigned (hwait : 0 < wait) (looked : Bool) (now : Nat) :
    (resigned w wait m looked now).EndsAt now (.ok (Worker.tally w m)) := by
  have hheld : (resigned w wait m looked now).isHeld = true := by
    cases looked <;> rfl
  have hleft : ∀ time, (resigned w wait m true now).loop.timeLeft time = 0 := fun _ => rfl
  have hnothing := advance_resigned (w := w) (m := m) hwait true now 0
  refine ⟨{ resigned w wait m true now with joined := true }, ?_, rfl⟩
  rw [join, if_neg (by simp [hheld]), if_neg (by simp [resigned, standing])]
  simp only [settle_resigned hwait, hleft, hnothing]
  rfl

/-! ### The timetable -/

/-- What becomes of a loop with the timetable `t` that was asked to stop at the times `asked`, after
    it had looked for the first time. -/
structure OnTime (t : Timetable ω) (asked : List Nat) (s : Solo ω) : Prop where
  going (hasked : asked = []) (hsound : t.Sound (t.dueBy s.now)) :
    t.Made (t.dueBy s.now) (t.dueBy s.now) s ∧
      s.loop.phase = .waiting (t.due (t.dueBy s.now + 1))
  /-- The first request decides which tick is the last one. -/
  stopped {r : Nat} (hfirst : asked.head? = some r) (hsound : t.Sound (t.dueBy r + 1)) :
    t.Made (min (t.dueBy s.now) (t.dueBy r + 1)) (min (t.dueBy s.now) (t.dueBy r + 1)) s ∧
      s.loop.phase =
        (if t.due (t.dueBy r + 1) ≤ s.now then .finished else .waiting (t.due (t.dueBy r + 1))) ∧
      s.EndsAt (max s.now (t.due (t.dueBy r + 1))) (.ok (t.tally (t.dueBy r + 1)))
  /-- A tick that breaks the loop is its last one; it is not counted. -/
  crashed {p : Nat} (hasked : ∀ r ∈ asked.head?, p ≤ t.dueBy r) (hsound : t.Sound p)
      (hbreaks : t.outcome p = none) :
    t.Made (min (t.dueBy s.now) (p + 1)) (min (t.dueBy s.now) p) s ∧
      s.loop.phase =
        (if t.due (p + 1) ≤ s.now then .crashed else .waiting (t.due (t.dueBy s.now + 1))) ∧
      (s.loop.isOver = true ∨ asked ≠ [] →
        s.EndsAt (max s.now (t.due (p + 1))) (.error (.crashed (Worker.name ω))))

/-- What becomes of a loop that was asked to stop before it looked, and then had the time to look or
    not: it does not tick. -/
structure NeverTicks (w : ω) (m : Nat) (looked : Bool) (s : Solo ω) : Prop where
  worker : s.worker = Worker.after w m
  stats : s.loop.stats = Worker.tally w m
  phase : s.loop.phase = if looked then .finished else .checking
  endsAt : s.EndsAt s.now (.ok (Worker.tally w m))

theorem onTime_of_kept {t : Timetable ω} {asked : List Nat} {s : Solo ω} (h : t.Kept asked s) :
    OnTime t asked s := by
  constructor
  case going =>
    rintro rfl hsound
    exact h.going hsound
  case stopped =>
    intro r hfirst hsound
    obtain ⟨made, phase⟩ := h.stopped hfirst hsound
    exact ⟨made, phase, h.endsAt_of_stopped hfirst hsound⟩
  case crashed =>
    intro p hasked hsound hbreaks
    obtain ⟨made, phase⟩ := h.crashed hasked hsound hbreaks
    exact ⟨made, phase, h.endsAt_of_crashed hasked hsound hbreaks⟩

theorem neverTicks_run (hwait : 0 < wait) (acts : List Act) (now : Nat) :
    NeverTicks w m (acts.any Act.settles)
      (machine.run acts (standing w wait m true .checking now)) := by
  obtain ⟨last, hrun⟩ := run_resigned (w := w) (m := m) hwait acts false now
  rw [Bool.false_or] at hrun
  exact hrun ▸ ⟨rfl, rfl, rfl, endsAt_resigned hwait _ last⟩

/-- A loop with a wait that was ticked by hand before it was started keeps to the timetable that
    begins when it first looks; it does not tick if it was asked to stop before. -/
theorem keeps_timetable (w : ω) (wait now : Nat) (byHand : List Act) (hwait : 1 ≤ wait)
    (hstart : .start ∉ byHand) (hsound : ∀ k < byHand.count .tick, Worker.outcome w k ≠ none) :
    (.requestStop ∉ byHand → ∀ acts : List Act,
      let begun := machine.run (byHand ++ [.start, .settle]) { now, worker := w, loop := { wait } }
      OnTime ⟨w, wait, byHand.count .tick, begun.now⟩ (machine.log asked acts begun)
        (machine.run acts begun)) ∧
    ∀ early acts : List Act, (∀ act ∈ early, act.settles = false) →
      .requestStop ∈ byHand ++ early →
      NeverTicks w (byHand.count .tick) (acts.any Act.settles)
        (machine.run (byHand ++ .start :: early ++ acts)
          { now, worker := w, loop := { wait } }) := by
  obtain ⟨now', hbyHand⟩ :=
    run_unstarted (m := 0) hwait hstart (by simpa using hsound) false now
  rw [Nat.zero_add, Bool.false_or] at hbyHand
  constructor
  · intro hnone acts
    have hbegun : machine.run (byHand ++ [.start, .settle]) { now, worker := w, loop := { wait } } =
        standing w wait (byHand.count .tick) false (.waiting (now' + wait)) now' := by
      show machine.run _ (standing w wait 0 false .unstarted now) = _
      rw [Machine.run_append, hbyHand, decide_eq_false hnone, Machine.run_cons, step_start]
      exact settle_standing hwait now'
    simp only [hbegun]
    exact onTime_of_kept ((kept_standing hwait now').run acts)
  · intro early acts hearly hasked
    have hchecking : machine.run (byHand ++ .start :: early)
        (standing w wait 0 false .unstarted now) =
          standing w wait (byHand.count .tick) true .checking now' := by
      rw [Machine.run_append, hbyHand, Machine.run_cons, step_start, ← decide_eq_true hasked]
      simp only [List.mem_append, Bool.decide_or]
      exact run_checking hearly _ now'
    rw [Machine.run_append]
    exact hchecking ▸ neverTicks_run hwait acts now'

/-- A loop that is asked to stop when it has just ticked ticks once more, before the tick that
    would break it. -/
theorem keeps_timetable_reel :
    let reel : Reel := ⟨fun k => if k = 4 then none else some .processed⟩
    let byHand : List Act := [.tick, .advance 2]
    let acts : List Act := [.advance 6, .requestStop, .advance 1]
    .start ∉ byHand ∧ .requestStop ∉ byHand ∧
      (∀ k < byHand.count .tick, Worker.outcome reel k ≠ none) ∧
      EndsAt 11 (.ok { ticks := 4, processed := 4 })
        (machine.run acts (machine.run (byHand ++ [.start, .settle])
          { worker := reel, loop := { wait := 3 } })) := by
  intro reel byHand acts
  refine ⟨by decide, by decide, by decide, ?_⟩
  have h := (keeps_timetable reel 3 0 byHand (by decide) (by decide) (by decide)).1 (by decide) acts
  obtain ⟨s', hjoin, hnow⟩ := (h.stopped (r := 8) (by decide +kernel) (by decide +kernel)).2.2
  refine ⟨s', hjoin.trans ?_, hnow.trans (by decide +kernel)⟩
  exact congrArg (fun stats => Except.ok (Except.ok stats, s')) (by decide +kernel)

end Solo

end GridRobot
