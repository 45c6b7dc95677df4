import GridRobot.Proofs.Station.Lifecycle

/-!
# Loops that overlap

A loop that a shutdown takes out of its slot ticks once more, and the empty slot
does not tell of it: a loop that is started meanwhile works beside it
(`Station.overlap_after_shutdown`). This is the only way to have two loops in
one lane. If nobody starts a loop between a shutdown and the end of the loop
that it took, at most one loop of each way goes on
(`Station.Way.oneAtATime_run`); and in any case a loop that is not in charge is
over or was asked to stop (`Station.Way.leftAsked_run`).
-/

namespace GridRobot

namespace Station

namespace Way

variable (d : Way)

/-- Nobody starts a loop of the way between a shutdown and the end of the loop that it took. -/
def Patient (act : Act) (s : Station) : Prop := (d.lane s).Patient (d.note act s)

instance (act : Act) (s : Station) : Decidable (d.Patient act s) :=
  inferInstanceAs (Decidable (Lane.Patient _ _))

/-- An action of a station is at most one action of each of its lanes. -/
theorem acts_onLane (act : Act) (s : Station) :
    d.onLane.acts act s = [] ∨ ∃ a, d.onLane.acts act s = [a] := by
  cases d with
  | outbound => cases act <;> simp [onLane, outboundLane]
  | inbound =>
    cases act with
    | start =>
      simp only [onLane, inboundLane]
      split
      · exact .inr ⟨_, rfl⟩
      · exact .inl rfl
    | _ => simp [onLane, inboundLane]

theorem lane_beginShutdown (s : Station) : d.lane s.beginShutdown.2 = (d.lane s).detach := by
  cases d <;> rfl

theorem eq_start_of_mem {s : Station} {a : Lane.Act d.Item} (h : a ∈ d.onLane.acts .start s) :
    ∃ wait, a = .start wait := by
  cases d with
  | outbound => exact ⟨_, List.mem_singleton.1 h⟩
  | inbound =>
    simp only [onLane, inboundLane] at h
    split at h
    · exact ⟨_, List.mem_singleton.1 h⟩
    · cases h

theorem eq_beginShutdown_of_mem {act : Act} {s : Station} (h : .detach ∈ d.onLane.acts act s) :
    act = .beginShutdown := by
  cases act with
  | beginShutdown => rfl
  | start =>
    obtain ⟨wait, hwait⟩ := d.eq_start_of_mem h
    cases hwait
  | _ => cases d <;> simp [onLane, outboundLane, inboundLane] at h

/-- An action of a station is an action of the lane of a way, or nothing happens there. -/
theorem lane_step (act : Act) (s : Station) : d.lane (machine.step act s) = d.lane s ∨
    ∃ a ∈ d.onLane.acts act s, d.lane (machine.step act s) = Lane.machine.step a (d.lane s) := by
  have hview := d.onLane.view_step act s
  rcases d.acts_onLane act s with hacts | ⟨a, hacts⟩
  · rw [hacts] at hview
    exact .inl hview
  · rw [hacts] at hview ⊢
    exact .inr ⟨a, List.mem_singleton_self a, hview⟩

theorem step_lane (act : Act) (s : Station) :
    (d.lane (machine.step act s) = d.lane s ∧ d.note act s = []) ∨
      ∃ a, d.lane (machine.step act s) = Lane.machine.step a (d.lane s) ∧
        d.note act s = Lane.note a (d.lane s) := by
  have hview := d.onLane.view_step act s
  rcases d.acts_onLane act s with hacts | ⟨a, hacts⟩
  · rw [hacts] at hview
    exact .inl ⟨hview, by rw [note, Simulation.see, hacts, Machine.log_nil]⟩
  · rw [hacts] at hview
    refine .inr ⟨a, hview, ?_⟩
    rw [note, Simulation.see, hacts, Machine.log_cons, Machine.log_nil, List.append_nil]
    rfl

/-- If it was noted that a loop was started, then it was launched, as none was in the way. -/
theorem exists_launch {act : Act} {s : Station} {i : Nat} (h : d.note act s = [.started i]) :
    ∃ wait, (∀ l, (d.lane s).current = some l → l.isOver = true) ∧
      d.lane (machine.step act s) = (d.lane s).launch wait ∧ i = (d.lane s).loops.length := by
  rcases d.step_lane act s with ⟨-, hnote⟩ | ⟨a, hlane, hnote⟩
  · cases h.symm.trans hnote
  · rw [hlane]
    rcases Lane.step_cases a (d.lane s) with ⟨wait, hover, hstep, hstarted⟩ | ⟨-, hshut⟩ |
        ⟨-, hnone⟩
    · cases h.symm.trans (hnote.trans hstarted)
      exact ⟨wait, hover, hstep, rfl⟩
    · cases h.symm.trans (hnote.trans hshut)
    · cases h.symm.trans (hnote.trans hnone)

/-- If nothing was noted, the loops go on. -/
theorem goesOn_of_note_eq_nil {act : Act} {s : Station} (h : d.note act s = []) :
    (d.lane s).GoesOn (d.lane (machine.step act s)) := by
  rcases d.step_lane act s with ⟨hlane, -⟩ | ⟨a, hlane, hnote⟩
  · rw [hlane]
    exact .of_eq rfl rfl
  · rw [hlane]
    rcases Lane.step_cases a (d.lane s) with ⟨_, -, -, hstart⟩ | ⟨-, hshut⟩ | ⟨hgoes, -⟩
    · cases h.symm.trans (hnote.trans hstart)
    · cases h.symm.trans (hnote.trans hshut)
    · exact hgoes

theorem oneAtATime_step {act : Act} {s : Station} (hpatient : d.Patient act s)
    (h : (d.lane s).OneAtATime) : (d.lane (machine.step act s)).OneAtATime := by
  rcases d.step_lane act s with ⟨hlane, -⟩ | ⟨a, hlane, hnote⟩
  · rw [hlane]
    exact h
  · rw [hlane]
    exact h.step (hnote ▸ hpatient)

/-- At most one loop of a way goes on, if nobody starts one between a shutdown and the end of the
    loop that it took. -/
theorem oneAtATime_run (c : Cadence) {acts : List Act}
    (hacts : machine.Allowed d.Patient acts (create c)) :
    (d.lane (machine.run acts (create c))).OneAtATime := by
  refine machine.run_preserves_of_allowed (I := fun s => (d.lane s).OneAtATime)
    (fun act s => d.oneAtATime_step) hacts ?_
  rw [d.lane_create]
  exact ⟨nofun, nofun⟩

/-- The next loop is started when the one that a shutdown took has ticked and is over. -/
theorem oneAtATime_run_restart :
    let acts : List Act := [.startOutbound 5, .checkOutbound 0 0, .beginShutdown,
      .tickOutbound 0, .checkOutbound 5 0, .startOutbound 5]
    machine.Allowed outbound.Patient acts (create default) ∧
      (outbound.lane (machine.run acts (create default))).OneAtATime := by
  intro acts
  have hacts : machine.Allowed outbound.Patient acts (create default) := by decide
  exact ⟨hacts, outbound.oneAtATime_run default hacts⟩

/-- A loop that is not in charge is over or was asked to stop. -/
theorem leftAsked_run (c : Cadence) (acts : List Act) :
    (d.lane (machine.run acts (create c))).LeftAsked := by
  refine d.onLane.view_run_preserves (fun act _ h => h.step act) acts ?_
  rw [show d.onLane.view (create c) = { worker := {} } from d.lane_create c]
  exact fun i l hl => by cases hl

end Way

/-- A loop is started while the one that a shutdown took has still to tick. -/
theorem overlap_after_shutdown :
    let acts : List Act := [.startOutbound 5, .checkOutbound 0 0, .beginShutdown, .startOutbound 5]
    (machine.run acts (create default)).outbound.loops.map PollLoop.isOver = [false, false] :=
  rfl

end Station

end GridRobot
