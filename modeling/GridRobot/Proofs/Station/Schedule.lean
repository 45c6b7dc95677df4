import GridRobot.Proofs.Station.Run

/-!
# The schedule of a station

The clock of a session moves all loops of a station on together: those that are
about to look whether they should stop do so (`checkAll`), those whose wait is
over tick (`fireDue`), and those that have no wait tick and look again (`spin`).
Each of the three is a run in which loops take single steps, one after the
other. So what holds after every run holds whatever the clock does.
-/

namespace GridRobot

namespace PollLoop

variable {l : PollLoop} {now : Nat}

theorem isWaiting_of_isDue (h : l.isDue now = true) : l.isWaiting = true := by
  cases hphase : l.phase with
  | waiting due => rw [isWaiting, hphase]
  | _ =>
    rw [isDue, hphase] at h
    cases h

theorem isWaiting_of_isSpinning (h : l.isSpinning = true) : l.isWaiting = true := by
  cases hphase : l.phase with
  | waiting due => rw [isWaiting, hphase]
  | _ =>
    rw [isSpinning, hphase] at h
    cases h

end PollLoop

namespace Lane

variable {α ε : Type} [Worker (Feed α ε)]

/-- What a loop does by itself. -/
inductive Act.IsStep : Act α → Prop
  | check (now i : Nat) : IsStep (.check now i)
  | tick (i : Nat) : IsStep (.tick i)

/-- The second lane comes of the first by single steps of its loops. -/
def Steps (a b : Lane (Feed α ε)) : Prop :=
  ∃ acts : List (Act α), (∀ act ∈ acts, act.IsStep) ∧ machine.run acts a = b

namespace Steps

variable {a b c : Lane (Feed α ε)}

theorem refl (a : Lane (Feed α ε)) : a.Steps a := ⟨[], List.forall_mem_nil _, rfl⟩

theorem trans (hab : a.Steps b) (hbc : b.Steps c) : a.Steps c := by
  obtain ⟨acts, hacts, rfl⟩ := hab
  obtain ⟨acts', hacts', rfl⟩ := hbc
  exact ⟨acts ++ acts', List.forall_mem_append.2 ⟨hacts, hacts'⟩, machine.run_append acts acts' a⟩

theorem of_isStep {act : Act α} (h : act.IsStep) (a : Lane (Feed α ε)) :
    a.Steps (machine.step act a) :=
  ⟨[act], List.forall_mem_singleton.2 h, rfl⟩

end Steps

/-! ### All loops of a lane -/

variable {done ls : List PollLoop} {w : Feed α ε} {slot : Option Nat}

theorem step_check (now : Nat) (l : PollLoop) :
    machine.step (.check now done.length) (⟨w, done ++ l :: ls, slot⟩ : Lane (Feed α ε)) =
      ⟨w, done ++ l.check now :: ls, slot⟩ :=
  congrArg (fun loops => (⟨w, loops, slot⟩ : Lane _)) (List.modifyTailIdx_add _ 0 done (l :: ls))

theorem step_tick {l : PollLoop} (hl : l.isWaiting = true) :
    machine.step (.tick done.length) (⟨w, done ++ l :: ls, slot⟩ : Lane (Feed α ε)) =
      ⟨(l.fire w).2, done ++ (l.fire w).1 :: ls, slot⟩ := by
  refine (tickAt_of_isWaiting (l := l) (by simp) hl).trans ?_
  simp

/-- All loops look, one after the other; `done` are those that have looked. -/
theorem steps_map_check (now : Nat) (done ls : List PollLoop) (w : Feed α ε) (slot : Option Nat) :
    Steps ⟨w, done ++ ls, slot⟩ ⟨w, done ++ ls.map (·.check now), slot⟩ := by
  induction ls generalizing done with
  | nil => exact .refl _
  | cons l ls ih =>
    have hfirst := Steps.of_isStep (.check now done.length) (⟨w, done ++ l :: ls, slot⟩ : Lane _)
    have hrest := ih (done ++ [l.check now])
    rw [step_check] at hfirst
    rw [List.append_assoc, List.append_assoc] at hrest
    exact hfirst.trans hrest

/-- The chosen loops tick, one after the other, if only loops that have waited are chosen. -/
theorem steps_fireEach {p : PollLoop → Feed α ε → Bool}
    (hp : ∀ l w, p l w = true → l.isWaiting = true) (done ls : List PollLoop)
    (slot : Option Nat) :
    Steps ⟨w, done ++ ls, slot⟩ ⟨(fireEach p ls w).2, done ++ (fireEach p ls w).1, slot⟩ := by
  induction ls generalizing done w with
  | nil => exact .refl _
  | cons l ls ih =>
    rw [fireEach]
    by_cases hl : p l w = true
    · have hfirst := Steps.of_isStep (.tick done.length) (⟨w, done ++ l :: ls, slot⟩ : Lane _)
      have hrest := ih (w := (l.fire w).2) (done ++ [(l.fire w).1])
      rw [step_tick (hp l w hl)] at hfirst
      rw [List.append_assoc, List.append_assoc] at hrest
      rw [if_pos hl]
      exact hfirst.trans hrest
    · -- A loop that is not chosen is passed over without a step.
      have hrest := ih (w := w) (done ++ [l])
      rw [List.append_assoc, List.append_assoc] at hrest
      rw [if_neg hl]
      exact hrest

theorem steps_checkAll (now : Nat) (a : Lane (Feed α ε)) : a.Steps (a.checkAll now) :=
  steps_map_check now [] a.loops a.worker a.slot

theorem steps_fireDue (now : Nat) (a : Lane (Feed α ε)) : a.Steps (a.fireDue now) :=
  steps_fireEach (fun _ _ hl => PollLoop.isWaiting_of_isDue hl) [] a.loops a.slot

theorem steps_spin (now : Nat) (a : Lane (Feed α ε)) : a.Steps (a.spin now) := by
  have hfire := steps_fireEach (w := a.worker)
    (p := fun l w => l.isSpinning && (l.stopping || Worker.load w ≠ 0))
    (fun l w hl => PollLoop.isWaiting_of_isSpinning (Bool.and_eq_true_iff.1 hl).1) [] a.loops a.slot
  exact hfire.trans (steps_checkAll now _)

end Lane

namespace Station

/-! ### All loops of a station -/

/-- What a loop does by itself. -/
inductive Act.IsStep : Act → Prop
  | checkOutbound (now i : Nat) : IsStep (.checkOutbound now i)
  | checkInbound (now i : Nat) : IsStep (.checkInbound now i)
  | tickOutbound (i : Nat) : IsStep (.tickOutbound i)
  | tickInbound (i : Nat) : IsStep (.tickInbound i)

variable {s : Station} {a : Lane OutboundFeed} {b : Lane InboundFeed}

theorem exists_run_of_steps_outbound (h : s.outbound.Steps a) :
    ∃ acts, (∀ act ∈ acts, act.IsStep) ∧ machine.run acts s = { s with outbound := a } := by
  obtain ⟨outs, houts, rfl⟩ := h
  refine machine.exists_run_of_forall (fun a => { s with outbound := a })
    (fun act hact a => ?_) s.outbound
  cases houts act hact with
  | check now i => exact ⟨.checkOutbound now i, .checkOutbound now i, rfl⟩
  | tick i => exact ⟨.tickOutbound i, .tickOutbound i, rfl⟩

theorem exists_run_of_steps_inbound (h : s.inbound.Steps b) :
    ∃ acts, (∀ act ∈ acts, act.IsStep) ∧ machine.run acts s = { s with inbound := b } := by
  obtain ⟨ins, hins, rfl⟩ := h
  refine machine.exists_run_of_forall (fun b => { s with inbound := b })
    (fun act hact b => ?_) s.inbound
  cases hins act hact with
  | check now i => exact ⟨.checkInbound now i, .checkInbound now i, rfl⟩
  | tick i => exact ⟨.tickInbound i, .tickInbound i, rfl⟩

/-- Single steps of the loops of both lanes are single steps of the loops of the station. -/
theorem exists_run_of_steps (ha : s.outbound.Steps a) (hb : s.inbound.Steps b) :
    ∃ acts, (∀ act ∈ acts, act.IsStep) ∧
      machine.run acts s = { s with outbound := a, inbound := b } := by
  obtain ⟨outs, houts, hrun⟩ := exists_run_of_steps_outbound ha
  obtain ⟨ins, hins, hrun'⟩ := exists_run_of_steps_inbound (s := { s with outbound := a }) hb
  refine ⟨outs ++ ins, List.forall_mem_append.2 ⟨houts, hins⟩, ?_⟩
  rw [machine.run_append, hrun, hrun']

theorem exists_run_checkAll (now : Nat) (s : Station) :
    ∃ acts, (∀ act ∈ acts, act.IsStep) ∧ machine.run acts s = s.checkAll now :=
  exists_run_of_steps (s.outbound.steps_checkAll now) (s.inbound.steps_checkAll now)

theorem exists_run_fireDue (now : Nat) (s : Station) :
    ∃ acts, (∀ act ∈ acts, act.IsStep) ∧ machine.run acts s = s.fireDue now :=
  exists_run_of_steps (s.outbound.steps_fireDue now) (s.inbound.steps_fireDue now)

theorem exists_run_spin (now : Nat) (s : Station) :
    ∃ acts, (∀ act ∈ acts, act.IsStep) ∧ machine.run acts s = s.spin now :=
  exists_run_of_steps (s.outbound.steps_spin now) (s.inbound.steps_spin now)

end Station

end GridRobot
