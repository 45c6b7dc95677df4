import GridRobot.Proofs.Lane.Slot

/-!
# Loops that have a wait

A loop that has a wait and has looked whether it should stop does nothing until
its wait is over (`Lane.spin_eq_self`). Then it ticks once and looks again
(`PollLoop.fire`, `PollLoop.check`).
-/

namespace GridRobot

namespace PollLoop

variable {l : PollLoop} {now : Nat}

@[simp] theorem wait_check (now : Nat) (l : PollLoop) : (l.check now).wait = l.wait := by
  rw [check]
  split <;> rfl

@[simp] theorem wait_ticked (l : PollLoop) (o : Option Outcome) : (l.ticked o).wait = l.wait := by
  cases o <;> rfl

/-- The loop has a wait, and has looked whether it should stop if it was about to. -/
structure Rests (l : PollLoop) : Prop where
  wait_pos : 0 < l.wait
  phase_ne : l.phase ≠ .checking

theorem phase_check_ne (now : Nat) (l : PollLoop) : (l.check now).phase ≠ .checking := by
  rw [check]
  split
  · split <;> simp
  · assumption

theorem rests_check (hwait : 0 < l.wait) (now : Nat) : (l.check now).Rests :=
  ⟨by rwa [wait_check], l.phase_check_ne now⟩

theorem Rests.check_eq_self (h : l.Rests) (now : Nat) : l.check now = l := if_neg h.phase_ne

theorem Rests.isSpinning (h : l.Rests) : l.isSpinning = false := by
  rw [PollLoop.isSpinning]
  split
  · exact decide_eq_false (Nat.ne_of_gt h.wait_pos)
  · rfl

/-- A loop that has ticked looks whether it should stop, and waits again if not. -/
theorem check_ticked (h : l.isWaiting = true) (o : Outcome) (now : Nat) :
    (l.ticked (some o)).check now =
      { l with
        stats := l.stats.record o
        phase := if l.stopping then .finished else .waiting (now + l.wait) } := by
  rw [ticked_of_isWaiting h]
  exact if_pos rfl

theorem check_crashed (l : PollLoop) (now : Nat) :
    (l.ticked none).check now = { l with phase := .crashed } :=
  if_neg nofun

theorem isDue_of_waiting {due : Nat} (hwait : 0 < l.wait) (hphase : l.phase = .waiting due) :
    l.isDue now = decide (due ≤ now) := by
  simp [isDue, hphase, Nat.ne_of_gt hwait]

theorem wait_pos_of_isDue (h : l.isDue now = true) : 0 < l.wait := by
  rw [isDue] at h
  split at h
  · exact Nat.pos_of_ne_zero (of_decide_eq_true (Bool.and_eq_true_iff.1 h).1)
  · cases h

theorem isDue_of_not_isWaiting (h : l.isWaiting = false) : l.isDue now = false := by
  cases hphase : l.phase with
  | waiting due => simp [isWaiting, hphase] at h
  | _ => rw [isDue, hphase]

theorem isDue_of_isOver (h : l.isOver = true) : l.isDue now = false :=
  isDue_of_not_isWaiting (isWaiting_of_isOver h)

theorem phase_ne_of_isOver (h : l.isOver = true) : l.phase ≠ .checking := fun hphase => by
  simp [isOver, hphase] at h

theorem check_of_isOver (h : l.isOver = true) (now : Nat) : l.check now = l :=
  if_neg (phase_ne_of_isOver h)

theorem quietFor_of_waiting {due : Nat} (hwait : 0 < l.wait) (hphase : l.phase = .waiting due)
    (n : Nat) : l.quietFor now n = min n (due - (now + 1)) := by
  simp only [quietFor, hphase, if_neg (Nat.ne_of_gt hwait)]

/-- A loop that will be over when `due` has come is so after the time that is left. -/
theorem add_timeLeft {due : Nat} {ended : Phase} (hended : ended = .finished ∨ ended = .crashed)
    (hphase : l.phase = if due ≤ now then ended else .waiting due) :
    now + l.timeLeft now = max now due := by
  split at hphase
  · have hleft : l.timeLeft now = 0 := by
      rcases hended with rfl | rfl
      all_goals simp [timeLeft, hphase]
    omega
  · simp only [timeLeft, hphase]
    omega

/-! ### Loops in time -/

/-- The loop has a wait, and if it waits now, it does so no longer than that. -/
structure Timely (now : Nat) (l : PollLoop) : Prop where
  wait_pos : 0 < l.wait
  phase : l.phase = .checking ∨ l.phase = .finished ∨
    ∃ due, l.phase = .waiting due ∧ now < due ∧ due ≤ now + l.wait

theorem timely_started {wait : Nat} (hwait : 0 < wait) (now : Nat) : (started wait).Timely now :=
  ⟨hwait, .inl rfl⟩

namespace Timely

theorem requestStop (h : l.Timely now) : l.requestStop.Timely now := ⟨h.wait_pos, h.phase⟩

theorem check (h : l.Timely now) : (l.check now).Timely now := by
  refine ⟨by rw [wait_check]; exact h.wait_pos, ?_⟩
  rw [PollLoop.check]
  split
  · cases l.stopping with
    | true => exact .inr (.inl rfl)
    | false =>
      exact .inr (.inr ⟨_, rfl, Nat.lt_add_of_pos_right h.wait_pos, Nat.le_refl _⟩)
  · exact h.phase

theorem ticked (h : l.Timely now) (hw : l.isWaiting = true) (o : Outcome) (now' : Nat) :
    (l.ticked (some o)).Timely now' := by
  rw [ticked_of_isWaiting hw]
  exact ⟨h.wait_pos, .inl rfl⟩

/-- A loop that is not due yet stays as it is. -/
theorem later (h : l.Timely now) {now' : Nat} (hnow : now ≤ now')
    (hdue : ∀ due, l.phase = .waiting due → now' < due) : l.Timely now' := by
  refine ⟨h.wait_pos, h.phase.imp_right (.imp_right ?_)⟩
  rintro ⟨due, hphase, -, hle⟩
  exact ⟨due, hphase, hdue due hphase, Nat.le_trans hle (Nat.add_le_add_right hnow _)⟩

theorem waiting (h : l.Timely now) {due : Nat} (hphase : l.phase = .waiting due) :
    now < due ∧ due ≤ now + l.wait := by
  rcases h.phase with hc | hf | ⟨due', hw, hdue⟩
  · simp [hc] at hphase
  · simp [hf] at hphase
  · cases hw.symm.trans hphase
    exact hdue

theorem lt_of_not_isDue (h : l.Timely now) (hdue : l.isDue (now + 1) = false) {due : Nat}
    (hphase : l.phase = .waiting due) : now + 1 < due := by
  rw [isDue_of_waiting h.wait_pos hphase] at hdue
  simpa using hdue

end Timely

end PollLoop

section FireEach

variable {ω : Type} [Worker ω] {p : PollLoop → ω → Bool}

theorem fireEach_cons_of_pos {l : PollLoop} {w : ω} (h : p l w = true) (ls : List PollLoop) :
    fireEach p (l :: ls) w =
      ((l.fire w).1 :: (fireEach p ls (l.fire w).2).1, (fireEach p ls (l.fire w).2).2) := by
  rw [fireEach, if_pos h]

theorem fireEach_cons_of_neg {l : PollLoop} {w : ω} (h : p l w = false) (ls : List PollLoop) :
    fireEach p (l :: ls) w = (l :: (fireEach p ls w).1, (fireEach p ls w).2) := by
  rw [fireEach, if_neg (Bool.eq_false_iff.1 h)]

theorem fireEach_eq_self {ls : List PollLoop} {w : ω} (h : ∀ l ∈ ls, p l w = false) :
    fireEach p ls w = (ls, w) := by
  induction ls with
  | nil => rfl
  | cons l ls ih =>
    rw [List.forall_mem_cons] at h
    rw [fireEach_cons_of_neg h.1, ih h.2]

/-- What holds of the loops that have ticked, and of those that were passed over, holds of all. -/
theorem forall_mem_fireEach {P Q : PollLoop → Prop}
    (htick : ∀ l w, P l → p l w = true → Q (l.fire w).1)
    (hpass : ∀ l w, P l → p l w = false → Q l) {ls : List PollLoop} (h : ∀ l ∈ ls, P l) (w : ω) :
    ∀ l ∈ (fireEach p ls w).1, Q l := by
  induction ls generalizing w with
  | nil => exact nofun
  | cons l ls ih =>
    rw [List.forall_mem_cons] at h
    cases hl : p l w with
    | true =>
      rw [fireEach_cons_of_pos hl, List.forall_mem_cons]
      exact ⟨htick l w h.1 hl, ih h.2 _⟩
    | false =>
      rw [fireEach_cons_of_neg hl, List.forall_mem_cons]
      exact ⟨hpass l w h.1 hl, ih h.2 _⟩

/-- If only one loop can be chosen, then that one ticks or none does. -/
theorem fireEach_of_unique {ls : List PollLoop} {i : Nat} {l : PollLoop} (hl : ls[i]? = some l)
    (h : ∀ j l', ls[j]? = some l' → j ≠ i → ∀ w, p l' w = false) (w : ω) :
    fireEach p ls w =
      if p l w then (ls.set i (l.fire w).1, (l.fire w).2) else (ls, w) := by
  induction ls generalizing i with
  | nil => cases hl
  | cons l' ls ih =>
    cases i with
    | zero =>
      cases Option.some.inj hl
      have hrest : ∀ w, fireEach p ls w = (ls, w) := fun w => fireEach_eq_self fun l'' hmem =>
        let ⟨j, hj⟩ := List.mem_iff_getElem?.1 hmem
        h (j + 1) l'' hj (Nat.succ_ne_zero j) w
      cases hp : p l w with
      | true => rw [fireEach_cons_of_pos hp, hrest, if_pos rfl, List.set_cons_zero]
      | false => rw [fireEach_cons_of_neg hp, hrest, if_neg Bool.false_ne_true]
    | succ i =>
      have hfirst := h 0 l' rfl (Nat.succ_ne_zero i).symm w
      have hrest := ih hl fun j l'' hj hne => h (j + 1) l'' hj fun heq => hne (Nat.succ.inj heq)
      rw [fireEach_cons_of_neg hfirst, hrest]
      split <;> rfl

end FireEach

namespace Lane

variable {ω : Type} {a : Lane ω}

theorem checkAll_eq_self (h : ∀ l ∈ a.loops, l.phase ≠ .checking) (now : Nat) :
    a.checkAll now = a := by
  have hcheck : a.loops.map (·.check now) = a.loops :=
    (List.map_congr_left fun l hl => if_neg (h l hl)).trans a.loops.map_id
  rw [checkAll, hcheck]

/-- A loop of the lane that waits is not due in time that is quiet. -/
theorem quietFor_le_of_mem {l : PollLoop} (hl : l ∈ a.loops) (hwait : 0 < l.wait) {due : Nat}
    (hphase : l.phase = .waiting due) {now : Nat} (n : Nat) :
    a.quietFor now n ≤ due - (now + 1) := by
  rw [quietFor]
  generalize a.loops = ls at hl
  induction ls with
  | nil => cases hl
  | cons l' ls ih =>
    rw [List.foldr_cons]
    rcases List.mem_cons.1 hl with rfl | hl
    · rw [PollLoop.quietFor_of_waiting hwait hphase]
      exact Nat.min_le_right _ _
    · exact Nat.le_trans (l'.quietFor_le now _) (ih hl)

variable [Worker ω]

theorem fireDue_eq_self {now : Nat} (h : ∀ l ∈ a.loops, l.isDue now = false) :
    a.fireDue now = a := by
  rw [fireDue, fireEach_eq_self (p := fun l _ => l.isDue now) h]

/-- In a lane whose loops have looked, and all have a wait, nothing happens without time. -/
theorem spin_eq_self (h : ∀ l ∈ a.loops, l.Rests) (now : Nat) : a.spin now = a := by
  have hfire : fireEach (fun l w => l.isSpinning && (l.stopping || Worker.load w ≠ 0))
      a.loops a.worker = (a.loops, a.worker) :=
    fireEach_eq_self fun l hl => by rw [(h l hl).isSpinning, Bool.false_and]
  rw [spin, hfire]
  exact checkAll_eq_self (fun l hl => (h l hl).phase_ne) now

omit [Worker ω] in
theorem timely_requestStop {now : Nat} (a : Lane ω) (h : ∀ l ∈ a.loops, l.Timely now) :
    ∀ l ∈ a.requestStop.loops, l.Timely now := by
  intro l' hl'
  obtain ⟨i, hi⟩ := List.mem_iff_getElem?.1 hl'
  rw [requestStop] at hi
  split at hi
  · rw [update, List.getElem?_modify] at hi
    obtain ⟨l, hl, rfl⟩ := Option.map_eq_some_iff.1 hi
    have htimely := h l (List.mem_of_getElem? hl)
    split
    · exact htimely.requestStop
    · exact htimely
  · exact h l' (List.mem_of_getElem? hi)

/-! ### Waits -/

/-- The waits of all loops of a lane. -/
def waits {ω : Type} (a : Lane ω) : List Nat := a.loops.map PollLoop.wait

section

omit [Worker ω]

theorem getElem?_waits {i : Nat} {l : PollLoop} (h : a.loops[i]? = some l) :
    a.waits[i]? = some l.wait := by
  rw [waits, List.getElem?_map, h]
  rfl

/-- Loops that are started later leave the waits of the others as they are. -/
theorem getElem?_waits_of_append {b : Lane ω} (h : ∃ more, b.waits = a.waits ++ more) {i w : Nat}
    (hw : a.waits[i]? = some w) : b.waits[i]? = some w := by
  obtain ⟨more, hmore⟩ := h
  rw [hmore, List.getElem?_append_left (List.getElem?_eq_some_iff.1 hw).1, hw]

end

theorem waits_tickAt (i : Nat) (a : Lane ω) : (a.tickAt i).waits = a.waits := by
  rcases a.tickAt_cases i with ⟨-, h⟩ | ⟨-, l, hl, h⟩
  · rw [h]
  · obtain ⟨hlt, hget⟩ := List.getElem?_eq_some_iff.1 hl
    have hwait : (l.fire a.worker).1.wait = l.wait := PollLoop.wait_ticked l _
    rw [h]
    refine List.ext_getElem? fun j => ?_
    rw [waits, waits, List.getElem?_map, List.getElem?_map, List.getElem?_set]
    split
    · next hij =>
      subst hij
      simp [hlt, hget, hwait]
    · rfl

/-- The wait of a loop never changes; starting a loop adds one. -/
theorem waits_step {α ε : Type} [Worker (Feed α ε)] (act : Act α) (a : Lane (Feed α ε)) :
    ∃ more, (machine.step act a).waits = a.waits ++ more := by
  have hsame : ∀ b : Lane (Feed α ε), b.waits = a.waits → ∃ more, b.waits = a.waits ++ more :=
    fun b h => ⟨[], h.trans (List.append_nil _).symm⟩
  cases act with
  | start wait =>
    show ∃ more, (a.tryStart wait).waits = a.waits ++ more
    rcases a.tryStart_cases wait with h | h
    · exact hsame _ (congrArg waits h)
    · exact ⟨[wait], by rw [h, waits, List.map_append]; rfl⟩
  | requestStop => exact hsame _ (a.map_requestStop fun _ => rfl)
  | detach => exact hsame _ (a.map_requestStop fun _ => rfl)
  | check now i => exact hsame _ (map_update (PollLoop.wait_check now) i a)
  | tick i => exact hsame _ (waits_tickAt i a)
  | _ => exact hsame _ rfl

end Lane

end GridRobot
