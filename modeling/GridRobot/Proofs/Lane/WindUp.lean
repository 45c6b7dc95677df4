import GridRobot.Proofs.Lane.Counters
import GridRobot.Proofs.Lane.Paced
import GridRobot.Proofs.Station.Schedule
import Mathlib.Data.List.Basic

/-!
# Lanes that are shut down

In a lane that was shut down the loop that was in charge, if it waits, ticks
once more when it is due, and is over then; a loop that has not looked yet is
over as soon as it looks (`PollLoop.woundUp`). So at any time later it can be
told from the lane before how the loops stand, and that at most one item was
taken off the queue (`Lane.WindsUp`). It is so when the lane has been shut down
(`Lane.windsUp_detach`), and stays so with every millisecond that passes
(`Lane.WindsUp.passMilli`).
-/

namespace GridRobot

namespace PollLoop

variable {l : PollLoop} {now : Nat} {o : Outcome}

/-- When the loop ticks, if it waits. -/
def nextTick? (l : PollLoop) : Option Nat :=
  match l.phase with
  | .waiting due => some due
  | _ => none

theorem nextTick?_eq_some {due : Nat} : l.nextTick? = some due ↔ l.phase = .waiting due := by
  cases hphase : l.phase <;> simp [nextTick?, hphase]

/-- The loop as it stands at the time `now` if it was asked to stop before; `o` is what came of its
    last tick if it was due by then. -/
def woundUp (now : Nat) (o : Outcome) (l : PollLoop) : PollLoop :=
  match l.nextTick? with
  | some due =>
    if due ≤ now then { l with stopping := true, stats := l.stats.record o, phase := .finished }
    else l.requestStop
  | none => { l with stopping := true, phase := .finished }

theorem wait_woundUp (now : Nat) (o : Outcome) (l : PollLoop) :
    (l.woundUp now o).wait = l.wait := by
  rw [woundUp]
  split
  · split <;> rfl
  · rfl

theorem stopping_woundUp (now : Nat) (o : Outcome) (l : PollLoop) :
    (l.woundUp now o).stopping = true := by
  rw [woundUp]
  split
  · split <;> rfl
  · rfl

theorem phase_woundUp (now : Nat) (o : Outcome) (l : PollLoop) :
    (l.woundUp now o).phase =
      match l.nextTick? with
      | some due => if due ≤ now then .finished else .waiting due
      | none => .finished := by
  rw [woundUp]
  split
  · next due hdue =>
    split
    · rfl
    · exact nextTick?_eq_some.1 hdue
  · rfl

theorem timeLeft_woundUp (now : Nat) (o : Outcome) (l : PollLoop) :
    (l.woundUp now o).timeLeft now = l.nextTick?.getD now - now := by
  have hphase := l.phase_woundUp now o
  rw [timeLeft]
  cases hnext : l.nextTick? with
  | none => simp [hphase, hnext]
  | some due =>
    simp only [hnext] at hphase
    by_cases hdue : due ≤ now
    · simp [hphase, hdue, Nat.sub_eq_zero_of_le]
    · simp [hphase, hdue]

theorem rests_woundUp (hwait : 0 < l.wait) (now : Nat) (o : Outcome) : (l.woundUp now o).Rests := by
  refine ⟨by rwa [wait_woundUp], ?_⟩
  rw [phase_woundUp]
  split
  · split <;> nofun
  · nofun

/-- Until the loop is due, it does not matter what will come of its tick, nor when that is. -/
theorem woundUp_congr {now' : Nat} (h : ∀ due, l.nextTick? = some due → (due ≤ now ↔ due ≤ now')) :
    l.woundUp now o = l.woundUp now' o := by
  rw [woundUp, woundUp]
  split
  · next due hdue => simp only [h due hdue]
  · rfl

/-- Asked to stop, the loop waits for its tick, or is over as soon as it looks. -/
theorem Timely.check_requestStop (h : l.Timely now) (o : Outcome) :
    l.requestStop.check now = l.woundUp now o := by
  rcases h.phase with hphase | hphase | ⟨due, hphase, hlt, -⟩
  · simp [woundUp, nextTick?, PollLoop.check, PollLoop.requestStop, hphase]
  · simp [woundUp, nextTick?, PollLoop.check, PollLoop.requestStop, hphase]
  · simp [woundUp, nextTick?, PollLoop.check, PollLoop.requestStop, hphase, hlt]

theorem isDue_woundUp (hwait : 0 < l.wait) (now : Nat) (o : Outcome) :
    (l.woundUp now o).isDue (now + 1) = true ↔ l.nextTick? = some (now + 1) := by
  have hphase := l.phase_woundUp now o
  cases hnext : l.nextTick? with
  | none =>
    simp only [hnext] at hphase
    simp [isDue, hphase]
  | some due =>
    simp only [hnext] at hphase
    split at hphase
    · simp [isDue, hphase]
      omega
    · rw [isDue_of_waiting (by rwa [wait_woundUp]) hphase]
      simp
      omega

/-- The loop ticks when it is due, and is over. -/
theorem check_ticked_woundUp (h : l.nextTick? = some (now + 1)) (o o' : Outcome) :
    ((l.woundUp now o).ticked (some o')).check (now + 1) = l.woundUp (now + 1) o' := by
  have hlate : l.woundUp now o = l.requestStop := by
    simp only [woundUp, h]
    exact if_neg (Nat.not_succ_le_self now)
  have hw : l.requestStop.isWaiting = true := by
    simp [isWaiting, PollLoop.requestStop, nextTick?_eq_some.1 h]
  rw [hlate, check_ticked hw]
  simp [woundUp, h, PollLoop.requestStop]

end PollLoop

namespace Lane

/-- When the loop in charge ticks, if it waits. -/
def nextTick? {ω : Type} (a : Lane ω) : Option Nat := a.current.bind PollLoop.nextTick?

theorem nextTick?_eq {ω : Type} {a : Lane ω} {l : PollLoop} (hl : a.current = some l) :
    a.nextTick? = l.nextTick? := by
  rw [nextTick?, hl, Option.bind_some]

theorem mem_of_current {ω : Type} {a : Lane ω} {l : PollLoop} (hl : a.current = some l) :
    l ∈ a.loops := by
  obtain ⟨i, -, hi⟩ := Option.bind_eq_some_iff.1 hl
  exact List.mem_of_getElem? hi

/-- A loop that is not in charge is over. -/
def LeftOver {ω : Type} (a : Lane ω) : Prop :=
  ∀ i l, a.loops[i]? = some l → a.slot ≠ some i → l.isOver = true

theorem LeftOver.goesOn {ω : Type} {a b : Lane ω} (h : a.LeftOver) (hgoes : a.GoesOn b) :
    b.LeftOver := by
  intro i l' hl' hslot
  obtain ⟨l, hl, hlater⟩ := hgoes.later hl'
  exact hlater.isOver (h i l hl (hgoes.slot ▸ hslot))

/-- It stays so if the lane is not shut down. -/
theorem LeftOver.step {α ε : Type} [Worker (Feed α ε)] {a : Lane (Feed α ε)} (h : a.LeftOver)
    {act : Act α} (hact : act ≠ .detach) : (machine.step act a).LeftOver := by
  rcases step_cases act a with ⟨wait, hover, hstep, -⟩ | ⟨-, hnote⟩ | ⟨hgoes, -⟩
  · rw [hstep]
    intro i l hl hslot
    have hl := getElem?_launch hslot hl
    by_cases hi : a.slot = some i
    · exact hover l (current_eq_some hi hl)
    · exact h i l hl hi
  · cases act with
    | detach => exact absurd rfl hact
    | start wait =>
      rw [note] at hnote
      split at hnote <;> cases hnote
    | _ => cases hnote
  · exact h.goesOn hgoes

/-- If all loops but one are over, that one is the only one that can tick. -/
theorem fireDue_of_unique {ω : Type} [Worker ω] {a : Lane ω} {i : Nat} {l : PollLoop}
    (hl : a.loops[i]? = some l)
    (hover : ∀ j l', a.loops[j]? = some l' → j ≠ i → l'.isOver = true) (now : Nat) :
    a.fireDue now =
      if l.isDue now then
        { a with loops := a.loops.set i (l.fire a.worker).1, worker := (l.fire a.worker).2 }
      else a := by
  have hfire := fireEach_of_unique (p := fun l _ => l.isDue now) hl
    (fun j l' hl' hj _ => PollLoop.isDue_of_isOver (hover j l' hl' hj)) a.worker
  rw [fireDue, hfire]
  cases l.isDue now <;> rfl

/-- If all loops but one are over, that one is the only one that looks. -/
theorem map_check_set {ls : List PollLoop} {i : Nat}
    (hover : ∀ j l, ls[j]? = some l → j ≠ i → l.isOver = true) (l : PollLoop) (now : Nat) :
    (ls.set i l).map (·.check now) = ls.set i (l.check now) := by
  rw [List.map_set]
  refine List.ext_getElem? fun j => ?_
  rw [List.getElem?_set, List.getElem?_set, List.length_map, List.getElem?_map]
  split
  · rfl
  · next hne =>
    cases hj : ls[j]? with
    | none => rfl
    | some l' => exact congrArg some (PollLoop.check_of_isOver (hover j l' hj (Ne.symm hne)) now)

variable {α ε : Type} {a b : Lane (Feed α ε)} {now : Nat} {arrived : List α}

/-- How the lane `b` stands at the time `now` if it comes of `a` by a shutdown, and `arrived` was
    queued meanwhile. -/
structure WindsUp (a : Lane (Feed α ε)) (now : Nat) (arrived : List α) (b : Lane (Feed α ε)) :
    Prop where
  slot : b.slot = none
  loops : (a.slot = none ∧ b.loops = a.loops) ∨
    ∃ i l o, a.slot = some i ∧ a.loops[i]? = some l ∧ b.loops = a.loops.set i (l.woundUp now o)
  queue : ∃ taken : List α,
    a.worker.queue.items ++ arrived = taken ++ b.worker.queue.items ∧
      taken.length ≤ if a.nextTick?.any (· ≤ now) then 1 else 0

namespace WindsUp

/-- All loops but the one that was in charge were over before. -/
theorem mem_cases (h : a.WindsUp now arrived b) (hover : a.LeftOver) {l' : PollLoop}
    (hl' : l' ∈ b.loops) :
    l'.isOver = true ∨ ∃ l o, a.current = some l ∧ l' = l.woundUp now o := by
  obtain ⟨j, hj⟩ := List.mem_iff_getElem?.1 hl'
  rcases h.loops with ⟨hslot, hloops⟩ | ⟨i, l, o, hslot, hl, hloops⟩
  · exact .inl (hover j l' (hloops ▸ hj) (by simp [hslot]))
  · rw [hloops] at hj
    by_cases hji : i = j
    · subst hji
      rw [List.getElem?_set_self (List.getElem?_eq_some_iff.1 hl).1] at hj
      exact .inr ⟨l, o, current_eq_some hslot hl, (Option.some.inj hj).symm⟩
    · rw [List.getElem?_set_ne hji] at hj
      exact .inl (hover j l' hj (by simpa [hslot] using hji))

/-- The loop that was in charge. -/
theorem exists_getElem? (h : a.WindsUp now arrived b) {i : Nat} (hslot : a.slot = some i) :
    ∃ l o, a.current = some l ∧ b.loops[i]? = some (l.woundUp now o) := by
  rcases h.loops with ⟨hnone, -⟩ | ⟨j, l, o, hj, hl, hloops⟩
  · rw [hslot] at hnone
    cases hnone
  · cases hslot.symm.trans hj
    refine ⟨l, o, current_eq_some hslot hl, ?_⟩
    rw [hloops]
    exact List.getElem?_set_self (List.getElem?_eq_some_iff.1 hl).1

/-- Until it is due, the loop that was in charge waits. -/
theorem exists_waiting (h : a.WindsUp now arrived b) {due : Nat} (hnext : a.nextTick? = some due)
    (hnow : now < due) : ∃ l ∈ b.loops, l.phase = .waiting due := by
  obtain ⟨l, hl, hdue⟩ := Option.bind_eq_some_iff.1 hnext
  obtain ⟨i, hslot, -⟩ := Option.bind_eq_some_iff.1 hl
  obtain ⟨l', o, hl', hget⟩ := h.exists_getElem? hslot
  cases hl.symm.trans hl'
  refine ⟨_, List.mem_of_getElem? hget, ?_⟩
  simp only [l.phase_woundUp, hdue]
  exact if_neg (Nat.not_le_of_lt hnow)

/-- What arrives is queued behind what waits. -/
theorem arrive (h : a.WindsUp now arrived b) {c : Lane (Feed α ε)} (hloops : c.loops = b.loops)
    (hslot : c.slot = b.slot) {more : List α}
    (hitems : c.worker.queue.items = b.worker.queue.items ++ more) :
    a.WindsUp now (arrived ++ more) c := by
  obtain ⟨taken, hqueue, hlength⟩ := h.queue
  refine ⟨hslot.trans h.slot, hloops ▸ h.loops, taken, ?_, hlength⟩
  rw [hitems, ← List.append_assoc, ← List.append_assoc, hqueue]

/-- Nothing changes while no loop is due. -/
theorem later (h : a.WindsUp now arrived b) {now' : Nat}
    (hdue : ∀ due, a.nextTick? = some due → (due ≤ now ↔ due ≤ now')) :
    a.WindsUp now' arrived b := by
  refine ⟨h.slot, h.loops.imp_right ?_, ?_⟩
  · rintro ⟨i, l, o, hslot, hl, hloops⟩
    have hsame : l.woundUp now o = l.woundUp now' o := PollLoop.woundUp_congr fun due hnext =>
      hdue due ((nextTick?_eq (current_eq_some hslot hl)).trans hnext)
    exact ⟨i, l, o, hslot, hl, hsame ▸ hloops⟩
  · obtain ⟨taken, hqueue, hlength⟩ := h.queue
    refine ⟨taken, hqueue, ?_⟩
    cases hnext : a.nextTick? with
    | none => simpa [hnext] using hlength
    | some due => simpa [hnext, hdue due hnext] using hlength

variable [Worker (Feed α ε)] {work : α → ε × Outcome}

/-- When the loop that was in charge is due, it ticks and is over. -/
theorem tick (h : a.WindsUp now arrived b)
    (hwork : ∀ f : Feed α ε, Worker.tick f = (f.tick work).map some id) {i : Nat} {l : PollLoop}
    {o : Outcome} (hslot : a.slot = some i) (hl : a.loops[i]? = some l)
    (hothers : ∀ j l', a.loops[j]? = some l' → j ≠ i → l'.isOver = true)
    (hloops : b.loops = a.loops.set i (l.woundUp now o)) (hdue : l.nextTick? = some (now + 1)) :
    a.WindsUp (now + 1) arrived
      (checkAll (now + 1)
        { b with
          loops := b.loops.set i ((l.woundUp now o).fire b.worker).1
          worker := ((l.woundUp now o).fire b.worker).2 }) := by
  have hnext : a.nextTick? = some (now + 1) :=
    (nextTick?_eq (current_eq_some hslot hl)).trans hdue
  rw [PollLoop.fire, hwork]
  refine ⟨h.slot, .inr ⟨i, l, (b.worker.tick work).1, hslot, hl, ?_⟩, b.worker.queue.items.take 1,
    ?_, ?_⟩
  · rw [checkAll]
    dsimp only
    rw [hloops, List.set_set, map_check_set hothers]
    exact congrArg _ (PollLoop.check_ticked_woundUp hdue o _)
  · -- This is the first tick since the shutdown, so that nothing was taken before.
    obtain ⟨taken, hqueue, hlength⟩ := h.queue
    have hnone : taken = [] := by simpa [hnext, Nat.not_succ_le_self] using hlength
    rw [hnone, List.nil_append] at hqueue
    rw [hqueue]
    exact (List.append_nil _).symm.trans (Feed.queue_step work .tick b.worker)
  · exact Nat.le_trans (List.length_take_le 1 _) (by simp [hnext])

/-- In a millisecond the loop that was in charge ticks if it is due, and is over. -/
theorem passMilli (h : a.WindsUp now arrived b)
    (hwork : ∀ f : Feed α ε, Worker.tick f = (f.tick work).map some id) (hover : a.LeftOver)
    (hwait : ∀ l ∈ a.loops, 0 < l.wait) :
    a.WindsUp (now + 1) arrived ((b.fireDue (now + 1)).checkAll (now + 1)) := by
  have hlooked : ∀ l ∈ b.loops, l.phase ≠ .checking := by
    intro l' hl'
    rcases h.mem_cases hover hl' with hl' | ⟨l, o, hl, rfl⟩
    · exact PollLoop.phase_ne_of_isOver hl'
    · exact (PollLoop.rests_woundUp (hwait l (mem_of_current hl)) now o).phase_ne
  rcases h.loops with ⟨hslot, hloops⟩ | ⟨i, l, o, hslot, hl, hloops⟩
  · -- All loops were over before.
    have hdue : ∀ l ∈ b.loops, l.isDue (now + 1) = false := by
      intro l hl
      obtain ⟨j, hj⟩ := List.mem_iff_getElem?.1 (hloops ▸ hl)
      exact PollLoop.isDue_of_isOver (hover j l hj (by simp [hslot]))
    rw [fireDue_eq_self hdue, checkAll_eq_self hlooked]
    exact h.later fun due hnext => by simp [nextTick?, current, hslot] at hnext
  · have hlwait : 0 < l.wait := hwait l (List.mem_of_getElem? hl)
    have hothers : ∀ j l', a.loops[j]? = some l' → j ≠ i → l'.isOver = true := by
      intro j l' hl' hj
      exact hover j l' hl' (by simp [hslot, Ne.symm hj])
    have hbl : b.loops[i]? = some (l.woundUp now o) := by
      rw [hloops]
      exact List.getElem?_set_self (List.getElem?_eq_some_iff.1 hl).1
    have hbothers : ∀ j l', b.loops[j]? = some l' → j ≠ i → l'.isOver = true := by
      intro j l' hl' hj
      rw [hloops, List.getElem?_set_ne (Ne.symm hj)] at hl'
      exact hothers j l' hl' hj
    rw [fireDue_of_unique hbl hbothers]
    split
    · next hdue =>
      exact h.tick hwork hslot hl hothers hloops ((PollLoop.isDue_woundUp hlwait now o).1 hdue)
    · next hdue =>
      rw [checkAll_eq_self hlooked]
      refine h.later fun due hnext => ?_
      have hne : due ≠ now + 1 := by
        rintro rfl
        rw [nextTick?_eq (current_eq_some hslot hl)] at hnext
        exact hdue ((PollLoop.isDue_woundUp hlwait now o).2 hnext)
      omega

end WindsUp

/-- A lane that was shut down and has looked winds up from then on. -/
theorem windsUp_detach (hfilled : a.SlotFilled) (hover : a.LeftOver)
    (htimely : ∀ l ∈ a.loops, l.Timely now) : a.WindsUp now [] (a.detach.checkAll now) := by
  refine ⟨rfl, ?_, [], ?_, Nat.zero_le _⟩
  · cases hslot : a.slot with
    | none =>
      have hstop : a.requestStop = a := by rw [requestStop, hslot]
      have hlooked : ∀ l ∈ a.loops, l.phase ≠ .checking := by
        intro l hl
        obtain ⟨j, hj⟩ := List.mem_iff_getElem?.1 hl
        exact PollLoop.phase_ne_of_isOver (hover j l hj (by simp [hslot]))
      refine .inl ⟨rfl, ?_⟩
      show (a.requestStop.checkAll now).loops = a.loops
      rw [hstop, checkAll_eq_self hlooked]
    | some i =>
      obtain ⟨l, hl⟩ : ∃ l, a.loops[i]? = some l := ⟨_, List.getElem?_eq_getElem (hfilled i hslot)⟩
      have hstop : a.requestStop.loops = a.loops.set i l.requestStop := by
        rw [requestStop, hslot]
        show a.loops.modify i PollLoop.requestStop = _
        rw [List.modify_eq_set_getElem?, hl]
        rfl
      have hothers : ∀ j l', a.loops[j]? = some l' → j ≠ i → l'.isOver = true := by
        intro j l' hl' hj
        exact hover j l' hl' (by simp [hslot, Ne.symm hj])
      refine .inr ⟨i, l, .idle, rfl, hl, ?_⟩
      show a.requestStop.loops.map (·.check now) = _
      rw [hstop, map_check_set hothers,
        (htimely l (List.mem_of_getElem? hl)).check_requestStop .idle]
  · show a.worker.queue.items ++ [] = a.requestStop.worker.queue.items
    rw [List.append_nil, worker_requestStop]

/-! ### The end of a shutdown -/

/-- When the loop in charge is over if it is asked to stop at the time `now`. -/
def endsBy {ω : Type} (now : Nat) (a : Lane ω) : Nat := a.nextTick?.getD now

theorem endsBy_le_iff {ω : Type} {a : Lane ω} {now' : Nat} (h : now ≤ now') :
    a.endsBy now' ≤ now' ↔ a.endsBy now ≤ now' := by
  rw [endsBy, endsBy]
  cases a.nextTick? with
  | none => simpa using h
  | some due => exact Iff.rfl

theorem timeToStop_le_iff {ω : Type} {a : Lane ω} {k : Nat} :
    a.timeToStop now ≤ k ↔ ∀ l ∈ a.loops, l.stopping = true → l.timeLeft now ≤ k := by
  have hfold : ∀ (ls : List PollLoop) (m : Nat),
      (ls.map fun l => if l.stopping then l.timeLeft now else 0).foldl max m ≤ k ↔
        m ≤ k ∧ ∀ l ∈ ls, l.stopping = true → l.timeLeft now ≤ k := by
    intro ls
    induction ls with
    | nil => simp
    | cons l ls ih =>
      intro m
      rw [List.map_cons, List.foldl_cons, ih, List.forall_mem_cons, Nat.max_le, and_assoc]
      cases l.stopping <;> simp
  rw [timeToStop, hfold]
  exact and_iff_right (Nat.zero_le k)

namespace WindsUp

/-- The time that a lane still needs is that until the tick of the loop that was in charge. -/
theorem timeToStop (h : a.WindsUp now arrived b) (hover : a.LeftOver) :
    b.timeToStop now = a.endsBy now - now := by
  refine Nat.le_antisymm (timeToStop_le_iff.2 fun l' hl' _ => ?_) ?_
  · rcases h.mem_cases hover hl' with hl' | ⟨l, o, hl, rfl⟩
    · cases hphase : l'.phase with
      | waiting due => simp [PollLoop.isOver, hphase] at hl'
      | _ => simp [PollLoop.timeLeft, hphase]
    · refine Nat.le_of_eq ?_
      rw [PollLoop.timeLeft_woundUp, endsBy, nextTick?_eq hl]
  · cases hslot : a.slot with
    | none => simp [endsBy, nextTick?, current, hslot]
    | some i =>
      obtain ⟨l, o, hl, hget⟩ := h.exists_getElem? hslot
      have hleft : (l.woundUp now o).timeLeft now ≤ b.timeToStop now :=
        timeToStop_le_iff.1 (Nat.le_refl _) _ (List.mem_of_getElem? hget) (l.stopping_woundUp now o)
      rwa [PollLoop.timeLeft_woundUp, ← nextTick?_eq hl] at hleft

/-- The report is there when the loop that was in charge is over, and not before. -/
theorem report? [Worker (Feed α ε)] (h : a.WindsUp now arrived b) :
    b.report? a.slot = if a.endsBy now ≤ now then some (.ok (b.statsOf a.slot)) else none := by
  cases hslot : a.slot with
  | none => simp [endsBy, nextTick?, current, hslot, Lane.report?, statsOf]
  | some i =>
    obtain ⟨l, o, hl, hget⟩ := h.exists_getElem? hslot
    have hphase := l.phase_woundUp now o
    rw [endsBy, nextTick?_eq hl]
    cases hnext : l.nextTick? with
    | none =>
      simp only [hnext] at hphase
      simp [Lane.report?, statsOf, hget, hphase]
    | some due =>
      simp only [hnext] at hphase
      by_cases hdue : due ≤ now
      · simp [Lane.report?, statsOf, hget, hphase, hdue]
      · simp [Lane.report?, hget, hphase, hdue]

/-- When the loop that was in charge is over, all are. -/
theorem leftOver (h : a.WindsUp now arrived b) (hover : a.LeftOver) (hend : a.endsBy now ≤ now) :
    b.LeftOver := by
  intro i l' hl' _
  rcases h.mem_cases hover (List.mem_of_getElem? hl') with hl' | ⟨l, o, hl, rfl⟩
  · exact hl'
  · have hphase := l.phase_woundUp now o
    rw [endsBy, nextTick?_eq hl] at hend
    cases hnext : l.nextTick? with
    | none => simp [PollLoop.isOver, hphase, hnext]
    | some due =>
      rw [hnext, Option.getD_some] at hend
      simp [PollLoop.isOver, hphase, hnext, hend]

end WindsUp

end Lane

end GridRobot
