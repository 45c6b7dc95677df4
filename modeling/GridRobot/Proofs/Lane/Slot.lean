import GridRobot.Proofs.Lane

/-!
# The loop in charge

An action on a lane starts a loop, shuts the lane down, or leaves the slot as it
is while the loops go on (`Lane.step_cases`). From this:

* `Lane.slot_run`: the loop in charge is the one that was started last, unless
  there was a shutdown since;
* `Lane.LeftAsked.step`: a loop that is not in charge is over or was asked to
  stop, so at most one loop goes on that was not;
* `Lane.OneAtATime.step`: at most one loop goes on at all, as long as no loop is
  started between a shutdown and the end of the loop that it took.

Whether a loop can be started is decided by the loop in charge alone
(`Lane.start_cases`): it can if there is none or if it is over, and otherwise the
refusal tells whether it was asked to stop.
-/

namespace GridRobot

namespace PollLoop

/-- What a loop has reached is not taken back: that it was asked to stop, and that it is over. -/
structure Later (l l' : PollLoop) : Prop where
  stopping : l.stopping = true → l'.stopping = true
  isOver : l.isOver = true → l'.isOver = true

variable {l : PollLoop}

theorem Later.refl (l : PollLoop) : l.Later l := ⟨id, id⟩

theorem Later.trans {l' l'' : PollLoop} (h : l.Later l') (h' : l'.Later l'') : l.Later l'' :=
  ⟨fun hstop => h'.stopping (h.stopping hstop), fun hover => h'.isOver (h.isOver hover)⟩

/-- A loop that goes on went on before. -/
theorem Later.isOver_eq_false {l' : PollLoop} (h : l.Later l') (hover : l'.isOver = false) :
    l.isOver = false := by
  rw [← Bool.not_eq_true] at hover ⊢
  exact fun hl => hover (h.isOver hl)

theorem later_requestStop (l : PollLoop) : l.Later l.requestStop := ⟨fun _ => rfl, id⟩

theorem later_check (now : Nat) (l : PollLoop) : l.Later (l.check now) := by
  refine ⟨fun h => (l.stopping_check now).trans h, fun h => ?_⟩
  -- A loop that is over is not about to look.
  have hphase : l.phase ≠ .checking := fun hphase => by simp [isOver, hphase] at h
  rw [check, if_neg hphase]
  exact h

theorem later_ticked (h : l.isWaiting = true) (o : Option Outcome) : l.Later (l.ticked o) := by
  refine ⟨fun hstop => (l.stopping_ticked o).trans hstop, fun hover => ?_⟩
  cases hphase : l.phase with
  | waiting due => simp [isOver, hphase] at hover
  | _ => simp [isWaiting, hphase] at h

end PollLoop

namespace Lane

variable {ω : Type} {a b : Lane ω}

/-! ### Starting a loop -/

/-- The lane after a loop was started. -/
def launch (wait : Nat) (a : Lane ω) : Lane ω :=
  { a with loops := a.loops ++ [.started wait], slot := some a.loops.length }

/-- Every loop but the one that was started just now was there before. -/
theorem getElem?_launch {wait i : Nat} {l : PollLoop} (hi : (a.launch wait).slot ≠ some i)
    (h : (a.launch wait).loops[i]? = some l) : a.loops[i]? = some l := by
  rcases Nat.lt_trichotomy i a.loops.length with hlt | rfl | hgt
  · exact (List.getElem?_append_left hlt).symm.trans h
  · exact absurd rfl hi
  · have hnone : (a.loops ++ [PollLoop.started wait])[i]? = none :=
      List.getElem?_eq_none (by simp; omega)
    rw [launch, hnone] at h
    cases h

theorem current_eq_some {i : Nat} {l : PollLoop} (hslot : a.slot = some i)
    (hl : a.loops[i]? = some l) : a.current = some l := by
  rw [current, hslot, Option.bind_some, hl]

theorem isRunning_iff :
    a.isRunning = true ↔ ∃ l, a.current = some l ∧ l.isOver = false ∧ l.stopping = false := by
  rw [isRunning, Option.any_eq_true]
  simp only [Bool.and_eq_true, Bool.not_eq_true']
  exact exists_congr fun l => and_congr_right fun _ => and_comm

section Start

variable [Worker ω]

/-- A loop is started, or the loop in charge is in the way. -/
theorem start_cases (wait : Nat) (a : Lane ω) :
    ((∀ l, a.current = some l → l.isOver = true) ∧ a.start wait = .ok (a.launch wait)) ∨
      ∃ l, a.current = some l ∧ l.isOver = false ∧
        a.start wait = .error
          (if l.stopping then .stopping (Worker.name ω) else .alreadyRunning (Worker.name ω)) := by
  rw [start]
  cases hl : a.current with
  | none => exact .inl ⟨fun l h => absurd h.symm (Option.some_ne_none l), rfl⟩
  | some l =>
    by_cases hover : l.isOver = true
    · exact .inl ⟨fun l' h => Option.some.inj h ▸ hover, if_pos hover⟩
    · refine .inr ⟨l, rfl, Bool.eq_false_iff.2 hover, (if_neg hover).trans ?_⟩
      cases l.stopping <;> rfl

variable {wait : Nat}

theorem start_eq_ok_iff :
    a.start wait = .ok b ↔ (∀ l, a.current = some l → l.isOver = true) ∧ b = a.launch wait := by
  rcases a.start_cases wait with ⟨hover, h⟩ | ⟨l, hl, hover, h⟩
  · rw [h, Except.ok.injEq, eq_comm]
    exact (and_iff_right hover).symm
  · simp [h, hl, hover]

theorem start_eq_stopping_iff :
    a.start wait = .error (.stopping (Worker.name ω)) ↔
      ∃ l, a.current = some l ∧ l.isOver = false ∧ l.stopping = true := by
  rcases a.start_cases wait with ⟨hover, h⟩ | ⟨l, hl, hover, h⟩
  · simp only [h, reduceCtorEq, false_iff]
    rintro ⟨l, hl, hl', -⟩
    rw [hover l hl] at hl'
    cases hl'
  · cases hstop : l.stopping <;> simp [h, hl, hover, hstop]

theorem start_eq_alreadyRunning_iff :
    a.start wait = .error (.alreadyRunning (Worker.name ω)) ↔ a.isRunning = true := by
  rw [isRunning_iff]
  rcases a.start_cases wait with ⟨hover, h⟩ | ⟨l, hl, hover, h⟩
  · simp only [h, reduceCtorEq, false_iff]
    rintro ⟨l, hl, hl', -⟩
    rw [hover l hl] at hl'
    cases hl'
  · cases hstop : l.stopping <;> simp [h, hl, hover, hstop]

end Start

/-! ### What an action does -/

/-- The loops have gone on, and the one in charge is the same. -/
structure GoesOn (a b : Lane ω) : Prop where
  slot : b.slot = a.slot
  length : b.loops.length = a.loops.length
  later : ∀ {i : Nat} {l' : PollLoop}, b.loops[i]? = some l' →
    ∃ l : PollLoop, a.loops[i]? = some l ∧ l.Later l'

theorem GoesOn.of_eq (hloops : b.loops = a.loops) (hslot : b.slot = a.slot) : a.GoesOn b :=
  ⟨hslot, congrArg List.length hloops, fun h => ⟨_, hloops ▸ h, .refl _⟩⟩

theorem GoesOn.trans {c : Lane ω} (hab : a.GoesOn b) (hbc : b.GoesOn c) : a.GoesOn c := by
  refine ⟨hbc.slot.trans hab.slot, hbc.length.trans hab.length, fun hc => ?_⟩
  obtain ⟨l', hb, hlater'⟩ := hbc.later hc
  obtain ⟨l, ha, hlater⟩ := hab.later hb
  exact ⟨l, ha, hlater.trans hlater'⟩

theorem goesOn_update {f : PollLoop → PollLoop} (hf : ∀ l : PollLoop, l.Later (f l)) (i : Nat)
    (a : Lane ω) : a.GoesOn (a.update i f) := by
  refine ⟨rfl, List.length_modify _ _ _, fun {j l'} h => ?_⟩
  rw [update, List.getElem?_modify] at h
  obtain ⟨l, hl, rfl⟩ := Option.map_eq_some_iff.1 h
  refine ⟨l, hl, ?_⟩
  split
  · exact hf l
  · exact .refl l

section Map

variable {β : Type} {g : PollLoop → β}

/-- What a change of one loop keeps of it is kept of all. -/
theorem map_update {f : PollLoop → PollLoop} (hf : ∀ l, g (f l) = g l) (i : Nat) (a : Lane ω) :
    (a.update i f).loops.map g = a.loops.map g := by
  refine List.ext_getElem? fun j => ?_
  rw [update, List.getElem?_map, List.getElem?_map, List.getElem?_modify]
  cases a.loops[j]? with
  | none => rfl
  | some l =>
    split
    · exact congrArg some (hf l)
    · rfl

theorem map_requestStop (hg : ∀ l, g (PollLoop.requestStop l) = g l) (a : Lane ω) :
    a.requestStop.loops.map g = a.loops.map g := by
  rw [requestStop]
  split
  · exact map_update hg _ a
  · rfl

end Map

theorem goesOn_requestStop (a : Lane ω) : a.GoesOn a.requestStop := by
  rw [requestStop]
  split
  · exact goesOn_update PollLoop.later_requestStop _ a
  · exact .of_eq rfl rfl

/-- The loop that a shutdown takes out of the slot has been asked to stop. -/
theorem stopping_detach {i : Nat} {l' : PollLoop} (hslot : a.slot = some i)
    (h : a.detach.loops[i]? = some l') : l'.stopping = true := by
  rw [detach, requestStop, hslot] at h
  change (a.loops.modify i PollLoop.requestStop)[i]? = some l' at h
  rw [List.getElem?_modify_eq] at h
  obtain ⟨l, -, rfl⟩ := Option.map_eq_some_iff.1 h
  rfl

theorem goesOn_tickAt [Worker ω] (i : Nat) (a : Lane ω) : a.GoesOn (a.tickAt i) := by
  rcases a.tickAt_cases i with ⟨-, htick⟩ | ⟨hw, l, hl, htick⟩
  · rw [htick]
    exact .of_eq rfl rfl
  · rw [isWaiting, hl, Option.any_some] at hw
    rw [htick]
    refine ⟨rfl, List.length_set, fun {j l'} h => ?_⟩
    by_cases hij : i = j
    · subst hij
      rw [List.getElem?_set_self (List.getElem?_eq_some_iff.1 hl).1] at h
      exact ⟨l, hl, Option.some.inj h ▸ PollLoop.later_ticked hw _⟩
    · rw [List.getElem?_set_ne hij] at h
      exact ⟨l', h, .refl l'⟩

/-- What is noted of the calls on a lane. -/
inductive Note
  /-- The `i`-th loop was started. -/
  | started (i : Nat)
  | shutDown

/-- A loop was started. -/
def Note.isStart : Note → Bool
  | started _ => true
  | shutDown => false

variable {α ε : Type} [Worker (Feed α ε)]

/-- What is noted of an action. -/
def note : Act α → Lane (Feed α ε) → List Note
  | .start wait, a => if (a.start wait).toBool then [.started a.loops.length] else []
  | .detach, _ => [.shutDown]
  | _, _ => []

/-- An action starts a loop, shuts the lane down, or lets the loops go on. -/
theorem step_cases (act : Act α) (a : Lane (Feed α ε)) :
    (∃ wait, (∀ l, a.current = some l → l.isOver = true) ∧ machine.step act a = a.launch wait ∧
        note act a = [.started a.loops.length]) ∨
      (machine.step act a = a.detach ∧ note act a = [.shutDown]) ∨
      a.GoesOn (machine.step act a) ∧ note act a = [] := by
  cases act with
  | start wait =>
    have hstep : machine.step (.start wait) a = a.tryStart wait := rfl
    rw [hstep, note, tryStart]
    rcases a.start_cases wait with ⟨hover, h⟩ | ⟨l, -, -, h⟩
    · rw [h]
      exact .inl ⟨wait, hover, rfl, rfl⟩
    · rw [h]
      exact .inr (.inr ⟨.of_eq rfl rfl, rfl⟩)
  | requestStop => exact .inr (.inr ⟨a.goesOn_requestStop, rfl⟩)
  | detach => exact .inr (.inl ⟨rfl, rfl⟩)
  | check now i => exact .inr (.inr ⟨goesOn_update (PollLoop.later_check now) i a, rfl⟩)
  | tick i => exact .inr (.inr ⟨a.goesOn_tickAt i, rfl⟩)
  | _ => exact .inr (.inr ⟨.of_eq rfl rfl, rfl⟩)

/-! ### The loop that was started last -/

/-- The loop that was started last, unless there was a shutdown since. -/
def lastStarted (notes : List Note) : Option Nat :=
  match notes.getLast? with
  | some (.started i) => some i
  | _ => none

theorem lastStarted_append_singleton (notes : List Note) (n : Note) :
    lastStarted (notes ++ [n]) = lastStarted [n] := by
  rw [lastStarted, List.getLast?_append]
  rfl

variable {a : Lane (Feed α ε)}

theorem slot_step {earlier : List Note} (h : a.slot = lastStarted earlier) (act : Act α) :
    (machine.step act a).slot = lastStarted (earlier ++ note act a) := by
  rcases step_cases act a with ⟨wait, -, hstep, hnote⟩ | ⟨hstep, hnote⟩ | ⟨hgoes, hnote⟩
  · rw [hstep, hnote, lastStarted_append_singleton]
    rfl
  · rw [hstep, hnote, lastStarted_append_singleton]
    rfl
  · rw [hgoes.slot, hnote, List.append_nil, h]

/-- The loop in charge is the one that was started last, unless there was a shutdown since. -/
theorem slot_run (acts : List (Act α)) (h : a.slot = none) :
    (machine.run acts a).slot = lastStarted (machine.log note acts a) :=
  machine.run_log_preserves (P := fun notes a => a.slot = lastStarted notes)
    (fun _ act _ h => slot_step h act) acts (show a.slot = lastStarted [] from h)

/-- Where a lane is seen, the loop in charge is the one that was started last, unless there was a
    shutdown since. -/
theorem slot_view {A S : Type} {M : Machine A S}
    (sim : Simulation M (machine : Machine (Act α) (Lane (Feed α ε)))) (as : List A) {s : S}
    (h : (sim.view s).slot = none) :
    (sim.view (M.run as s)).slot = lastStarted (M.log (sim.see note) as s) := by
  rw [sim.log_see, sim.view_run]
  exact slot_run _ h

/-- The slot holds one of the loops, if anything. -/
def SlotFilled (a : Lane ω) : Prop := ∀ i, a.slot = some i → i < a.loops.length

theorem SlotFilled.step (h : a.SlotFilled) (act : Act α) : (machine.step act a).SlotFilled := by
  intro i hi
  rcases step_cases act a with ⟨wait, -, hstep, -⟩ | ⟨hstep, -⟩ | ⟨hgoes, -⟩
  · rw [hstep] at hi ⊢
    cases Option.some.inj hi
    simp [launch]
  · rw [hstep] at hi
    cases hi
  · rw [hgoes.length]
    exact h i (hgoes.slot ▸ hi)

/-! ### Loops that are not in charge -/

/-- A loop that is not in charge is over or was asked to stop. -/
def LeftAsked (a : Lane ω) : Prop :=
  ∀ i l, a.loops[i]? = some l → a.slot ≠ some i → l.isOver = true ∨ l.stopping = true

theorem LeftAsked.step (h : a.LeftAsked) (act : Act α) : (machine.step act a).LeftAsked := by
  intro i l' hl' hslot
  rcases step_cases act a with ⟨wait, hover, hstep, -⟩ | ⟨hstep, -⟩ | ⟨hgoes, -⟩
  · rw [hstep] at hl' hslot
    have hl := getElem?_launch hslot hl'
    by_cases hi : a.slot = some i
    · exact .inl (hover l' (current_eq_some hi hl))
    · exact h i l' hl hi
  · rw [hstep] at hl'
    obtain ⟨l, hl, hlater⟩ := a.goesOn_requestStop.later hl'
    by_cases hi : a.slot = some i
    · exact .inr (stopping_detach hi hl')
    · exact (h i l hl hi).imp hlater.isOver hlater.stopping
  · obtain ⟨l, hl, hlater⟩ := hgoes.later hl'
    exact (h i l hl (hgoes.slot ▸ hslot)).imp hlater.isOver hlater.stopping

/-- The loop that goes on, if there is one. -/
structure OneAtATime (a : Lane ω) : Prop where
  /-- No two loops go on. -/
  eq : ∀ (i j : Nat) (l l' : PollLoop), a.loops[i]? = some l → a.loops[j]? = some l' →
    l.isOver = false → l'.isOver = false → i = j
  /-- A loop that goes on is in charge, or the lane was shut down. -/
  inCharge : ∀ (i : Nat) (l : PollLoop), a.loops[i]? = some l → l.isOver = false →
    a.slot = some i ∨ a.slot = none

/-- Nobody starts a loop between a shutdown and the end of the loop that it took. -/
def Patient (notes : List Note) (a : Lane ω) : Prop :=
  notes.any Note.isStart = true → a.slot = none → ∀ l ∈ a.loops, l.isOver = true

instance (notes : List Note) (a : Lane ω) : Decidable (a.Patient notes) :=
  inferInstanceAs (Decidable (_ = true → _ = none → ∀ l ∈ a.loops, l.isOver = true))

theorem OneAtATime.goesOn {a b : Lane ω} (h : a.OneAtATime) (hlater : ∀ {i : Nat} {l' : PollLoop},
    b.loops[i]? = some l' → ∃ l : PollLoop, a.loops[i]? = some l ∧ l.Later l')
    (hslot : b.slot = a.slot ∨ b.slot = none) : b.OneAtATime := by
  constructor
  · intro i j l₁ l₂ h₁ h₂ hover₁ hover₂
    obtain ⟨l₁', h₁', hlater₁⟩ := hlater h₁
    obtain ⟨l₂', h₂', hlater₂⟩ := hlater h₂
    exact h.eq i j l₁' l₂' h₁' h₂' (hlater₁.isOver_eq_false hover₁)
      (hlater₂.isOver_eq_false hover₂)
  · intro i l hl hover
    obtain ⟨l', hl', hlater'⟩ := hlater hl
    rcases hslot with hslot | hslot
    · rw [hslot]
      exact h.inCharge i l' hl' (hlater'.isOver_eq_false hover)
    · exact .inr hslot

theorem OneAtATime.step (h : a.OneAtATime) {act : Act α} (hpatient : a.Patient (note act a)) :
    (machine.step act a).OneAtATime := by
  rcases step_cases act a with ⟨wait, hover, hstep, hnote⟩ | ⟨hstep, -⟩ | ⟨hgoes, -⟩
  · -- All loops before the new one are over, so that it is the only one that goes on.
    have hall : ∀ (i : Nat) (l : PollLoop), a.loops[i]? = some l → l.isOver = true := by
      intro i l hl
      cases hfalse : l.isOver with
      | true => rfl
      | false =>
        rcases h.inCharge i l hl hfalse with hslot | hslot
        · exact hfalse.symm.trans (hover l (current_eq_some hslot hl))
        · exact hfalse.symm.trans (hpatient (by rw [hnote]; rfl) hslot l (List.mem_of_getElem? hl))
    have hnew : ∀ (i : Nat) (l : PollLoop), (a.launch wait).loops[i]? = some l → l.isOver = false →
        (a.launch wait).slot = some i := by
      intro i l hl hfalse
      refine Decidable.byContradiction fun hslot => ?_
      rw [hall i l (getElem?_launch hslot hl)] at hfalse
      cases hfalse
    rw [hstep]
    refine ⟨fun i j l l' hl hl' hfalse hfalse' => ?_,
      fun i l hl hfalse => .inl (hnew i l hl hfalse)⟩
    exact Option.some.inj ((hnew i l hl hfalse).symm.trans (hnew j l' hl' hfalse'))
  · rw [hstep]
    exact h.goesOn a.goesOn_requestStop.later (.inr rfl)
  · exact h.goesOn hgoes.later (.inl hgoes.slot)

end Lane

end GridRobot
