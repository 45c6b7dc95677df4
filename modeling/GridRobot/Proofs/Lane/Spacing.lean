import GridRobot.Proofs.Lane.Clock
import GridRobot.Proofs.Lane.WindUp

/-!
# How far ticks are apart

If all loops of a lane have a wait and none is late, and no loop is started
before the one that a shutdown took is over, then a tick comes no earlier than
the wait of its loop after any tick before, also if that was a tick of another
loop (`Lane.Clock.spaced_run`).
-/

namespace GridRobot

namespace PollLoop

/-- The loop rests at least until the time `now` has passed. -/
structure RestsUntil (now : Nat) (l : PollLoop) : Prop extends l.Rests where
  lt_due {due : Nat} (h : l.phase = .waiting due) : now < due

/-- A loop that has just ticked does not wait. -/
theorem phase_ticked_ne (l : PollLoop) (o : Option Outcome) (due : Nat) :
    (l.ticked o).phase ≠ .waiting due := by
  cases o with
  | none => exact fun h => by cases h
  | some o =>
    rw [ticked]
    split
    · exact fun h => by cases h
    · exact fun h => by cases h

end PollLoop

section FireEach

variable {α ε : Type} [Worker (Feed α ε)] {p : PollLoop → Feed α ε → Bool}

/-- If only one loop can be chosen, then that one ticks or none does. -/
theorem ticksOfEach_of_unique {ls : List PollLoop} {i : Nat} {l : PollLoop} (hl : ls[i]? = some l)
    (h : ∀ j l', ls[j]? = some l' → j ≠ i → ∀ f, p l' f = false) (k : Nat) (f : Feed α ε) :
    ticksOfEach p k ls f = if p l f then [⟨k + i, f.queue.items.head?⟩] else [] := by
  induction ls generalizing i k with
  | nil => cases hl
  | cons l' ls ih =>
    rw [ticksOfEach]
    cases i with
    | zero =>
      cases Option.some.inj hl
      have hrest : ∀ f, ticksOfEach p (k + 1) ls f = [] := by
        intro f
        refine (ticksOfEach_eq_nil (k + 1)).2 fun l'' hmem => ?_
        obtain ⟨j, hj⟩ := List.mem_iff_getElem?.1 hmem
        exact h (j + 1) l'' hj (Nat.succ_ne_zero j) f
      rw [hrest, hrest]
      rfl
    | succ i =>
      have hfirst := h 0 l' rfl (Nat.succ_ne_zero i).symm f
      have hrest := ih hl (fun j l'' hj hne => h (j + 1) l'' hj fun heq => hne (Nat.succ.inj heq))
        (k + 1)
      rw [if_neg (Bool.eq_false_iff.1 hfirst), hrest, Nat.add_right_comm, Nat.add_assoc]

end FireEach

namespace Lane

variable {α ε : Type} [Worker (Feed α ε)]

theorem Steps.goesOn {a b : Lane (Feed α ε)} (h : a.Steps b) : a.GoesOn b := by
  obtain ⟨acts, hacts, rfl⟩ := h
  induction acts generalizing a with
  | nil => exact .of_eq rfl rfl
  | cons act acts ih =>
    rw [List.forall_mem_cons] at hacts
    refine .trans ?_ (ih hacts.2)
    cases hacts.1 with
    | check now i => exact goesOn_update (PollLoop.later_check now) i a
    | tick i => exact goesOn_tickAt i a

theorem OneAtATime.steps {a b : Lane (Feed α ε)} (h : a.OneAtATime) (hab : a.Steps b) :
    b.OneAtATime :=
  h.goesOn hab.goesOn.later (.inl hab.goesOn.slot)

theorem Steps.exists_waits {a b : Lane (Feed α ε)} (h : a.Steps b) :
    ∃ more, b.waits = a.waits ++ more := by
  obtain ⟨acts, -, rfl⟩ := h
  refine machine.run_preserves (P := fun b => ∃ more, b.waits = a.waits ++ more)
    (fun act b hb => ?_) acts ⟨[], (List.append_nil _).symm⟩
  obtain ⟨more, hmore⟩ := hb
  obtain ⟨more', hmore'⟩ := waits_step act b
  exact ⟨more ++ more', by rw [hmore', hmore, List.append_assoc]⟩

/-- An action starts a loop, or what the loops have reached is not taken back. -/
theorem launch_or_later (act : Act α) (a : Lane (Feed α ε)) :
    (∃ wait, machine.step act a = a.launch wait) ∨
      (machine.step act a).loops.length = a.loops.length ∧
        ∀ {j : Nat} {l' : PollLoop}, (machine.step act a).loops[j]? = some l' →
          ∃ l : PollLoop, a.loops[j]? = some l ∧ l.Later l' := by
  rcases step_cases act a with ⟨wait, -, hstep, -⟩ | ⟨hstep, -⟩ | ⟨hgoes, -⟩
  · exact .inl ⟨wait, hstep⟩
  · rw [hstep]
    exact .inr ⟨a.goesOn_requestStop.length, a.goesOn_requestStop.later⟩
  · exact .inr ⟨hgoes.length, hgoes.later⟩

/-- A call leaves a loop as it is, or asks it to stop. -/
theorem getElem?_of_call {act : Act α} (hact : ¬act.IsStep) {a : Lane (Feed α ε)} {i : Nat}
    {l : PollLoop} (hl : a.loops[i]? = some l) :
    (machine.step act a).loops[i]? = some l ∨
      (machine.step act a).loops[i]? = some l.requestStop := by
  -- Only a stop request changes a loop, and only the one in charge.
  have hstop : a.requestStop.loops[i]? = some l ∨ a.requestStop.loops[i]? = some l.requestStop := by
    rw [requestStop]
    split
    · next j _ =>
      rw [update, List.getElem?_modify, hl]
      by_cases hj : j = i <;> simp [hj]
    · exact .inl hl
  cases act with
  | start wait =>
    show (a.tryStart wait).loops[i]? = _ ∨ _
    rcases a.tryStart_cases wait with h | h
    · rw [h]
      exact .inl hl
    · rw [h, List.getElem?_append_left (List.getElem?_eq_some_iff.1 hl).1]
      exact .inl hl
  | requestStop => exact hstop
  | detach => exact hstop
  | check now j => exact absurd (.check now j) hact
  | tick j => exact absurd (.tick j) hact
  | _ => exact .inl hl

/-- A loop that is there after a call was there before, and stands where it stood, or it has just
    been started. -/
theorem mem_of_call {act : Act α} (hact : ¬act.IsStep) {a : Lane (Feed α ε)} {l' : PollLoop}
    (hl' : l' ∈ (machine.step act a).loops) :
    l'.phase = .checking ∨ ∃ l ∈ a.loops, l'.phase = l.phase ∧ l'.wait = l.wait := by
  obtain ⟨i, hi⟩ := List.mem_iff_getElem?.1 hl'
  by_cases hlt : i < a.loops.length
  · have hl := List.getElem?_eq_getElem hlt
    refine .inr ⟨_, List.getElem_mem hlt, ?_⟩
    rcases getElem?_of_call hact hl with h | h
    · cases Option.some.inj (hi.symm.trans h)
      exact ⟨rfl, rfl⟩
    · cases Option.some.inj (hi.symm.trans h)
      exact ⟨rfl, rfl⟩
  · -- Its number is new, so that the call has launched it.
    left
    rcases launch_or_later act a with ⟨wait, hstep⟩ | ⟨hlength, -⟩
    · rw [hstep, launch, List.getElem?_append_right (Nat.le_of_not_lt hlt)] at hi
      cases List.mem_singleton.1 (List.mem_of_getElem? hi)
      rfl
    · exact absurd (hlength ▸ (List.getElem?_eq_some_iff.1 hi).1) hlt

namespace Clock

variable {c : Clock α ε}

/-- A call that is no step of a loop makes none tick. -/
theorem ticks_call {act : Act α} (hact : ¬act.IsStep) (c : Clock α ε) :
    ticks (.call act) c = [] := by
  cases act with
  | tick i => exact absurd (.tick i) hact
  | _ => rfl

/-- All loops have looked if they were about to, none is late, and no loop is started between a
    shutdown and the end of the loop that it took. -/
def Prompt : Move α → Clock α ε → Prop
  | .call act, c => ¬act.IsStep ∧ c.lane.Patient (note act c.lane)
  | .look, _ => True
  | .spin, c => ∀ l ∈ c.lane.loops, l.Rests
  | .idle n, c => ∀ l ∈ c.lane.loops, l.RestsUntil (c.now + n)
  | .pass, c => ∀ l ∈ c.lane.loops, l.RestsUntil c.now

/-- If at most one loop goes on, at most one ticks when a millisecond has passed. -/
theorem pass_cases (h : c.lane.OneAtATime) :
    ((∀ l ∈ c.lane.loops, l.isDue (c.now + 1) = false) ∧
        c.lane.fireDue (c.now + 1) = c.lane ∧ ticks .pass c = []) ∨
      ∃ i l due, c.lane.loops[i]? = some l ∧ l.phase = .waiting due ∧ due ≤ c.now + 1 ∧
        (∀ j l', c.lane.loops[j]? = some l' → j ≠ i → l'.isOver = true) ∧
        c.lane.fireDue (c.now + 1) =
          { c.lane with
            loops := c.lane.loops.set i (l.fire c.lane.worker).1
            worker := (l.fire c.lane.worker).2 } ∧
        ticks .pass c = [⟨i, c.lane.worker.queue.items.head?⟩] := by
  by_cases hdue : ∀ l ∈ c.lane.loops, l.isDue (c.now + 1) = false
  · exact .inl ⟨hdue, fireDue_eq_self hdue, (ticksOfEach_eq_nil 0).2 hdue⟩
  · -- A loop that is due goes on, so that all others are over.
    simp only [not_forall, Bool.not_eq_false] at hdue
    obtain ⟨l, hmem, hl⟩ := hdue
    obtain ⟨i, hi⟩ := List.mem_iff_getElem?.1 hmem
    have hgoes : l.isOver = false := by
      rw [← Bool.not_eq_true]
      intro hover
      rw [PollLoop.isDue_of_isOver hover] at hl
      cases hl
    have hothers : ∀ j l', c.lane.loops[j]? = some l' → j ≠ i → l'.isOver = true := by
      intro j l' hl' hj
      rw [← Bool.not_eq_false]
      exact fun hover => hj (h.eq j i l' l hl' hi hover hgoes)
    obtain ⟨due, hphase, hle⟩ : ∃ due, l.phase = .waiting due ∧ due ≤ c.now + 1 := by
      have hwait := PollLoop.wait_pos_of_isDue hl
      cases hphase : l.phase with
      | waiting due =>
        rw [PollLoop.isDue_of_waiting hwait hphase] at hl
        exact ⟨due, rfl, of_decide_eq_true hl⟩
      | _ => simp [PollLoop.isDue, hphase] at hl
    refine .inr ⟨i, l, due, hi, hphase, hle, hothers, ?_, ?_⟩
    · rw [fireDue_of_unique hi hothers, if_pos hl]
    · refine (ticksOfEach_of_unique hi (fun j l' hl' hj _ =>
        PollLoop.isDue_of_isOver (hothers j l' hl' hj)) 0 _).trans ?_
      rw [if_pos hl, Nat.zero_add]

/-- Its ticks with their times. -/
def tick? (b : Nat × Beat α) : Option (Nat × Tick α) := b.2.tick?.map (b.1, ·)

theorem filterMap_tick?_timed (m : Move α) (c : Clock α ε) :
    (timed m c).filterMap tick? = (ticks m c).map ((machine.step m c).now, ·) := by
  rw [timed, beats, List.filterMap_map, List.filterMap_append, List.filterMap_map,
    List.filterMap_map]
  have hnone : (m.pushed?.toList).filterMap ((tick? ∘ ((machine.step m c).now, ·)) ∘ .queued) =
      ([] : List (Nat × Tick α)) := by
    cases m.pushed? <;> rfl
  rw [hnone, List.nil_append]
  rw [← List.filterMap_eq_map']
  rfl

/-- How the ticks so far, with their times, are apart from each other and from those to come. -/
structure Spaced (ts : List (Nat × Tick α)) (c : Clock α ε) : Prop where
  oneAtATime : c.lane.OneAtATime
  past : ∀ t ∈ ts, t.1 ≤ c.now
  due : ∀ l ∈ c.lane.loops, ∀ due, l.phase = .waiting due → ∀ t ∈ ts, t.1 + l.wait ≤ due
  apart : ts.Pairwise fun t u => ∃ wait, c.lane.waits[u.2.loop]? = some wait ∧ t.1 + wait ≤ u.1

namespace Spaced

variable {ts : List (Nat × Tick α)}

omit [Worker (Feed α ε)] in
/-- The loops that have ticked keep their waits. -/
theorem apart_mono (h : Spaced ts c) {b : Lane (Feed α ε)}
    (hwaits : ∃ more, b.waits = c.lane.waits ++ more) :
    ts.Pairwise fun t u => ∃ wait, b.waits[u.2.loop]? = some wait ∧ t.1 + wait ≤ u.1 := by
  exact h.apart.imp fun {t u} ⟨wait, hwait, hle⟩ =>
    ⟨wait, getElem?_waits_of_append hwaits hwait, hle⟩

theorem call (h : Spaced ts c) {act : Act α} (hact : Prompt (.call act) c) :
    Spaced ts (machine.step (.call act) c) := by
  refine ⟨h.oneAtATime.step hact.2, h.past, fun l' hl' due hphase t ht => ?_,
    h.apart_mono (waits_step act c.lane)⟩
  rcases mem_of_call hact.1 hl' with hchecking | ⟨l, hl, hsame, hwait⟩
  · cases hchecking.symm.trans hphase
  · rw [hwait]
    exact h.due l hl due (hsame.symm.trans hphase) t ht

theorem look (h : Spaced ts c) : Spaced ts (machine.step .look c) := by
  have hsteps : c.lane.Steps (c.lane.checkAll c.now) := c.lane.steps_checkAll c.now
  refine ⟨h.oneAtATime.steps hsteps, h.past, fun l' hl' due hphase t ht => ?_,
    h.apart_mono hsteps.exists_waits⟩
  obtain ⟨l, hl, rfl⟩ := List.mem_map.1 hl'
  rw [PollLoop.check] at hphase ⊢
  split at hphase
  · next hchecking =>
    rw [if_pos hchecking]
    -- It begins to wait now, and all ticks were before.
    split at hphase
    · cases hphase
    · cases hphase
      exact Nat.add_le_add_right (h.past t ht) l.wait
  · next hchecking =>
    rw [if_neg hchecking]
    exact h.due l hl due hphase t ht

theorem pass (h : Spaced ts c) :
    Spaced (ts ++ (ticks .pass c).map (c.now + 1, ·)) (machine.step .pass c) := by
  have hsteps : c.lane.Steps (c.lane.fireDue (c.now + 1)) := c.lane.steps_fireDue (c.now + 1)
  have hpast : ∀ t ∈ ts, t.1 ≤ c.now + 1 := fun t ht => Nat.le_succ_of_le (h.past t ht)
  have hold := h.apart_mono hsteps.exists_waits
  rcases pass_cases h.oneAtATime with ⟨-, hfire, hticks⟩ |
      ⟨i, l, due, hl, hphase, hdue, hothers, hfire, hticks⟩
  · rw [hticks, List.map_nil, List.append_nil]
    refine ⟨h.oneAtATime.steps hsteps, hpast, ?_, hold⟩
    show ∀ l ∈ (c.lane.fireDue (c.now + 1)).loops, _
    rw [hfire]
    exact h.due
  · rw [hticks, List.map_singleton]
    refine ⟨h.oneAtATime.steps hsteps, ?_, ?_, ?_⟩
    · exact List.forall_mem_append.2 ⟨hpast, List.forall_mem_singleton.2 (Nat.le_refl _)⟩
    · -- The loop that has ticked is about to look, and all others are over.
      show ∀ l ∈ (c.lane.fireDue (c.now + 1)).loops, _
      rw [hfire]
      intro l' hl' due' hphase'
      obtain ⟨j, hj⟩ := List.mem_iff_getElem?.1 hl'
      by_cases hji : i = j
      · subst hji
        rw [List.getElem?_set_self (List.getElem?_eq_some_iff.1 hl).1] at hj
        cases Option.some.inj hj
        exact absurd hphase' (l.phase_ticked_ne _ due')
      · rw [List.getElem?_set_ne hji] at hj
        have hover := hothers j l' hj (Ne.symm hji)
        simp [PollLoop.isOver, hphase'] at hover
    · refine List.pairwise_append.2 ⟨hold, List.pairwise_singleton _ _, fun t ht u hu => ?_⟩
      cases List.mem_singleton.1 hu
      refine ⟨l.wait, ?_, ?_⟩
      · exact getElem?_waits_of_append hsteps.exists_waits (getElem?_waits hl)
      · exact Nat.le_trans (h.due l (List.mem_of_getElem? hl) due hphase t ht) hdue

theorem step (h : Spaced ts c) {m : Move α} (hm : Prompt m c) :
    Spaced (ts ++ (ticks m c).map ((machine.step m c).now, ·)) (machine.step m c) := by
  cases m with
  | call act =>
    rw [ticks_call hm.1, List.map_nil, List.append_nil]
    exact h.call hm
  | look =>
    rw [show ticks .look c = [] from rfl, List.map_nil, List.append_nil]
    exact h.look
  | spin =>
    -- All loops have waits, so that a round changes nothing.
    have hsame : machine.step .spin c = c := by
      show { c with lane := c.lane.spin c.now } = c
      rw [spin_eq_self hm]
    rw [ticks_spin_of_rests hm, List.map_nil, List.append_nil, hsame]
    exact h
  | idle n =>
    rw [show ticks (.idle n) c = [] from rfl, List.map_nil, List.append_nil]
    exact ⟨h.oneAtATime, fun t ht => Nat.le_add_right_of_le (h.past t ht), h.due, h.apart⟩
  | pass => exact h.pass

end Spaced

/-- A tick comes no earlier than the wait of its loop after any tick before. -/
theorem spaced_run {ms : List (Move α)} (hms : machine.Allowed Prompt ms c)
    (h : c.lane.OneAtATime) :
    Spaced ((machine.log timed ms c).filterMap tick?) (machine.run ms c) := by
  refine machine.run_log_preserves_of_allowed (P := Prompt)
    (I := fun bs c => Spaced (bs.filterMap tick?) c) (fun bs m c hm hc => ?_) hms (l := [])
    ⟨h, nofun, fun _ _ _ _ => nofun, List.Pairwise.nil⟩
  rw [List.filterMap_append, filterMap_tick?_timed]
  exact hc.step hm

end Clock

end Lane

end GridRobot
