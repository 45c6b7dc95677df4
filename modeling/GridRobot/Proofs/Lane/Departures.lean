import GridRobot.Proofs.Lane.Spacing
import Mathlib.Order.Bounds.Defs

/-!
# When items are taken

A loop that has a wait ticks whenever a multiple of its wait has passed since it
was started, as long as nobody asks it to stop. So the times at which items are
queued tell the times at which they are taken: an item is taken at the first
tick after it was queued and after the item before it was taken (`departures`,
`Lane.Clock.departed_run`).
-/

namespace GridRobot

/-! ### Queues that are served in a rhythm -/

section Departures

variable {start wait now m : Nat}

/-- The first tick after `now` of a loop that was started at the time `start`. -/
def nextTick (start wait now : Nat) : Nat := start + ((now - start) / wait + 1) * wait

theorem isLeast_nextTick (hwait : 0 < wait) (start now : Nat) :
    IsLeast {t | ∃ j, 1 ≤ j ∧ t = start + j * wait ∧ now < t} (nextTick start wait now) := by
  have hdiv : now - start < ((now - start) / wait + 1) * wait := by
    rw [← Nat.div_lt_iff_lt_mul hwait]
    exact Nat.lt_succ_self _
  refine ⟨⟨_, Nat.le_add_left 1 _, rfl, ?_⟩, ?_⟩
  · rw [nextTick]
    omega
  · rintro t ⟨j, hj, rfl, hlt⟩
    have hle : (now - start) / wait + 1 ≤ j := by
      rw [Nat.succ_le_iff, Nat.div_lt_iff_lt_mul hwait]
      have hpos : 0 < j * wait := Nat.mul_pos hj hwait
      omega
    exact Nat.add_le_add_left (Nat.mul_le_mul_right wait hle) start

theorem nextTick_eq (hle : start + m * wait ≤ now) (hlt : now < start + (m + 1) * wait) :
    nextTick start wait now = start + (m + 1) * wait := by
  have hdiv : (now - start) / wait = m := by
    refine Nat.div_eq_of_lt_le ?_ ?_
    · omega
    · omega
  rw [nextTick, hdiv]

/-- When items are taken that are queued at these times, if the item before them is taken at the
    time `last`. -/
def departures (start wait : Nat) : Nat → List Nat → List Nat
  | _, [] => []
  | last, a :: as =>
    nextTick start wait (max a last) :: departures start wait (nextTick start wait (max a last)) as

theorem departures_append (start wait last : Nat) (as bs : List Nat) :
    departures start wait last (as ++ bs) = departures start wait last as ++
      departures start wait ((departures start wait last as).getLastD last) bs := by
  induction as generalizing last with
  | nil => rfl
  | cons a as ih => rw [List.cons_append, departures, departures, ih, List.getLastD_cons]; rfl

/-- A queue into which items were put at the times `arrivals`, after `m` ticks that took items at
    the times `departed`. -/
structure Backlog (start wait m now : Nat) (arrivals departed : List Nat) (size : Nat) : Prop where
  /-- The last tick has taken the item before the first one that waits, or it found nothing. -/
  exists_pending : ∃ taken pending, arrivals = taken ++ pending ∧
    departed = departures start wait start taken ∧ pending.length = size ∧
    (∀ a ∈ pending, a ≤ now) ∧
    ∀ a ∈ pending.head?, start + m * wait ≤ max a (departed.getLastD start)
  past : ∀ d ∈ departed, d ≤ now

namespace Backlog

variable {arrivals departed : List Nat} {size : Nat}

theorem last_le (h : Backlog start wait m now arrivals departed size)
    (hstart : start + m * wait ≤ now) : departed.getLastD start ≤ now := by
  rcases List.mem_cons.1 (List.getLastD_mem_cons (l := departed) (a := start)) with hmem | hmem
  · omega
  · exact h.past _ hmem

theorem push (h : Backlog start wait m now arrivals departed size)
    (hstart : start + m * wait ≤ now) :
    Backlog start wait m now (arrivals ++ [now]) departed (size + 1) := by
  obtain ⟨taken, pending, harrivals, hdeparted, hlength, hpast, hhead⟩ := h.exists_pending
  refine ⟨⟨taken, pending ++ [now], ?_, hdeparted, ?_, ?_, ?_⟩, h.past⟩
  · rw [harrivals, List.append_assoc]
  · rw [List.length_append, hlength]
    rfl
  · exact List.forall_mem_append.2 ⟨hpast, List.forall_mem_singleton.2 (Nat.le_refl now)⟩
  · cases pending with
    | nil =>
      -- The new item is the first one that waits, and all ticks so far were before it.
      intro a ha
      cases ha
      exact Nat.le_trans hstart (Nat.le_max_left _ _)
    | cons a pending => exact hhead

theorem later (h : Backlog start wait m now arrivals departed size) {now' : Nat}
    (hnow : now ≤ now') : Backlog start wait m now' arrivals departed size := by
  obtain ⟨taken, pending, harrivals, hdeparted, hlength, hpast, hhead⟩ := h.exists_pending
  exact ⟨⟨taken, pending, harrivals, hdeparted, hlength,
    fun a ha => Nat.le_trans (hpast a ha) hnow, hhead⟩, fun d hd => Nat.le_trans (h.past d hd) hnow⟩

/-- A tick finds nothing. -/
theorem tick_empty (h : Backlog start wait m now arrivals departed 0) {m' : Nat} :
    Backlog start wait m' now arrivals departed 0 := by
  obtain ⟨taken, pending, harrivals, hdeparted, hlength, hpast, -⟩ := h.exists_pending
  cases List.eq_nil_of_length_eq_zero hlength
  exact ⟨⟨taken, [], harrivals, hdeparted, rfl, hpast, nofun⟩, h.past⟩

/-- A tick takes the first item that waits. -/
theorem tick_take (h : Backlog start wait m now arrivals departed (size + 1))
    (hstart : start + m * wait ≤ now) (hnow : now < start + (m + 1) * wait) :
    Backlog start wait (m + 1) (start + (m + 1) * wait) arrivals
      (departed ++ [start + (m + 1) * wait]) size := by
  have hlast := h.last_le hstart
  obtain ⟨taken, pending, harrivals, hdeparted, hlength, hpast, hhead⟩ := h.exists_pending
  cases pending with
  | nil => cases hlength
  | cons a pending =>
    have ha : a ≤ now := hpast a List.mem_cons_self
    -- No tick was missed since the item was queued and the one before it was taken.
    have hnext : nextTick start wait (max a (departed.getLastD start)) =
        start + (m + 1) * wait :=
      nextTick_eq (hhead a rfl) (by omega)
    refine ⟨⟨taken ++ [a], pending, ?_, ?_, Nat.succ.inj hlength, fun a' ha' => ?_,
      fun a' ha' => ?_⟩, ?_⟩
    · rw [harrivals, List.append_assoc]
      rfl
    · rw [departures_append, ← hdeparted, departures, hnext]
      rfl
    · have := hpast a' (List.mem_cons_of_mem a ha')
      omega
    · rw [List.getLastD_concat]
      exact Nat.le_max_right _ _
    · refine List.forall_mem_append.2 ⟨fun d hd => ?_, List.forall_mem_singleton.2 (Nat.le_refl _)⟩
      have := h.past d hd
      omega

/-- The items that are due by now have been taken, and the others not. -/
theorem departed_eq (h : Backlog start wait m now arrivals departed size)
    (hstart : start + m * wait ≤ now) (hnow : now < start + (m + 1) * wait) :
    departed = (departures start wait start arrivals).takeWhile (· ≤ now) := by
  have hlast := h.last_le hstart
  obtain ⟨taken, pending, harrivals, hdeparted, hlength, hpast, hhead⟩ := h.exists_pending
  have hpast' : ∀ d ∈ departed, decide (d ≤ now) = true := fun d hd => decide_eq_true (h.past d hd)
  rw [harrivals, departures_append, ← hdeparted, List.takeWhile_append_of_pos hpast']
  cases pending with
  | nil => rw [departures, List.takeWhile_nil, List.append_nil]
  | cons a pending =>
    have ha : a ≤ now := hpast a List.mem_cons_self
    have hnext : nextTick start wait (max a (departed.getLastD start)) =
        start + (m + 1) * wait :=
      nextTick_eq (hhead a rfl) (by omega)
    -- The next tick is still to come, so that nothing behind this item has been taken either.
    rw [departures, hnext, List.takeWhile_cons_of_neg (by simpa using hnow), List.append_nil]

end Backlog

end Departures

namespace PollLoop

/-- A loop that was started at the time `start` and has ticked `m` times since; nobody has asked it
    to stop. -/
structure InRhythm (start wait m now : Nat) (l : PollLoop) : Prop where
  wait_eq : l.wait = wait
  stopping : l.stopping = false
  start_le : start + m * wait ≤ now
  lt_next : now < start + (m + 1) * wait
  phase : (l.phase = .checking ∧ now = start + m * wait) ∨
    l.phase = .waiting (start + (m + 1) * wait)

namespace InRhythm

variable {start wait m now : Nat} {l : PollLoop}

theorem check (h : l.InRhythm start wait m now) : (l.check now).InRhythm start wait m now := by
  rcases h.phase with ⟨hphase, hnow⟩ | hphase
  · rw [PollLoop.check, if_pos hphase]
    refine ⟨h.wait_eq, h.stopping, h.start_le, h.lt_next, .inr ?_⟩
    simp only [h.stopping, h.wait_eq, hnow, Nat.succ_mul, Nat.add_assoc]
    rfl
  · rwa [PollLoop.check, if_neg (by simp [hphase])]

/-- While it rests, time may pass. -/
theorem later (h : l.InRhythm start wait m now) {now' : Nat} (hnow : now ≤ now')
    (hrests : l.RestsUntil now') : l.InRhythm start wait m now' := by
  have hphase := h.phase.resolve_left fun hphase => hrests.phase_ne hphase.1
  exact ⟨h.wait_eq, h.stopping, Nat.le_trans h.start_le hnow, hrests.lt_due hphase, .inr hphase⟩

/-- It ticks when it is due. -/
theorem ticked (h : l.InRhythm start wait m now) (hw : l.isWaiting = true) (hwait : 0 < wait)
    (o : Outcome) :
    (l.ticked (some o)).InRhythm start wait (m + 1) (start + (m + 1) * wait) := by
  rw [ticked_of_isWaiting hw]
  refine ⟨h.wait_eq, h.stopping, Nat.le_refl _, ?_, .inl ⟨rfl, rfl⟩⟩
  exact Nat.add_lt_add_left (Nat.mul_lt_mul_of_pos_right (Nat.lt_succ_self _) hwait) _

end InRhythm

end PollLoop

namespace Lane

namespace Clock

variable {α ε : Type} [Worker (Feed α ε)] {c : Clock α ε}

/-- The times at which items are queued. -/
def arrived? (b : Nat × Beat α) : Option Nat := b.2.queued?.map fun _ => b.1

/-- The times at which items are taken. -/
def departed? (b : Nat × Beat α) : Option Nat := b.2.served?.map fun _ => b.1

/-- The `i`-th loop was asked to stop, or another one was started after it. -/
def Disturbed (i : Nat) (c : Clock α ε) : Prop :=
  i + 1 < c.lane.loops.length ∨ ∃ l, c.lane.loops[i]? = some l ∧ l.stopping = true

/-- The `i`-th loop works alone, and in its rhythm. -/
structure Keeping (i start wait : Nat) (arrivals departed : List Nat) (c : Clock α ε) : Prop where
  length : c.lane.loops.length = i + 1
  others : ∀ j l, c.lane.loops[j]? = some l → j ≠ i → l.isOver = true
  exists_loop : ∃ l m, c.lane.loops[i]? = some l ∧ l.InRhythm start wait m c.now ∧
    Backlog start wait m c.now arrivals departed c.lane.worker.queue.items.length

omit [Worker (Feed α ε)] in
theorem Disturbed.goesOn {i : Nat} (h : Disturbed i c) {a : Lane (Feed α ε)}
    (hgoes : c.lane.GoesOn a) (now : Nat) : Disturbed i ⟨now, a⟩ := by
  rcases h with hlt | ⟨l, hl, hstop⟩
  · exact .inl (hgoes.length ▸ hlt)
  · obtain ⟨l', hl'⟩ : ∃ l', a.loops[i]? = some l' :=
      ⟨_, List.getElem?_eq_getElem (hgoes.length ▸ (List.getElem?_eq_some_iff.1 hl).1)⟩
    obtain ⟨l'', hl'', hlater⟩ := hgoes.later hl'
    cases hl.symm.trans hl''
    exact .inr ⟨l', hl', hlater.stopping hstop⟩

theorem Disturbed.step {i : Nat} (h : Disturbed i c) {m : Move α} (hm : Prompt m c) :
    Disturbed i (machine.step m c) := by
  cases m with
  | call act =>
    rcases h with hlt | ⟨l, hl, hstop⟩
    · left
      obtain ⟨more, hmore⟩ := waits_step act c.lane
      have hlength := congrArg List.length hmore
      simp only [waits, List.length_map, List.length_append] at hlength
      show i + 1 < (Lane.machine.step act c.lane).loops.length
      omega
    · right
      rcases getElem?_of_call hm.1 hl with hl' | hl'
      · exact ⟨l, hl', hstop⟩
      · exact ⟨_, hl', rfl⟩
  | look => exact h.goesOn (c.lane.steps_checkAll c.now).goesOn _
  | spin => exact h.goesOn (c.lane.steps_spin c.now).goesOn _
  | idle n => exact h
  | pass => exact h.goesOn (c.lane.steps_fireDue (c.now + 1)).goesOn _

/-- All items of which a beat tells are told of at its time. -/
theorem filterMap_timed (f : Beat α → Option α) (m : Move α) (c : Clock α ε) :
    (timed m c).filterMap (fun b => (f b.2).map fun _ => b.1) =
      ((beats m c).filterMap f).map fun _ => (machine.step m c).now := by
  rw [timed, List.filterMap_map, List.map_filterMap]
  rfl

variable {work : α → ε × Outcome}
  (hwork : ∀ f : Feed α ε, Worker.tick f = (f.tick work).map some id)

namespace Keeping

variable {i start wait : Nat} {arrivals departed : List Nat}

omit [Worker (Feed α ε)] in
/-- The loops that were over are over. -/
theorem others_of_later (h : Keeping i start wait arrivals departed c) {a : Lane (Feed α ε)}
    (hlater : ∀ {j : Nat} {l' : PollLoop}, a.loops[j]? = some l' →
      ∃ l : PollLoop, c.lane.loops[j]? = some l ∧ l.Later l') :
    ∀ j l, a.loops[j]? = some l → j ≠ i → l.isOver = true := by
  intro j l' hl' hj
  obtain ⟨l, hl, hl'⟩ := hlater hl'
  exact hl'.isOver (h.others j l hl hj)

/-- Nothing happens that can be seen, and the loop keeps its rhythm. -/
theorem unseen (h : Keeping i start wait arrivals departed c) {m : Move α}
    (hbeats : beats m c = []) (hnow : c.now ≤ (machine.step m c).now)
    (hgoes : c.lane.GoesOn (machine.step m c).lane)
    (hqueue : (machine.step m c).lane.worker = c.lane.worker)
    (hloop : ∀ l n, c.lane.loops[i]? = some l → l.InRhythm start wait n c.now →
      ∃ l', (machine.step m c).lane.loops[i]? = some l' ∧
        l'.InRhythm start wait n (machine.step m c).now) :
    Keeping i start wait (arrivals ++ (timed m c).filterMap arrived?)
      (departed ++ (timed m c).filterMap departed?) (machine.step m c) := by
  obtain ⟨l, n, hl, hrhythm, hbacklog⟩ := h.exists_loop
  obtain ⟨l', hl', hrhythm'⟩ := hloop l n hl hrhythm
  rw [timed, hbeats, List.map_nil, List.filterMap_nil, List.filterMap_nil, List.append_nil,
    List.append_nil]
  exact ⟨hgoes.length.trans h.length, h.others_of_later hgoes.later,
    ⟨l', n, hl', hrhythm', hqueue ▸ hbacklog.later hnow⟩⟩

include hwork

/-- A call queues an item, or it does not concern the loop, or it disturbs it. -/
theorem call (h : Keeping i start wait arrivals departed c) {act : Act α} (hact : ¬act.IsStep) :
    Disturbed i (machine.step (.call act) c) ∨
      Keeping i start wait (arrivals ++ (timed (.call act) c).filterMap arrived?)
        (departed ++ (timed (.call act) c).filterMap departed?) (machine.step (.call act) c) := by
  obtain ⟨l, m, hl, hrhythm, hbacklog⟩ := h.exists_loop
  rcases launch_or_later act c.lane with ⟨w, hstep⟩ | ⟨hlength, hlater⟩
  · -- Another loop is launched.
    refine .inl (.inl ?_)
    show i + 1 < (Lane.machine.step act c.lane).loops.length
    rw [hstep, launch, List.length_append, h.length]
    exact Nat.lt_succ_self _
  · rcases getElem?_of_call hact hl with hl' | hl'
    · refine .inr ⟨hlength.trans h.length, h.others_of_later hlater, l, m, hl', hrhythm, ?_⟩
      have hserves := serves_step hwork (.call act) c
      have hbeats : beats (.call act) c = act.pushed?.toList.map .queued := by
        rw [beats, ticks_call hact]
        exact List.append_nil _
      have harrived : (timed (.call act) c).filterMap arrived? =
          act.pushed?.toList.map fun _ => c.now := by
        refine (filterMap_timed Beat.queued? (.call act) c).trans ?_
        rw [hbeats]
        cases act.pushed? <;> rfl
      have hdeparted : (timed (.call act) c).filterMap departed? = [] := by
        refine (filterMap_timed Beat.served? (.call act) c).trans ?_
        rw [hbeats]
        cases act.pushed? <;> rfl
      rw [hbeats] at hserves
      rw [harrived, hdeparted, List.append_nil]
      cases hpushed : act.pushed? with
      | none =>
        rw [hpushed] at hserves
        have hqueue : c.lane.worker.queue.items = _ := hserves
        rw [← hqueue, Option.toList_none, List.map_nil, List.append_nil]
        exact hbacklog
      | some x =>
        rw [hpushed] at hserves
        have hqueue : c.lane.worker.queue.items ++ [x] = _ := hserves
        rw [← hqueue, List.length_append]
        exact hbacklog.push hrhythm.start_le
    · -- The loop is asked to stop.
      exact .inl (.inr ⟨_, hl', rfl⟩)

/-- A millisecond passes, and the loop ticks if it is due. -/
theorem pass (h : Keeping i start wait arrivals departed c) (hwait : 0 < wait)
    (hrests : Prompt .pass c) :
    Keeping i start wait (arrivals ++ (timed .pass c).filterMap arrived?)
      (departed ++ (timed .pass c).filterMap departed?) (machine.step .pass c) := by
  obtain ⟨l, m, hl, hrhythm, hbacklog⟩ := h.exists_loop
  have hrest : l.RestsUntil c.now := hrests l (List.mem_of_getElem? hl)
  have hphase : l.phase = .waiting (start + (m + 1) * wait) :=
    hrhythm.phase.resolve_left fun hphase => hrest.phase_ne hphase.1
  have hlt := hrest.lt_due hphase
  have hdue : l.isDue (c.now + 1) = decide (start + (m + 1) * wait ≤ c.now + 1) :=
    PollLoop.isDue_of_waiting hrest.wait_pos hphase
  have hfire : c.lane.fireDue (c.now + 1) = _ := fireDue_of_unique hl h.others (c.now + 1)
  have hticks : ticks .pass c = _ := ticksOfEach_of_unique hl (fun j l' hl' hj _ =>
    PollLoop.isDue_of_isOver (h.others j l' hl' hj)) 0 _
  by_cases hle : start + (m + 1) * wait ≤ c.now + 1
  · -- The loop is due now, and takes the first item that waits.
    have hnow : c.now + 1 = start + (m + 1) * wait := by omega
    rw [hdue, if_pos (decide_eq_true hle)] at hfire hticks
    have hrhythm' : (l.fire c.lane.worker).1.InRhythm start wait (m + 1) (c.now + 1) := by
      rw [PollLoop.fire, hwork, hnow]
      exact hrhythm.ticked (by simp [PollLoop.isWaiting, hphase]) hwait _
    have hlater := (c.lane.steps_fireDue (c.now + 1)).goesOn
    refine ⟨hlater.length.trans h.length, h.others_of_later hlater.later,
      (l.fire c.lane.worker).1, m + 1, ?_, hrhythm', ?_⟩
    · show (c.lane.fireDue (c.now + 1)).loops[i]? = _
      rw [hfire]
      exact List.getElem?_set_self (List.getElem?_eq_some_iff.1 hl).1
    · have hqueue : (machine.step .pass c).lane.worker.queue.items =
          c.lane.worker.queue.items.tail := by
        show (c.lane.fireDue (c.now + 1)).worker.queue.items = _
        rw [hfire]
        exact serves_fire hwork l _
      have hbeats : beats .pass c = [.ticked ⟨0 + i, c.lane.worker.queue.items.head?⟩] := by
        rw [beats, hticks]
        rfl
      have harrived : (timed .pass c).filterMap arrived? = [] :=
        (filterMap_timed Beat.queued? .pass c).trans (by rw [hbeats]; rfl)
      have hdeparted : (timed .pass c).filterMap departed? =
          c.lane.worker.queue.items.head?.toList.map fun _ => c.now + 1 := by
        refine (filterMap_timed Beat.served? .pass c).trans ?_
        rw [hbeats]
        cases c.lane.worker.queue.items <;> rfl
      rw [harrived, hdeparted, hqueue, List.append_nil]
      show Backlog start wait (m + 1) (c.now + 1) _ _ _
      cases hitems : c.lane.worker.queue.items with
      | nil =>
        rw [hitems] at hbacklog
        simpa using hbacklog.tick_empty.later (Nat.le_succ c.now)
      | cons x rest =>
        rw [hitems] at hbacklog
        have htaken := hbacklog.tick_take hrhythm.start_le hrhythm.lt_next
        rwa [← hnow] at htaken
  · -- The loop is not due yet.
    have hsame : c.lane.fireDue (c.now + 1) = c.lane := by
      rw [hfire, hdue, if_neg (by simpa using hle)]
    refine h.unseen ?_ (Nat.le_succ _) ?_ ?_ fun l' n hl' hrhythm' => ?_
    · rw [beats, hticks, hdue, if_neg (by simpa using hle)]
      rfl
    · show c.lane.GoesOn (c.lane.fireDue (c.now + 1))
      rw [hsame]
      exact .of_eq rfl rfl
    · show (c.lane.fireDue (c.now + 1)).worker = _
      rw [hsame]
    · show ∃ l'', (c.lane.fireDue (c.now + 1)).loops[i]? = some l'' ∧ _
      rw [hsame]
      cases hl.symm.trans hl'
      refine ⟨l, hl, hrhythm'.later (Nat.le_succ _) ⟨hrest.toRests, fun hdue' => ?_⟩⟩
      cases hphase.symm.trans hdue'
      exact Nat.lt_of_not_le hle

theorem step (h : Keeping i start wait arrivals departed c) (hwait : 0 < wait) {m : Move α}
    (hm : Prompt m c) :
    Disturbed i (machine.step m c) ∨
      Keeping i start wait (arrivals ++ (timed m c).filterMap arrived?)
        (departed ++ (timed m c).filterMap departed?) (machine.step m c) := by
  cases m with
  | call act => exact h.call hwork hm.1
  | look =>
    refine .inr (h.unseen rfl (Nat.le_refl _) (c.lane.steps_checkAll c.now).goesOn rfl
      fun l n hl hrhythm => ⟨l.check c.now, ?_, hrhythm.check⟩)
    show (c.lane.loops.map (·.check c.now))[i]? = _
    rw [List.getElem?_map, hl]
    rfl
  | spin =>
    have hsame : c.lane.spin c.now = c.lane := spin_eq_self hm c.now
    refine .inr (h.unseen ?_ (Nat.le_refl _) (c.lane.steps_spin c.now).goesOn ?_
      fun l n hl hrhythm => ⟨l, ?_, hrhythm⟩)
    · rw [beats, ticks_spin_of_rests hm]
      rfl
    · exact congrArg Lane.worker hsame
    · exact (congrArg (fun a : Lane _ => a.loops[i]?) hsame).trans hl
  | idle n =>
    exact .inr (h.unseen rfl (Nat.le_add_right _ _) (.of_eq rfl rfl) rfl
      fun l n hl hrhythm => ⟨l, hl, hrhythm.later (Nat.le_add_right _ _)
        (hm l (List.mem_of_getElem? hl))⟩)
  | pass => exact .inr (h.pass hwork hwait hm)

end Keeping

include hwork

/-- A loop that was started when all others were over takes each item at the first of its ticks
    after that was queued and after the item before it was taken, if it is not asked to stop and no
    other loop is started. -/
theorem departed_run {ms : List (Move α)} (hms : machine.Allowed Prompt ms c) {i wait : Nat}
    (hwait : 0 < wait) (hlength : c.lane.loops.length = i + 1)
    (hloop : c.lane.loops[i]? = some (.started wait))
    (hothers : ∀ j l, c.lane.loops[j]? = some l → j ≠ i → l.isOver = true)
    (halone : (machine.run ms c).lane.loops.length = i + 1)
    (hstop : ∀ l, (machine.run ms c).lane.loops[i]? = some l → l.stopping = false) :
    (machine.log timed ms c).filterMap departed? =
      (departures c.now wait c.now
        (c.lane.worker.queue.items.map (fun _ => c.now) ++
          (machine.log timed ms c).filterMap arrived?)).takeWhile (· ≤ (machine.run ms c).now) := by
  have hkeeping : Keeping i c.now wait (c.lane.worker.queue.items.map fun _ => c.now) [] c := by
    refine ⟨hlength, hothers, .started wait, 0, hloop, ?_, ?_⟩
    · exact ⟨rfl, rfl, by omega, by omega, .inl ⟨rfl, by omega⟩⟩
    · refine ⟨⟨[], _, rfl, rfl, List.length_map _, ?_, fun a _ => ?_⟩, nofun⟩
      · simp
      · show c.now + 0 * wait ≤ max a c.now
        omega
  -- A loop that was disturbed stays so; until then it keeps its rhythm.
  have hstep : ∀ (bs : List (Nat × Beat α)) (m : Move α) (c' : Clock α ε), Prompt m c' →
      (Disturbed i c' ∨ Keeping i c.now wait ((c.lane.worker.queue.items.map fun _ => c.now) ++
        bs.filterMap arrived?) (bs.filterMap departed?) c') →
      (Disturbed i (machine.step m c') ∨
        Keeping i c.now wait ((c.lane.worker.queue.items.map fun _ => c.now) ++
          (bs ++ timed m c').filterMap arrived?) ((bs ++ timed m c').filterMap departed?)
          (machine.step m c')) := by
    rintro bs m c' hm (hdisturbed | hkept)
    · exact .inl (hdisturbed.step hm)
    · rw [List.filterMap_append, List.filterMap_append, ← List.append_assoc]
      exact hkept.step hwork hwait hm
  rcases machine.run_log_preserves_of_allowed hstep hms (l := [])
    (.inr (by simpa using hkeeping)) with (hlt | ⟨l, hl, hstopping⟩) | hkept
  · omega
  · rw [hstop l hl] at hstopping
    cases hstopping
  · obtain ⟨l, m, hl, hrhythm, hbacklog⟩ := hkept.exists_loop
    exact hbacklog.departed_eq hrhythm.start_le hrhythm.lt_next

end Clock

end Lane

end GridRobot
