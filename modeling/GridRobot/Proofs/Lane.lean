import GridRobot.Loop.Lane
import GridRobot.Proofs.Feed

/-!
# Runs of a lane

The loops of a lane take their steps one at a time and in any order: a loop
looks whether it should stop (`Lane.checkAt`), and a loop that has waited ticks
(`Lane.tickAt`). Between these steps, loops are started, asked to stop or taken
out of the slot, items are queued and events are looked for.

* `Lane.feed`: however many loops there are, and whatever becomes of them, all
  that the feed of a lane sees of them is ticks;
* `Lane.endsOnRequest_run`: no loop of a lane is over unless it was asked to
  stop, whatever came of its ticks;
* `Lane.getElem?_tickAt`: a loop that has ticked looks again whether it should
  stop, whatever came of the tick.
-/

namespace GridRobot

namespace PollLoop

/-- The loop is about to tick. -/
def isWaiting (l : PollLoop) : Bool :=
  match l.phase with
  | .waiting _ => true
  | _ => false

theorem isWaiting_of_isOver {l : PollLoop} (h : l.isOver = true) : l.isWaiting = false := by
  cases hphase : l.phase with
  | waiting due => simp [isOver, hphase] at h
  | _ => rw [isWaiting, hphase]

/-- The loop is not over unless it was asked to stop. -/
def EndsOnRequest (l : PollLoop) : Prop :=
  l.isOver = true → l.phase = .finished ∧ l.stopping = true

theorem endsOnRequest_started (wait : Nat) : (started wait).EndsOnRequest := fun h => by cases h

variable {l : PollLoop}

theorem EndsOnRequest.requestStop (h : l.EndsOnRequest) : l.requestStop.EndsOnRequest :=
  fun hover => ⟨(h hover).1, rfl⟩

theorem EndsOnRequest.check (h : l.EndsOnRequest) (now : Nat) : (l.check now).EndsOnRequest := by
  rw [PollLoop.check]
  split
  · -- Looking is the only way to the end, and a loop that was not asked to stop waits instead.
    by_cases hstop : l.stopping = true
    · exact fun _ => ⟨by simp [hstop], hstop⟩
    · intro hover
      simp [isOver, hstop] at hover
  · exact h

/-- A tick that does not break a loop does not end it either. -/
theorem endsOnRequest_ticked (l : PollLoop) (o : Outcome) : (l.ticked (some o)).EndsOnRequest := by
  intro hover
  by_cases hl : l.phase = .unstarted
  · simp [isOver, ticked, hl] at hover
  · simp [isOver, ticked, hl] at hover

theorem ticked_of_isWaiting (h : l.isWaiting = true) (o : Outcome) :
    l.ticked (some o) = { l with stats := l.stats.record o, phase := .checking } := by
  have hne : l.phase ≠ .unstarted := fun heq => by simp [isWaiting, heq] at h
  rw [ticked, if_neg hne]

end PollLoop

namespace Lane

variable {ω : Type} {a : Lane ω} {i : Nat}

/-! ### Single steps -/

/-- The `i`-th loop is about to tick. -/
def isWaiting (i : Nat) (a : Lane ω) : Bool := a.loops[i]?.any PollLoop.isWaiting

/-- The `i`-th loop looks whether it should stop, if it is about to. -/
def checkAt (now i : Nat) (a : Lane ω) : Lane ω := a.update i (·.check now)

variable [Worker ω]

/-- The `i`-th loop ticks, if it is about to. -/
def tickAt (i : Nat) (a : Lane ω) : Lane ω :=
  match a.loops[i]? with
  | some l =>
    if l.isWaiting then
      { a with loops := a.loops.set i (l.fire a.worker).1, worker := (l.fire a.worker).2 }
    else a
  | none => a

/-- The lane after an attempt to start a loop. -/
def tryStart (wait : Nat) (a : Lane ω) : Lane ω := (a.start wait).toOption.getD a

theorem tickAt_of_isWaiting {l : PollLoop} (hl : a.loops[i]? = some l) (hw : l.isWaiting = true) :
    a.tickAt i =
      { a with loops := a.loops.set i (l.fire a.worker).1, worker := (l.fire a.worker).2 } := by
  rw [tickAt, hl]
  exact if_pos hw

theorem tickAt_cases (i : Nat) (a : Lane ω) :
    (a.isWaiting i = false ∧ a.tickAt i = a) ∨
      a.isWaiting i = true ∧ ∃ l, a.loops[i]? = some l ∧ a.tickAt i =
        { a with loops := a.loops.set i (l.fire a.worker).1, worker := (l.fire a.worker).2 } := by
  rw [isWaiting]
  cases hl : a.loops[i]? with
  | none => exact .inl ⟨rfl, by rw [tickAt, hl]⟩
  | some l =>
    rw [Option.any_some]
    by_cases hw : l.isWaiting = true
    · exact .inr ⟨hw, l, rfl, tickAt_of_isWaiting hl hw⟩
    · refine .inl ⟨Bool.eq_false_iff.2 hw, ?_⟩
      rw [tickAt, hl]
      exact if_neg hw

/-- A loop that has ticked looks again whether it should stop, whatever came of the tick. -/
theorem getElem?_tickAt {l : PollLoop} {o : Outcome} (hl : a.loops[i]? = some l)
    (hw : l.isWaiting = true) (ho : (Worker.tick a.worker).1 = some o) :
    (a.tickAt i).loops[i]? = some { l with stats := l.stats.record o, phase := .checking } := by
  rw [tickAt_of_isWaiting hl hw, PollLoop.fire, ho, PollLoop.ticked_of_isWaiting hw]
  exact List.getElem?_set_self (List.getElem?_eq_some_iff.1 hl).1

theorem tryStart_cases (wait : Nat) (a : Lane ω) :
    a.tryStart wait = a ∨
      a.tryStart wait =
        { a with loops := a.loops ++ [.started wait], slot := some a.loops.length } := by
  rw [tryStart, start]
  cases a.current with
  | none => exact .inr rfl
  | some l =>
    dsimp only
    split
    · exact .inr rfl
    · split
      · exact .inl rfl
      · exact .inl rfl

omit [Worker ω] in
theorem worker_requestStop (a : Lane ω) : a.requestStop.worker = a.worker := by
  rw [requestStop]
  cases a.slot <;> rfl

/-! ### Runs -/

/-- What can happen to a lane. -/
inductive Act (α : Type)
  | push (x : α)
  | events (c : Publisher.Call)
  | start (wait : Nat)
  | requestStop
  | detach
  /-- The `i`-th loop looks whether it should stop. -/
  | check (now i : Nat)
  /-- The `i`-th loop ticks. -/
  | tick (i : Nat)

variable {α ε : Type} [Worker (Feed α ε)]

/-- The machine of a lane whose worker is a feed; its loops take their steps one by one. -/
def machine : Machine (Act α) (Lane (Feed α ε)) where
  step
    | .push x, a => { a with worker := a.worker.push x }
    | .events c, a => { a with worker.events := a.worker.events.perform c }
    | .start wait, a => a.tryStart wait
    | .requestStop, a => a.requestStop
    | .detach, a => a.detach
    | .check now i, a => a.checkAt now i
    | .tick i, a => a.tickAt i

/-- The feed of a lane: it sees of the loops only that they tick. -/
def feed {work : α → ε × Outcome}
    (hwork : ∀ f : Feed α ε, Worker.tick f = (f.tick work).map some id) :
    Simulation (machine : Machine (Act α) (Lane (Feed α ε))) (Feed.machine work) where
  view := Lane.worker
  acts
    | .push x, _ => [.push x]
    | .events c, _ => [.events c]
    | .tick i, a => if a.isWaiting i then [.tick] else []
    | _, _ => []
  view_step act a := by
    cases act with
    | push x => rfl
    | events c => rfl
    | start wait =>
      show (a.tryStart wait).worker = a.worker
      rcases a.tryStart_cases wait with h | h
      · rw [h]
      · rw [h]
    | requestStop => exact a.worker_requestStop
    | detach => exact a.worker_requestStop
    | check now i => rfl
    | tick i =>
      -- A tick of a loop that is not about to tick is none.
      show (a.tickAt i).worker =
        (Feed.machine work).run (if a.isWaiting i then [.tick] else []) a.worker
      rcases a.tickAt_cases i with ⟨hw, h⟩ | ⟨hw, l, -, h⟩
      · rw [h, hw]
        rfl
      · rw [h, hw]
        show (Worker.tick a.worker).2 = (a.worker.tick work).2
        rw [hwork]
        rfl

/-- The item that is queued. -/
def Act.pushed? : Act α → Option α
  | .push x => some x
  | _ => none

/-- The item that is taken by a tick. -/
def taken : Act α → Lane (Feed α ε) → List α
  | .tick i, a => if a.isWaiting i then a.worker.queue.items.take 1 else []
  | _, _ => []

/-- The event that the `i`-th subscription finds. -/
def found (i : Nat) : Act α → Lane (Feed α ε) → List ε
  | .events c, a => Publisher.found i c a.worker.events
  | _, _ => []

section Seen

variable {work : α → ε × Outcome}
  (hwork : ∀ f : Feed α ε, Worker.tick f = (f.tick work).map some id)

theorem see_pushed : (feed hwork).see Feed.pushed = fun act _ => act.pushed?.toList := by
  funext act a
  cases act with
  | tick i =>
    show Machine.log _ _ (if a.isWaiting i then [Feed.Op.tick] else []) _ = []
    split
    · rfl
    · rfl
  | _ => rfl

theorem see_taken : (feed hwork).see Feed.taken = taken := by
  funext act a
  cases act with
  | tick i =>
    show Machine.log _ _ (if a.isWaiting i then [Feed.Op.tick] else []) _ =
      if a.isWaiting i then _ else _
    split
    · exact List.append_nil _
    · rfl
  | _ => rfl

theorem see_found (i : Nat) : (feed hwork).see (Feed.found i) = found i := by
  funext act a
  cases act with
  | events c => exact List.append_nil _
  | tick i =>
    show Machine.log _ _ (if a.isWaiting i then [Feed.Op.tick] else []) _ = []
    split
    · rfl
    · rfl
  | _ => rfl

variable {hwork} {act : Act α} {a : Lane (Feed α ε)}

theorem eq_tick_of_mem (h : .tick ∈ (feed hwork).acts act a) : ∃ i, act = .tick i := by
  cases act with
  | tick i => exact ⟨i, rfl⟩
  | _ => simp [feed] at h

theorem eq_events_of_mem {c : Publisher.Call} (h : .events c ∈ (feed hwork).acts act a) :
    act = .events c := by
  cases act with
  | events c' =>
    cases List.mem_singleton.1 h
    rfl
  | tick i =>
    have htick : Feed.Op.events c ∈ if a.isWaiting i then [Feed.Op.tick] else [] := h
    split at htick
    · cases List.mem_singleton.1 htick
    · cases htick
  | _ => simp [feed] at h

end Seen

/-! ### The end of a loop -/

/-- No loop of the lane is over unless it was asked to stop. -/
def EndsOnRequest (a : Lane ω) : Prop := ∀ l ∈ a.loops, l.EndsOnRequest

section

omit [Worker ω]

theorem EndsOnRequest.update (h : a.EndsOnRequest) {f : PollLoop → PollLoop}
    (hf : ∀ l : PollLoop, l.EndsOnRequest → (f l).EndsOnRequest) (i : Nat) :
    (a.update i f).EndsOnRequest := by
  intro l hl
  obtain ⟨j, hj⟩ := List.mem_iff_getElem?.1 hl
  rw [Lane.update, List.getElem?_modify] at hj
  obtain ⟨l', hl', rfl⟩ := Option.map_eq_some_iff.1 hj
  have hends := h l' (List.mem_of_getElem? hl')
  split
  · exact hf l' hends
  · exact hends

theorem EndsOnRequest.requestStop (h : a.EndsOnRequest) : a.requestStop.EndsOnRequest := by
  rw [Lane.requestStop]
  split
  · exact h.update (fun _ hl => hl.requestStop) _
  · exact h

end

theorem EndsOnRequest.tryStart (h : a.EndsOnRequest) (wait : Nat) :
    (a.tryStart wait).EndsOnRequest := by
  rcases a.tryStart_cases wait with hstart | hstart
  · rw [hstart]
    exact h
  · rw [hstart]
    intro l hl
    rcases List.mem_append.1 hl with hl | hl
    · exact h l hl
    · rw [List.mem_singleton.1 hl]
      exact PollLoop.endsOnRequest_started wait

theorem EndsOnRequest.tickAt (h : a.EndsOnRequest) {o : Outcome}
    (ho : (Worker.tick a.worker).1 = some o) (i : Nat) : (a.tickAt i).EndsOnRequest := by
  rcases a.tickAt_cases i with ⟨-, hfire⟩ | ⟨-, l, -, hfire⟩
  · rw [hfire]
    exact h
  · rw [hfire, PollLoop.fire, ho]
    intro l' hl'
    rcases List.mem_or_eq_of_mem_set hl' with hl' | rfl
    · exact h l' hl'
    · exact l.endsOnRequest_ticked o

variable {work : α → ε × Outcome}
  (hwork : ∀ f : Feed α ε, Worker.tick f = (f.tick work).map some id)

include hwork

theorem endsOnRequest_step (act : Act α) {a : Lane (Feed α ε)} (h : a.EndsOnRequest) :
    (machine.step act a).EndsOnRequest := by
  cases act with
  | push x => exact h
  | events c => exact h
  | start wait => exact h.tryStart wait
  | requestStop => exact h.requestStop
  | detach => exact h.requestStop
  | check now i => exact h.update (fun _ hl => hl.check now) i
  | tick i => exact h.tickAt (by rw [hwork]; rfl) i

/-- In a run, no loop of a lane gets to its end unless it is asked to stop. -/
theorem endsOnRequest_run (acts : List (Act α)) {a : Lane (Feed α ε)} (h : a.EndsOnRequest) :
    (machine.run acts a).EndsOnRequest :=
  machine.run_preserves (fun act _ => endsOnRequest_step hwork act) acts h

end Lane

end GridRobot
