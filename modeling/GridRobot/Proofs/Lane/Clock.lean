import GridRobot.Proofs.Lane.Counters
import GridRobot.Proofs.Lane.Paced

/-!
# Lanes in time

A lane does not know the time; it is told. Between two calls on it, its loops
look whether they should stop, those without a wait tick in rounds, and time
passes, in which no loop is due or after which those that are due tick
(`Lane.Clock`). What can be seen of this are its beats, each with its time: an
item is queued, or a loop ticks.

The beats tell all that happens to the queue: a tick takes the oldest of the
items that wait, whichever loop it is of (`Lane.Clock.serves_run`). And they tell
all events that are published, at most one with each tick
(`Lane.Clock.events_step`).
-/

namespace GridRobot

section FireEach

variable {α ε : Type} [Worker (Feed α ε)] (p : PollLoop → Feed α ε → Bool)

/-- The ticks of the loops that `p` chooses; the first loop has the number `i`. -/
def ticksOfEach : Nat → List PollLoop → Feed α ε → List (Lane.Tick α)
  | _, [], _ => []
  | i, l :: ls, f =>
    if p l f then ⟨i, f.queue.items.head?⟩ :: ticksOfEach (i + 1) ls (l.fire f).2
    else ticksOfEach (i + 1) ls f

variable {p}

theorem ticksOfEach_eq_nil {ls : List PollLoop} {f : Feed α ε} (i : Nat) :
    ticksOfEach p i ls f = [] ↔ ∀ l ∈ ls, p l f = false := by
  induction ls generalizing i with
  | nil => exact ⟨fun _ => List.forall_mem_nil _, fun _ => rfl⟩
  | cons l ls ih =>
    rw [ticksOfEach, List.forall_mem_cons]
    cases p l f with
    | true => simp
    | false => rw [if_neg Bool.false_ne_true, ih, and_iff_right rfl]

end FireEach

namespace Lane

variable {α ε : Type}

/-! ### What happens in time -/

/-- A lane, and the time. -/
structure Clock (α ε : Type) where
  now : Nat
  lane : Lane (Feed α ε)

/-- What happens to a lane in time. -/
inductive Move (α : Type)
  | call (act : Act α)
  /-- The loops that are about to look whether they should stop do so. -/
  | look
  /-- One round of the loops that have no wait. -/
  | spin
  /-- Time passes in which nothing happens. -/
  | idle (n : Nat)
  /-- A millisecond passes, and the loops that are due tick. -/
  | pass

/-- The item that is queued. -/
def Move.pushed? : Move α → Option α
  | call act => act.pushed?
  | _ => none

/-- What can be seen of a lane. -/
inductive Beat (α : Type)
  | queued (x : α)
  | ticked (t : Tick α)

namespace Beat

/-- The item that is queued. -/
def queued? : Beat α → Option α
  | queued x => some x
  | ticked _ => none

/-- The tick, if it is one. -/
def tick? : Beat α → Option (Tick α)
  | queued _ => none
  | ticked t => some t

/-- The item that a tick takes. -/
def served? : Beat α → Option α
  | queued _ => none
  | ticked t => t.item

@[simp] theorem queued?_queued (x : α) : (queued x).queued? = some x := rfl

@[simp] theorem queued?_ticked (t : Tick α) : (ticked t).queued? = none := rfl

@[simp] theorem served?_queued (x : α) : (queued x).served? = none := rfl

@[simp] theorem served?_ticked (t : Tick α) : (ticked t).served? = t.item := rfl

end Beat

namespace Clock

variable [Worker (Feed α ε)]

/-- The machine of a lane in time: its loops look, spin and tick all together. -/
def machine : Machine (Move α) (Clock α ε) where
  step
    | .call act, c => { c with lane := Lane.machine.step act c.lane }
    | .look, c => { c with lane := c.lane.checkAll c.now }
    | .spin, c => { c with lane := c.lane.spin c.now }
    | .idle n, c => { c with now := c.now + n }
    | .pass, c => ⟨c.now + 1, c.lane.fireDue (c.now + 1)⟩

/-- The loop takes part in a round of the loops that have no wait. -/
def spins (l : PollLoop) (f : Feed α ε) : Bool :=
  l.isSpinning && (l.stopping || Worker.load f ≠ 0)

/-- The ticks of the loops, one after the other. -/
def ticks : Move α → Clock α ε → List (Tick α)
  | .call act, c => Lane.ticks act c.lane
  | .spin, c => ticksOfEach spins 0 c.lane.loops c.lane.worker
  | .pass, c => ticksOfEach (fun l _ => l.isDue (c.now + 1)) 0 c.lane.loops c.lane.worker
  | _, _ => []

/-- Loops that have a wait take no part in a round of those that have none. -/
theorem ticks_spin_of_rests {c : Clock α ε} (h : ∀ l ∈ c.lane.loops, l.Rests) :
    ticks .spin c = [] :=
  (ticksOfEach_eq_nil 0).2 fun l hl => by rw [spins, (h l hl).isSpinning, Bool.false_and]

/-- The beats, one after the other. -/
def beats (m : Move α) (c : Clock α ε) : List (Beat α) :=
  m.pushed?.toList.map .queued ++ (ticks m c).map .ticked

/-- The beats with their times. -/
def timed (m : Move α) (c : Clock α ε) : List (Nat × Beat α) :=
  (beats m c).map ((machine.step m c).now, ·)

theorem log_timed_snd (ms : List (Move α)) (c : Clock α ε) :
    (machine.log timed ms c).map Prod.snd = machine.log beats ms c := by
  rw [← Machine.log_map]
  congr 1
  funext m c
  rw [timed, List.map_map]
  exact List.map_id _

theorem run_call (acts : List (Act α)) (c : Clock α ε) :
    machine.run (acts.map .call) c = { c with lane := Lane.machine.run acts c.lane } := by
  induction acts generalizing c with
  | nil => rfl
  | cons act acts ih => exact ih _

end Clock

/-! ### The queue -/

/-- The second queue comes of the first with these beats. -/
def Serves : List α → List (Beat α) → List α → Prop
  | q, [], q' => q = q'
  | q, .queued x :: bs, q' => Serves (q ++ [x]) bs q'
  | q, .ticked t :: bs, q' => t.item = q.head? ∧ Serves q.tail bs q'

namespace Serves

variable {q q' q'' : List α} {bs bs' : List (Beat α)}

theorem append (h : Serves q bs q') (h' : Serves q' bs' q'') : Serves q (bs ++ bs') q'' := by
  induction bs generalizing q with
  | nil =>
    cases h
    exact h'
  | cons b bs ih =>
    cases b with
    | queued x => exact ih h
    | ticked t => exact ⟨h.1, ih h.2⟩

theorem exists_of_append (h : Serves q (bs ++ bs') q'') :
    ∃ q', Serves q bs q' ∧ Serves q' bs' q'' := by
  induction bs generalizing q with
  | nil => exact ⟨q, rfl, h⟩
  | cons b bs ih =>
    cases b with
    | queued x => exact ih h
    | ticked t =>
      obtain ⟨q', hq', h'⟩ := ih h.2
      exact ⟨q', ⟨h.1, hq'⟩, h'⟩

/-- Those served first, then those that wait, are those that waited and that were queued. -/
theorem served_append (h : Serves q bs q') :
    bs.filterMap Beat.served? ++ q' = q ++ bs.filterMap Beat.queued? := by
  induction bs generalizing q with
  | nil =>
    cases h
    exact (List.append_nil _).symm
  | cons b bs ih =>
    cases b with
    | queued x => simp [List.filterMap_cons, ih h]
    | ticked t =>
      obtain ⟨hitem, hrest⟩ := h
      cases q with
      | nil => simpa [List.filterMap_cons, hitem] using ih hrest
      | cons x q => simpa [List.filterMap_cons, hitem] using ih hrest

/-- Ticks alone take from the front of the queue. -/
theorem eq_drop {ts : List (Tick α)} (h : Serves q (ts.map .ticked) q') :
    q' = q.drop ts.length := by
  induction ts generalizing q with
  | nil => exact h.symm
  | cons t ts ih => rw [ih h.2, List.drop_tail, List.length_cons]

end Serves

variable [Worker (Feed α ε)] {work : α → ε × Outcome}
  (hwork : ∀ f : Feed α ε, Worker.tick f = (f.tick work).map some id)

include hwork

theorem serves_fire (l : PollLoop) (f : Feed α ε) :
    (l.fire f).2.queue.items = f.queue.items.tail := by
  rw [PollLoop.fire, hwork]
  rcases f.tick_cases work with ⟨hempty, htick⟩ | ⟨x, queue, hitems, htick⟩
  · simp [htick, hempty]
  · simp [htick, hitems]

theorem serves_ticksOfEach (p : PollLoop → Feed α ε → Bool) (i : Nat) (ls : List PollLoop)
    (f : Feed α ε) : Serves f.queue.items ((ticksOfEach p i ls f).map .ticked)
      (fireEach p ls f).2.queue.items := by
  induction ls generalizing i f with
  | nil => rfl
  | cons l ls ih =>
    cases hl : p l f with
    | true =>
      -- This loop takes the oldest item, and those after it find the rest.
      rw [ticksOfEach, if_pos hl, fireEach_cons_of_pos hl]
      refine ⟨rfl, ?_⟩
      rw [← serves_fire hwork l f]
      exact ih _ _
    | false =>
      rw [ticksOfEach, if_neg (Bool.eq_false_iff.1 hl), fireEach_cons_of_neg hl]
      exact ih _ _

/-- The events that ticks publish. -/
theorem events_ticksOfEach (p : PollLoop → Feed α ε → Bool) (i : Nat) (ls : List PollLoop)
    (f : Feed α ε) : (fireEach p ls f).2.events =
      ((ticksOfEach p i ls f).filterMap (Tick.event? work)).foldl (fun p e => p.publish e)
        f.events := by
  induction ls generalizing i f with
  | nil => rfl
  | cons l ls ih =>
    cases hl : p l f with
    | true =>
      have hfire : (l.fire f).2.events = _ :=
        (congrArg (fun r => r.2.events) (hwork f)).trans (Feed.events_tick work f)
      -- What this loop publishes comes before what those after it do.
      rw [ticksOfEach, if_pos hl, fireEach_cons_of_pos hl]
      refine (ih (i + 1) (l.fire f).2).trans ?_
      rw [hfire]
      cases f.queue.items.head? <;> rfl
    | false =>
      rw [ticksOfEach, if_neg (Bool.eq_false_iff.1 hl), fireEach_cons_of_neg hl]
      exact ih _ _

namespace Clock

/-- The loops of a lane take from its queue, and calls put items there. -/
theorem serves_step (m : Move α) (c : Clock α ε) :
    Serves c.lane.worker.queue.items (beats m c) (machine.step m c).lane.worker.queue.items := by
  cases m with
  | call act =>
    cases act with
    | push x => rfl
    | start wait =>
      have hworker : (c.lane.tryStart wait).worker = c.lane.worker := by
        rcases c.lane.tryStart_cases wait with h | h
        · rw [h]
        · rw [h]
      exact (congrArg (·.queue.items) hworker).symm
    | requestStop => exact (congrArg (·.queue.items) c.lane.worker_requestStop).symm
    | detach => exact (congrArg (·.queue.items) c.lane.worker_requestStop).symm
    | tick i =>
      -- A tick of a loop that is not about to tick is none.
      show Serves _ ((Lane.ticks (.tick i) c.lane).map .ticked) (c.lane.tickAt i).worker.queue.items
      rw [Lane.ticks]
      rcases c.lane.tickAt_cases i with ⟨hw, h⟩ | ⟨hw, l, -, h⟩
      · rw [hw, h]
        rfl
      · rw [hw, h]
        exact ⟨rfl, (serves_fire hwork l _).symm⟩
    | _ => rfl
  | spin => exact serves_ticksOfEach hwork spins 0 c.lane.loops c.lane.worker
  | pass => exact serves_ticksOfEach hwork _ 0 c.lane.loops c.lane.worker
  | _ => rfl

theorem serves_run (ms : List (Move α)) (c : Clock α ε) :
    Serves c.lane.worker.queue.items (machine.log beats ms c)
      (machine.run ms c).lane.worker.queue.items := by
  induction ms generalizing c with
  | nil => rfl
  | cons m ms ih => exact (serves_step hwork m c).append (ih _)

/-- What is done with the subscriptions. -/
def called : Move α → Publisher ε → Publisher ε
  | .call (.events c), p => p.perform c
  | _, p => p

/-- The ticks publish what becomes of the items that they take, and nothing else is published. -/
theorem events_step (m : Move α) (c : Clock α ε) :
    (machine.step m c).lane.worker.events =
      ((ticks m c).filterMap (Tick.event? work)).foldl (fun p e => p.publish e)
        (called m c.lane.worker.events) := by
  cases m with
  | call act =>
    cases act with
    | start wait =>
      have hworker : (c.lane.tryStart wait).worker = c.lane.worker := by
        rcases c.lane.tryStart_cases wait with h | h
        · rw [h]
        · rw [h]
      exact congrArg Feed.events hworker
    | requestStop => exact congrArg Feed.events c.lane.worker_requestStop
    | detach => exact congrArg Feed.events c.lane.worker_requestStop
    | tick i => exact events_tickAt hwork i c.lane
    | _ => rfl
  | spin => exact events_ticksOfEach hwork spins 0 c.lane.loops c.lane.worker
  | pass => exact events_ticksOfEach hwork _ 0 c.lane.loops c.lane.worker
  | _ => rfl

end Clock

end Lane

end GridRobot
