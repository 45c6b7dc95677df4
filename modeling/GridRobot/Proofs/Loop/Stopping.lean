import GridRobot.Proofs.Station.Lifecycle

/-!
# Asking a loop to stop

A loop takes its steps one at a time: it looks whether it should stop
(`PollLoop.check`), waits for as long as it may take, and ticks
(`PollLoop.fire`). Between any two steps it may be asked to stop, by anybody and
any number of times, and anything may happen to what it works on.

A loop that was asked to stop and is not about to tick never ticks again
(`PollLoop.Resigned.log_ticks`); one that is about to tick does so once and then
is such a loop. So it ticks at most once after the first request
(`PollLoop.length_ticks_le_one`), and not at all if the request comes before the
loop has looked: at the start, or since its last tick (`PollLoop.stops_safely`).
-/

namespace GridRobot

namespace PollLoop

variable {ω : Type}

/-! ### Histories -/

/-- What happens to a loop, and to what it works on. -/
inductive Act (ω : Type)
  | requestStop
  /-- The loop looks whether it should stop, if it is about to. -/
  | check (now : Nat)
  /-- The loop ticks, if it is about to; it may have waited for any time. -/
  | tick
  /-- Somebody else does something with what the loop works on. -/
  | other (f : ω → ω)

/-- The loop is asked to stop. -/
def Act.isRequest : Act ω → Bool
  | .requestStop => true
  | _ => false

variable [Worker ω]

/-- The machine of a loop and what it works on; a loop that is not waiting does not tick. -/
def machine : Machine (Act ω) (PollLoop × ω) where
  step
    | .requestStop, (l, w) => (l.requestStop, w)
    | .check now, (l, w) => (l.check now, w)
    | .tick, (l, w) => if l.isWaiting then l.fire w else (l, w)
    | .other f, (l, w) => (l, f w)

/-- What comes of a tick. -/
def ticks : Act ω → PollLoop × ω → List (Option Outcome)
  | .tick, (l, w) => if l.isWaiting then [(Worker.tick w).1] else []
  | _, _ => []

/-- The item that a tick takes off the queue. -/
def taken {α ε : Type} : Act (Feed α ε) → PollLoop × Feed α ε → List α
  | .tick, (l, f) => if l.isWaiting then f.queue.items.take 1 else []
  | _, _ => []

/-! ### Loops that do not tick any more -/

/-- The loop will not tick any more: it is over, or it was asked to stop and will look first. -/
structure Resigned (l : PollLoop) : Prop where
  isWaiting : l.isWaiting = false
  ends : l.stopping = true ∨ l.isOver = true

variable {s : PollLoop × ω} {acts : List (Act ω)}

theorem Resigned.step (h : s.1.Resigned) (act : Act ω) :
    (machine.step act s).1.Resigned ∧ ticks act s = [] := by
  obtain ⟨l, w⟩ := s
  cases act with
  | requestStop => exact ⟨⟨h.isWaiting, .inl rfl⟩, rfl⟩
  | check now =>
    refine ⟨⟨?_, h.ends.imp (later_check now l).stopping (later_check now l).isOver⟩, rfl⟩
    show (l.check now).isWaiting = false
    rw [check]
    split
    · next hphase =>
      -- A loop that is about to look is not over, so it was asked to stop.
      have hstop : l.stopping = true := h.ends.resolve_right fun hover => by
        simp [isOver, hphase] at hover
      simp [hstop, PollLoop.isWaiting]
    · exact h.isWaiting
  | tick =>
    have hw : l.isWaiting = false := h.isWaiting
    simp only [machine, ticks, hw, Bool.false_eq_true, if_false, and_true]
    exact h
  | other f => exact ⟨h, rfl⟩

/-- A loop that has resigned never ticks again. -/
theorem Resigned.log_ticks (h : s.1.Resigned) (acts : List (Act ω)) :
    machine.log ticks acts s = [] := by
  induction acts generalizing s with
  | nil => rfl
  | cons act acts ih =>
    obtain ⟨hnext, hnone⟩ := h.step act
    rw [Machine.log_cons, hnone, ih hnext, List.nil_append]

/-! ### Loops that were asked to stop -/

theorem stopping_step (h : s.1.stopping = true) (act : Act ω) :
    (machine.step act s).1.stopping = true := by
  obtain ⟨l, w⟩ := s
  cases act with
  | requestStop => rfl
  | check now => exact (l.stopping_check now).trans h
  | tick =>
    show (if l.isWaiting then l.fire w else (l, w)).1.stopping = true
    split
    · exact (l.stopping_ticked _).trans h
    · exact h
  | other f => exact h

/-- A tick leaves the loop about to look, or broken. -/
theorem isWaiting_tick (s : PollLoop × ω) : (machine.step .tick s).1.isWaiting = false := by
  obtain ⟨l, w⟩ := s
  show (if l.isWaiting then l.fire w else (l, w)).1.isWaiting = false
  split
  · next hw =>
    rw [fire]
    cases (Worker.tick w).1 with
    | some o => rw [ticked_of_isWaiting hw]; rfl
    | none => rfl
  · next hw => exact Bool.eq_false_iff.2 hw

/-- A loop that was asked to stop ticks at most once more. -/
theorem length_ticks_le_one (h : s.1.stopping = true) (acts : List (Act ω)) :
    (machine.log ticks acts s).length ≤ 1 := by
  induction acts generalizing s with
  | nil => exact Nat.zero_le 1
  | cons act acts ih =>
    have hnext := stopping_step h act
    cases act with
    | tick =>
      -- This may be its last tick.
      rw [Machine.log_cons, Resigned.log_ticks ⟨isWaiting_tick s, .inl hnext⟩, List.append_nil,
        ticks]
      split
      · exact Nat.le_refl 1
      · exact Nat.zero_le 1
    | _ => exact ih hnext

/-- A loop that does not look does not come to wait. -/
theorem isWaiting_run (hacts : ∀ now, .check now ∉ acts) (h : s.1.isWaiting = false) :
    (machine.run acts s).1.isWaiting = false := by
  induction acts generalizing s with
  | nil => exact h
  | cons act acts ih =>
    refine ih (fun now hmem => hacts now (List.mem_cons_of_mem _ hmem)) ?_
    cases act with
    | check now => exact absurd List.mem_cons_self (hacts now)
    | tick => exact isWaiting_tick s
    | _ => exact h

theorem requestStop_eq_self {l : PollLoop} (h : l.stopping = true) : l.requestStop = l := by
  cases l
  cases h
  rfl

/-- To a loop that was asked to stop, further requests are nothing. -/
theorem filter_requests (h : s.1.stopping = true) (acts : List (Act ω)) :
    machine.run (acts.filter (!·.isRequest)) s = machine.run acts s ∧
      machine.log ticks (acts.filter (!·.isRequest)) s = machine.log ticks acts s := by
  induction acts generalizing s with
  | nil => exact ⟨rfl, rfl⟩
  | cons act acts ih =>
    cases hact : act.isRequest with
    | true =>
      have hsame : machine.step act s = s ∧ ticks act s = [] := by
        cases act with
        | requestStop =>
          exact ⟨congrArg (·, s.2) (requestStop_eq_self h), rfl⟩
        | _ => cases hact
      rw [List.filter_cons_of_neg (by simp [hact]), Machine.run_cons, Machine.log_cons, hsame.1,
        hsame.2, List.nil_append]
      exact ih h
    | false =>
      rw [List.filter_cons_of_pos (by simp [hact]), Machine.run_cons, Machine.run_cons,
        Machine.log_cons, Machine.log_cons]
      obtain ⟨hrun, hlog⟩ := ih (stopping_step h act)
      exact ⟨hrun, congrArg (ticks act s ++ ·) hlog⟩

/-! ### Stop requests -/

/-- What follows when a loop that starts in the state `s` is asked to stop after `before`, and
    `after` is what happens then. -/
structure StopsSafely (before after : List (Act ω)) (s : PollLoop × ω) : Prop where
  ticksOnce : (machine.log ticks after (machine.run (before ++ [.requestStop]) s)).length ≤ 1
  beforeFirstCheck (hbefore : ∀ now, .check now ∉ before) :
    machine.log ticks after (machine.run (before ++ [.requestStop]) s) = []
  afterTick {earlier since : List (Act ω)} (hbefore : before = earlier ++ .tick :: since)
    (hsince : ∀ now, .check now ∉ since) :
    machine.log ticks after (machine.run (before ++ [.requestStop]) s) = []
  /-- A loop that is over never ticks again, whether or not it is asked to stop. -/
  ended (hover : (machine.run before s).1.isOver = true) :
    machine.log ticks after (machine.run before s) = []
  stays : (machine.run (before ++ .requestStop :: after) s).1.stopping = true
  /-- Requests after the first one change nothing. -/
  onlyFirst :
    machine.run (before ++ .requestStop :: after.filter (!·.isRequest)) s =
        machine.run (before ++ .requestStop :: after) s ∧
      machine.log ticks (before ++ .requestStop :: after.filter (!·.isRequest)) s =
        machine.log ticks (before ++ .requestStop :: after) s

/-- A loop that is not about to tick when it is asked to stop never ticks again. -/
theorem resigned_requestStop (h : s.1.isWaiting = false) :
    (machine.step .requestStop s).1.Resigned :=
  ⟨h, .inl rfl⟩

theorem stopsSafely_start (l : PollLoop) (w : ω) (before after : List (Act ω)) :
    StopsSafely before after (l.start, w) := by
  have hasked : (machine.run (before ++ [.requestStop]) (l.start, w)).1.stopping = true := by
    rw [Machine.run_concat]
    rfl
  constructor
  case ticksOnce => exact length_ticks_le_one hasked after
  case beforeFirstCheck =>
    intro hbefore
    rw [Machine.run_concat]
    exact (resigned_requestStop (isWaiting_run hbefore rfl)).log_ticks after
  case afterTick =>
    intro earlier since hbefore hsince
    rw [Machine.run_concat, hbefore, Machine.run_append, Machine.run_cons]
    exact (resigned_requestStop (isWaiting_run hsince (isWaiting_tick _))).log_ticks after
  case ended =>
    intro hover
    exact Resigned.log_ticks ⟨isWaiting_of_isOver hover, .inr hover⟩ after
  case stays =>
    rw [Machine.run_append, Machine.run_cons]
    exact machine.run_preserves (P := fun s => s.1.stopping = true)
      (fun act s h => stopping_step h act) after rfl
  case onlyFirst =>
    obtain ⟨hrun, hlog⟩ := filter_requests hasked after
    rw [Machine.run_concat] at hrun hlog
    rw [Machine.run_append, Machine.run_append, Machine.log_append, Machine.log_append]
    exact ⟨hrun, congrArg (_ ++ ·) hlog⟩

/-! ### Queues -/

section Queue

variable {α ε : Type} [Worker (Feed α ε)]

theorem length_taken_le (act : Act (Feed α ε)) (s : PollLoop × Feed α ε) :
    (taken act s).length ≤ (ticks act s).length := by
  cases act with
  | tick =>
    rw [taken, ticks]
    split
    · exact List.length_take_le 1 _
    · exact Nat.le_refl 0
  | _ => exact Nat.le_refl 0

/-- A tick takes off the queue what is missing there afterwards. -/
theorem taken_append_tick {work : α → ε × Outcome}
    (hwork : ∀ f : Feed α ε, Worker.tick f = (f.tick work).map some id)
    (s : PollLoop × Feed α ε) :
    s.2.queue.items = taken .tick s ++ (machine.step .tick s).2.queue.items := by
  obtain ⟨l, f⟩ := s
  show f.queue.items = (if l.isWaiting then f.queue.items.take 1 else []) ++
    (if l.isWaiting then l.fire f else (l, f)).2.queue.items
  split
  · rw [fire, hwork]
    rcases f.tick_cases work with ⟨hempty, htick⟩ | ⟨a, queue, hitems, htick⟩
    · simp [htick, hempty]
    · simp [htick, hitems]
  · rfl

end Queue

/-- After the first request to stop, a loop ticks at most once, and not at all if it would have
    looked before; so it takes at most one more item off a queue. -/
theorem stops_safely :
    (∀ {ω : Type} [Worker ω] (l : PollLoop) (w : ω) (before after : List (Act ω)),
      StopsSafely before after (l.start, w)) ∧
    ∀ d : Station.Way,
      (∀ s : PollLoop × Feed d.Item d.Event,
        s.2.queue.items = taken .tick s ++ (machine.step .tick s).2.queue.items) ∧
      ∀ (l : PollLoop) (f : Feed d.Item d.Event) (before after : List (Act (Feed d.Item d.Event))),
        (machine.log taken after
          (machine.run (before ++ [.requestStop]) (l.start, f))).length ≤ 1 := by
  refine ⟨stopsSafely_start, fun d => ⟨?_, fun l f before after => ?_⟩⟩
  · cases d with
    | outbound => exact taken_append_tick Station.tick_outboundFeed
    | inbound => exact taken_append_tick Station.tick_inboundFeed
  · exact Nat.le_trans (machine.length_log_le length_taken_le after _)
      (stopsSafely_start l f before after).ticksOnce

end PollLoop

end GridRobot
