import GridRobot.Proofs.Lane.Slot
import GridRobot.Proofs.Station.Run

/-!
# Starting the loops of a station

There are two ways through a station, to the robot and from it, each with a lane
of its own (`Station.Way`). Whatever happens to a station and in whatever order,
whether a loop of one way can be started is decided by the loop of that way that
was started last:

* if there is none, or there was a shutdown since, or the loop is over, it can;
* otherwise it cannot, and the refusal tells whether the loop was asked to stop.

A call that is refused changes nothing. The call that starts both loops is one
call after the other: if the outbound loop cannot be started then nothing
changes, and if only the inbound one cannot then the outbound one stays
(`Station.start_decided`).
-/

namespace GridRobot

namespace Station

/-- The two ways through a station: to the robot and from it. -/
inductive Way
  | outbound
  | inbound

namespace Way

/-- What goes a way. -/
abbrev Item : Way → Type
  | outbound => Message
  | inbound => String

/-- What is told of an item. -/
abbrev Event : Way → Type
  | outbound => SentEvent
  | inbound => ReceivedEvent

instance : (d : Way) → Worker (Feed d.Item d.Event)
  | outbound => inferInstanceAs (Worker OutboundFeed)
  | inbound => inferInstanceAs (Worker InboundFeed)

/-- What becomes of an item of a way. -/
def work : (d : Way) → d.Item → d.Event × Outcome
  | outbound => sending
  | inbound => receiving

/-- What the loops of a way are called. -/
def name : Way → String
  | outbound => "outbound"
  | inbound => "inbound"

/-- What happens to the lane of a way. -/
def onLane :
    (d : Way) → Simulation machine (Lane.machine : Machine _ (Lane (Feed d.Item d.Event)))
  | outbound => outboundLane
  | inbound => inboundLane

/-- The lane of a way. -/
def lane (d : Way) (s : Station) : Lane (Feed d.Item d.Event) := d.onLane.view s

/-- The station with another lane. -/
def setLane : (d : Way) → Lane (Feed d.Item d.Event) → Station → Station
  | outbound, a, s => { s with outbound := a }
  | inbound, a, s => { s with inbound := a }

/-- Starts a loop of a way. -/
def start : Way → Nat → Station → Except LoopError Station
  | outbound => startOutbound
  | inbound => startInbound

/-- The call that starts a loop of a way. -/
def startAct : Way → Nat → Act
  | outbound => .startOutbound
  | inbound => .startInbound

/-- The `i`-th loop of a way looks whether it should stop. -/
def checkAct (now i : Nat) : Way → Act
  | outbound => .checkOutbound now i
  | inbound => .checkInbound now i

/-- The `i`-th loop of a way ticks, if it is about to. -/
def tickAct (i : Nat) : Way → Act
  | outbound => .tickOutbound i
  | inbound => .tickInbound i

/-- What a report says of the loop of a way. -/
def stats : Way → ShutdownReport → Stats
  | outbound => ShutdownReport.outbound
  | inbound => ShutdownReport.inbound

/-- What is noted of the calls on the lane of a way. -/
def note (d : Way) : Act → Station → List Lane.Note := d.onLane.see Lane.note

/-- Of what was noted: the loop of a way that was started last, unless there was a shutdown
    since. -/
def lastLoop? (d : Way) (notes : List Lane.Note) (s : Station) : Option PollLoop :=
  (Lane.lastStarted notes).bind ((d.lane s).loops[·]?)

/-! ### One way -/

theorem name_worker (d : Way) : Worker.name (Feed d.Item d.Event) = d.name := by
  cases d <;> rfl

theorem tick_eq (d : Way) (f : Feed d.Item d.Event) :
    Worker.tick f = (f.tick d.work).map some id := by
  cases d <;> rfl

theorem load_eq (d : Way) (f : Feed d.Item d.Event) : Worker.load f = f.queue.size := by
  cases d <;> rfl

theorem lane_setLane (d : Way) (a : Lane (Feed d.Item d.Event)) (s : Station) :
    d.lane (d.setLane a s) = a := by
  cases d <;> rfl

/-- To start a loop of a way is to start it in the lane of that way. -/
theorem start_eq (d : Way) (wait : Nat) (s : Station) :
    d.start wait s = ((d.lane s).start wait).map (d.setLane · s) := by
  cases d with
  | outbound =>
    show s.startOutbound wait = (s.outbound.start wait).map _
    rw [startOutbound]
    cases s.outbound.start wait <;> rfl
  | inbound =>
    show s.startInbound wait = (s.inbound.start wait).map _
    rw [startInbound]
    cases s.inbound.start wait <;> rfl

theorem start_eq_ok_iff {d : Way} {wait : Nat} {s t : Station} :
    d.start wait s = .ok t ↔ (∀ l, (d.lane s).current = some l → l.isOver = true) ∧
      t = d.setLane ((d.lane s).launch wait) s := by
  rw [d.start_eq]
  cases h : (d.lane s).start wait with
  | ok b =>
    obtain ⟨hover, rfl⟩ := Lane.start_eq_ok_iff.1 h
    rw [Except.map, Except.ok.injEq, eq_comm, and_iff_right hover]
  | error e =>
    simp only [Except.map, reduceCtorEq, false_iff]
    exact fun ⟨hover, _⟩ => by cases h.symm.trans (Lane.start_eq_ok_iff.2 ⟨hover, rfl⟩)

theorem start_eq_error_iff {d : Way} {wait : Nat} {s : Station} {e : LoopError} :
    d.start wait s = .error e ↔ (d.lane s).start wait = .error e := by
  rw [d.start_eq]
  cases (d.lane s).start wait <;> simp [Except.map]

theorem step_startAct (d : Way) (wait : Nat) (s : Station) :
    machine.step (d.startAct wait) s = (d.start wait s).toOption.getD s := by
  cases d <;> rfl

theorem lane_check (d : Way) (now i : Nat) (s : Station) :
    d.lane (machine.step (d.checkAct now i) s) = (d.lane s).checkAt now i := by
  cases d <;> rfl

theorem lane_tick (d : Way) (i : Nat) (s : Station) :
    d.lane (machine.step (d.tickAct i) s) = (d.lane s).tickAt i := by
  cases d <;> rfl

/-- A station at rest has no loops. -/
theorem lane_create (d : Way) (c : Cadence) : d.lane (create c) = { worker := {} } := by
  cases d <;> rfl

/-! ### The loop that was started last -/

section Run

variable (d : Way) (c : Cadence) (acts : List Act)

theorem slot_run : (d.lane (machine.run acts (create c))).slot =
    Lane.lastStarted (machine.log d.note acts (create c)) :=
  Lane.slot_view d.onLane acts (congrArg Lane.slot (d.lane_create c))

/-- The loop in charge is the one that was started last, unless there was a shutdown since. -/
theorem current_run : (d.lane (machine.run acts (create c))).current =
    d.lastLoop? (machine.log d.note acts (create c)) (machine.run acts (create c)) := by
  rw [Lane.current, d.slot_run]
  rfl

/-- The loop that was started last is there. -/
theorem lastLoop?_eq_none_iff :
    d.lastLoop? (machine.log d.note acts (create c)) (machine.run acts (create c)) = none ↔
      Lane.lastStarted (machine.log d.note acts (create c)) = none := by
  have hrest : (d.onLane.view (create c)).SlotFilled := by
    rw [show d.onLane.view (create c) = { worker := {} } from d.lane_create c]
    exact fun i hi => by cases hi
  have hfilled : (d.lane (machine.run acts (create c))).SlotFilled :=
    d.onLane.view_run_preserves (fun act _ h => h.step act) acts hrest
  rw [lastLoop?]
  cases hlast : Lane.lastStarted (machine.log d.note acts (create c)) with
  | none => exact ⟨fun _ => rfl, fun _ => rfl⟩
  | some i =>
    have hlt := hfilled i ((d.slot_run c acts).trans hlast)
    simp [hlt]

end Run

/-! ### Calls that start a loop -/

/-- A loop of a way was started: it goes on, was not asked to stop, and ticks on what the lane
    held before. Nothing else has changed. -/
structure Launched (d : Way) (wait : Nat) (s t : Station) : Prop where
  eq : t = d.setLane ((d.lane s).launch wait) s
  step : machine.step (d.startAct wait) s = t
  current : ∃ l, (d.lane t).current = some l ∧ l.isOver = false ∧ l.stopping = false
  drains (now : Nat) :
    (d.lane (machine.run
      [d.checkAct now (d.lane s).loops.length, d.tickAct (d.lane s).loops.length] t)).worker =
        (Worker.tick (d.lane s).worker).2

theorem launched_of_start {d : Way} {wait : Nat} {s t : Station} (h : d.start wait s = .ok t) :
    d.Launched wait s t := by
  obtain ⟨-, rfl⟩ := start_eq_ok_iff.1 h
  have hnew : ((d.lane s).launch wait).loops[(d.lane s).loops.length]? = some (.started wait) :=
    List.getElem?_concat_length
  refine ⟨rfl, ?_, ⟨.started wait, ?_, rfl, rfl⟩, fun now => ?_⟩
  · rw [d.step_startAct, h]
    rfl
  · rw [d.lane_setLane]
    exact Lane.current_eq_some rfl hnew
  · -- The new loop looks, finds no reason to stop, and ticks.
    have hchecked : (((d.lane s).launch wait).checkAt now (d.lane s).loops.length).loops[
        (d.lane s).loops.length]? = some ((PollLoop.started wait).check now) := by
      rw [Lane.checkAt, Lane.update, List.getElem?_modify_eq, hnew]
      rfl
    rw [machine.run_cons, machine.run_cons, machine.run_nil, d.lane_tick, d.lane_check,
      d.lane_setLane, Lane.tickAt_of_isWaiting hchecked rfl]
    rfl

/-- How a call that starts a loop of a way comes out, given what was noted so far. -/
structure Decided (d : Way) (notes : List Lane.Note) (s : Station) : Prop where
  starts_iff (wait : Nat) : (∃ t, d.start wait s = .ok t) ↔
    Lane.lastStarted notes = none ∨ ∃ l, d.lastLoop? notes s = some l ∧ l.isOver = true
  stopping_iff (wait : Nat) : d.start wait s = .error (.stopping d.name) ↔
    ∃ l, d.lastLoop? notes s = some l ∧ l.isOver = false ∧ l.stopping = true
  alreadyRunning_iff (wait : Nat) : d.start wait s = .error (.alreadyRunning d.name) ↔
    ∃ l, d.lastLoop? notes s = some l ∧ l.isOver = false ∧ l.stopping = false
  isRunning_iff (wait : Nat) :
    (d.lane s).isRunning = true ↔ d.start wait s = .error (.alreadyRunning d.name)
  launched {wait : Nat} {t : Station} (h : d.start wait s = .ok t) : d.Launched wait s t
  unchanged {wait : Nat} {e : LoopError} (h : d.start wait s = .error e) :
    machine.step (d.startAct wait) s = s

theorem decided_run (d : Way) (c : Cadence) (acts : List Act) :
    d.Decided (machine.log d.note acts (create c)) (machine.run acts (create c)) := by
  have hcurrent := d.current_run c acts
  constructor
  case starts_iff =>
    intro wait
    rw [← d.lastLoop?_eq_none_iff, ← hcurrent]
    simp only [start_eq_ok_iff, exists_and_left, exists_eq, and_true]
    cases (d.lane (machine.run acts (create c))).current <;> simp
  case stopping_iff =>
    intro wait
    rw [start_eq_error_iff, ← d.name_worker, Lane.start_eq_stopping_iff, hcurrent]
  case alreadyRunning_iff =>
    intro wait
    rw [start_eq_error_iff, ← d.name_worker, Lane.start_eq_alreadyRunning_iff, Lane.isRunning_iff,
      hcurrent]
  case isRunning_iff =>
    intro wait
    rw [start_eq_error_iff, ← d.name_worker, Lane.start_eq_alreadyRunning_iff]
  case launched => exact launched_of_start
  case unchanged =>
    intro wait e h
    rw [d.step_startAct, h]
    rfl

end Way

/-! ### The call that starts both loops -/

/-- No action changes the cadence of a station. -/
theorem cadence_step (act : Act) (s : Station) : (machine.step act s).cadence = s.cadence := by
  cases act with
  | startOutbound wait => exact (congrArg cadence (s.startOutbound_getD wait)).trans rfl
  | startInbound wait => exact (congrArg cadence (s.startInbound_getD wait)).trans rfl
  | start => exact (congrArg cadence s.start_snd).trans rfl
  | _ => rfl

theorem cadence_run (c : Cadence) (acts : List Act) :
    (machine.run acts (create c)).cadence = c.limited :=
  machine.run_preserves (P := fun s => s.cadence = c.limited)
    (fun act s h => (cadence_step act s).trans h) acts rfl

/-- Starting the outbound loop has no part in whether the inbound one can be started. -/
theorem startInbound_of_startOutbound {wait wait' : Nat} {s t : Station}
    (h : s.startOutbound wait = .ok t) :
    t.startInbound wait' = (s.startInbound wait').map fun u => { t with inbound := u.inbound } := by
  obtain ⟨-, rfl⟩ := Way.start_eq_ok_iff (d := .outbound).1 h
  show Way.inbound.start wait' _ = (Way.inbound.start wait' s).map _
  rw [Way.start_eq, Way.start_eq]
  show (s.inbound.start wait').map _ = ((s.inbound.start wait').map _).map _
  cases s.inbound.start wait' <;> rfl

/-- How the call that starts both loops comes out: it is one call after the other. -/
structure StartsBoth (c : Cadence) (s : Station) : Prop where
  inTurn : s.start =
    match s.startOutbound c.limited.outbound.toMillis with
    | .error e => (.error e, s)
    | .ok t =>
      match t.startInbound c.limited.inbound.toMillis with
      | .error e => (.error e, t)
      | .ok u => (.ok (), u)
  outboundRefused {e : LoopError}
    (hout : s.startOutbound c.limited.outbound.toMillis = .error e) : s.start = (.error e, s)
  inboundRefused {t : Station} {e : LoopError}
    (hout : s.startOutbound c.limited.outbound.toMillis = .ok t)
    (hin : s.startInbound c.limited.inbound.toMillis = .error e) : s.start = (.error e, t)
  bothStarted {t u : Station}
    (hout : s.startOutbound c.limited.outbound.toMillis = .ok t)
    (hin : s.startInbound c.limited.inbound.toMillis = .ok u) :
    s.start = (.ok (), { t with inbound := u.inbound })

theorem startsBoth_run (c : Cadence) (acts : List Act) :
    StartsBoth c (machine.run acts (create c)) := by
  have hcadence := cadence_run c acts
  generalize machine.run acts (create c) = s at hcadence
  have hinTurn : s.start =
      match s.startOutbound c.limited.outbound.toMillis with
      | .error e => (.error e, s)
      | .ok t =>
        match t.startInbound c.limited.inbound.toMillis with
        | .error e => (.error e, t)
        | .ok u => (.ok (), u) := by
    rw [start, hcadence]
    cases hout : s.startOutbound c.limited.outbound.toMillis with
    | error e => rfl
    | ok t =>
      obtain ⟨-, rfl⟩ := Way.start_eq_ok_iff (d := .outbound).1 hout
      exact hcadence ▸ rfl
  refine ⟨hinTurn, fun hout => ?_, fun hout hin => ?_, fun hout hin => ?_⟩
  · rw [hinTurn, hout]
  · rw [hinTurn, hout]
    dsimp only
    rw [startInbound_of_startOutbound hout, hin]
    rfl
  · rw [hinTurn, hout]
    dsimp only
    rw [startInbound_of_startOutbound hout, hin]
    rfl

/-- Whether a loop of one way can be started is decided by the loop of that way that was started
    last, whatever has happened to the station; a call that is refused changes nothing, and the
    call that starts both loops is one call after the other. -/
theorem start_decided (c : Cadence) (acts : List Act) :
    (∀ d : Way, d.Decided (machine.log d.note acts (create c)) (machine.run acts (create c))) ∧
      StartsBoth c (machine.run acts (create c)) :=
  ⟨fun d => d.decided_run c acts, startsBoth_run c acts⟩

end Station

end GridRobot
