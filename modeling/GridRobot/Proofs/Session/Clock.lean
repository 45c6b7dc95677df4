import GridRobot.Proofs.Lane.Clock
import GridRobot.Proofs.Session.Run

/-!
# The lanes of a session in time

What happens to a lane in a run of a session is a run of the lane with its clock
(`Session.onClock`): the loops look, spin and tick when the session lets them,
and the other calls on the lane come from its users and from the bridges. So
each run of a session has its beats (`Session.beats`).
-/

namespace GridRobot

namespace Session

variable (d : Station.Way)

/-- The lane of a way, and the time. -/
def clock (s : Session) : Lane.Clock d.Item d.Event := ⟨s.now, d.lane s.station⟩

/-! ### What happens while a session goes on by itself -/

/-- What happens to the lane while some things are done to the station. -/
def callMoves (acts : List Station.Act) (s : Session) : List (Lane.Move d.Item) :=
  (Station.machine.log d.onLane.acts acts s.station).map .call

theorem callMoves_singleton (act : Station.Act) (s : Session) :
    callMoves d [act] s = (d.onLane.acts act s.station).map .call := by
  rw [callMoves, Machine.log_cons, Machine.log_nil, List.append_nil]

/-- What happens to the lane while everything is passed on. -/
def relayMoves (s : Session) : List (Lane.Move d.Item) := callMoves d s.relayActs s

/-- What happens to the lane in one round: its loops without a wait tick, then everything is passed
    on. -/
def roundMoves (s : Session) : List (Lane.Move d.Item) :=
  .spin :: relayMoves d (s.update (·.spin s.now))

/-- What happens to the lane in several rounds. -/
def roundsMoves (n : Nat) (s : Session) : List (Lane.Move d.Item) :=
  Machine.repeatActs round (roundMoves d) n s

/-- The session has looked which loops should stop, and everything was passed on. -/
def looked (s : Session) : Session := (s.update (·.checkAll s.now)).relay

/-- The session after the rounds that empty the outbound queue. -/
def emptied (s : Session) : Session := s.looked.station.outbound.rounds.repeat round s.looked

/-- What happens to the lane while the session settles: its loops look, and the rounds follow that
    empty the two queues. -/
def settleMoves (s : Session) : List (Lane.Move d.Item) :=
  .look :: (relayMoves d (s.update (·.checkAll s.now)) ++
    (roundsMoves d s.looked.station.outbound.rounds s.looked ++
      roundsMoves d s.emptied.station.inbound.rounds s.emptied))

/-- What happens to the lane in one millisecond, up to the next settled state. -/
def passMoves (s : Session) : List (Lane.Move d.Item) := .pass :: settleMoves d s.fired

/-- What happens to the lane in `n` milliseconds; those in which no loop of the session is due are
    idle. -/
def runMoves (n : Nat) (s : Session) : List (Lane.Move d.Item) :=
  match n with
  | 0 => []
  | n + 1 =>
    let quiet := s.station.quietFor s.now n
    .idle quiet :: (passMoves d { s with now := s.now + quiet } ++
      runMoves (n - quiet) (passMilli { s with now := s.now + quiet }))
termination_by n

section

open Lane

variable {d}

theorem clock_calls {acts : List Station.Act} {s t : Session} (hnow : t.now = s.now)
    (hstation : t.station = Station.machine.run acts s.station) :
    clock d t = Clock.machine.run (callMoves d acts s) (clock d s) := by
  have hlane : d.lane t.station = _ := hstation ▸ d.onLane.view_run acts s.station
  rw [callMoves, Clock.run_call, clock, hnow, hlane]
  rfl

theorem clock_checkAll (s : Session) :
    clock d (s.update (·.checkAll s.now)) = Clock.machine.step .look (clock d s) := by
  cases d <;> rfl

theorem clock_spin (s : Session) :
    clock d (s.update (·.spin s.now)) = Clock.machine.step .spin (clock d s) := by
  cases d <;> rfl

theorem clock_fired (s : Session) : clock d s.fired = Clock.machine.step .pass (clock d s) := by
  cases d <;> rfl

theorem clock_beginShutdown (s : Session) :
    clock d { s with station := s.station.beginShutdown.2 } =
      Clock.machine.step (.call .detach) (clock d s) :=
  congrArg (Clock.mk s.now) (d.lane_beginShutdown s.station)

theorem clock_relay (s : Session) :
    clock d s.relay = Clock.machine.run (relayMoves d s) (clock d s) :=
  clock_calls s.now_relay s.station_relay

theorem clock_round (s : Session) :
    clock d s.round = Clock.machine.run (roundMoves d s) (clock d s) := by
  rw [roundMoves, Machine.run_cons, ← clock_spin]
  exact clock_relay _

theorem clock_rounds (n : Nat) (s : Session) :
    clock d (n.repeat round s) = Clock.machine.run (roundsMoves d n s) (clock d s) :=
  Clock.machine.run_repeatActs (clock d) clock_round n s

theorem clock_settle (s : Session) :
    clock d s.settle = Clock.machine.run (settleMoves d s) (clock d s) := by
  rw [settleMoves, Machine.run_cons, Machine.run_append, Machine.run_append, ← clock_checkAll,
    ← clock_relay]
  show _ = Clock.machine.run _ (Clock.machine.run _ (clock d s.looked))
  rw [← clock_rounds, ← emptied, ← clock_rounds]
  rfl

theorem clock_passMilli (s : Session) :
    clock d s.passMilli = Clock.machine.run (passMoves d s) (clock d s) := by
  rw [passMoves, Machine.run_cons, ← clock_fired]
  exact clock_settle s.fired

theorem clock_run (n : Nat) (s : Session) :
    clock d (run n s) = Clock.machine.run (runMoves d n s) (clock d s) := by
  fun_induction run n s with
  | case1 s =>
    rw [runMoves]
    rfl
  | case2 s n quiet ih =>
    rw [runMoves, Machine.run_cons, Machine.run_append, ih, clock_passMilli]
    rfl

end

/-! ### What happens in a run of a session -/

/-- What happens to the lane while something is done with the current connection. -/
def handleMoves : Handling → Session → List (Lane.Move d.Item)
  | .closeBridge, s =>
    match s.bridge? with
    | none => []
    | some _ =>
      relayMoves d (s.updateCurrent fun c => { c with bridge := c.bridge.requestClose })
  | _, _ => []

variable {d} in
theorem clock_handle (h : Handling) (s : Session) :
    clock d (s.handle h) = Lane.Clock.machine.run (handleMoves d h s) (clock d s) := by
  have hfar : ∀ {α : Type} (f : Connection → Except FarError α × Connection),
      clock d (s.atFarEnd f).2 = clock d s := by
    intro α f
    rw [clock, (frame_atFarEnd f s).1, (frame_atFarEnd f s).2]
    rfl
  cases h with
  | closeBridge =>
    rw [handle, closeBridge, handleMoves]
    cases s.bridge? with
    | none => rfl
    | some b =>
      have hrelay := clock_relay (d := d)
        (s.updateCurrent fun c => { c with bridge := c.bridge.requestClose })
      refine .trans ?_ hrelay
      dsimp only
      split <;> rfl
  | sendFar bytes => exact hfar _
  | closeFar => exact hfar _
  | lookFar => exact hfar _
  | _ => rfl

/-- What happens to the lane of a way, in time. -/
def onClock : Simulation machine (Lane.Clock.machine : Machine _ (Lane.Clock d.Item d.Event)) where
  view := clock d
  acts
    | .call act _, s => callMoves d [act] s
    | .shutdown, s =>
      -- The shutdown begins, the session settles, and time passes until the loops are over.
      let begun := { s with station := s.station.beginShutdown.2 }
      .call .detach :: (settleMoves d begun ++
        runMoves d (begun.settle.station.timeToStop begun.settle.now) begun.settle)
    | .settle, s => settleMoves d s
    | .advance n, s => settleMoves d s ++ runMoves d n s.settle
    | .connect _, s => callMoves d [.sent .subscribe] s
    | .handle h, s => handleMoves d h s
  view_step act s := by
    cases act with
    | call act hcall => exact clock_calls rfl rfl
    | shutdown =>
      rw [Machine.run_cons, Machine.run_append, ← clock_beginShutdown, ← clock_settle, ← clock_run]
      rfl
    | settle => exact clock_settle s
    | advance n =>
      rw [Machine.run_append, ← clock_settle, ← clock_run]
      rfl
    | connect plan => exact clock_calls rfl rfl
    | handle h => exact clock_handle h s

/-- The beats of the lane of a way with their times. -/
def beats : Act → Session → List (Nat × Lane.Beat d.Item) := (onClock d).see Lane.Clock.timed

variable {d} in
theorem clock_machine_run (acts : List Act) (s : Session) :
    clock d (machine.run acts s) =
      Lane.Clock.machine.run (machine.log (onClock d).acts acts s) (clock d s) :=
  (onClock d).view_run acts s

variable {d} in
theorem log_beats (acts : List Act) (s : Session) :
    machine.log (beats d) acts s =
      Lane.Clock.machine.log Lane.Clock.timed (machine.log (onClock d).acts acts s) (clock d s) :=
  (onClock d).log_see Lane.Clock.timed acts s

end Session

end GridRobot
