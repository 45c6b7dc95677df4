import GridRobot.Session.Connection

/-!
# Sessions

A session is a station with its connections and a clock that counts
milliseconds. Time passes only when the session is told to let it pass, so that
all that happens is determined.

The session is *settled* when nothing more can happen without time passing: the
loops that were started have looked whether they should stop, the bridges and
robots have passed everything on, and the loops without a wait have emptied
their queues. When a millisecond passes, first all loops that are due tick, then
the session settles.

At most one connection is current. One that is replaced is let go at both ends,
but what is left of it goes on.
-/

namespace GridRobot

/-- A station, its connections and a clock. -/
structure Session where
  now : Nat := 0
  station : Station := default
  /-- The connections that were replaced, oldest first. -/
  retired : List Connection := []
  current : Option Connection := none
  /-- The number that the next link gets. -/
  nextLink : Nat := 1

namespace Session

/-- A session with a station of the given cadence. -/
def create (c : Cadence) : Session := { station := .create c }

/-- Does `f` with the station. -/
def update (f : Station → Station) (s : Session) : Session := { s with station := f s.station }

/-! ### Time -/

/-- Each of the connections passes everything on. -/
def relayEach : List Connection → Station → List Connection × Station
  | [], s => ([], s)
  | c :: cs, s =>
    let (c, s) := c.relay s
    let (cs, s) := relayEach cs s
    (c :: cs, s)

/-- The bridges and robots pass everything on. -/
def relay (s : Session) : Session :=
  let (retired, station) := relayEach s.retired s.station
  match s.current with
  | none => { s with retired, station }
  | some c =>
    let (c, station) := c.relay station
    { s with retired, station, current := some c }

/-- The loops without a wait tick; then everything is passed on. -/
def round (s : Session) : Session := (s.update (·.spin s.now)).relay

/-- Lets everything happen that needs no time. The first rounds empty the outbound queue, after
    which nothing new arrives; the others empty the inbound queue. -/
def settle (s : Session) : Session :=
  let s := (s.update (·.checkAll s.now)).relay
  let s := s.station.outbound.rounds.repeat round s
  s.station.inbound.rounds.repeat round s

/-- One millisecond passes. -/
def passMilli (s : Session) : Session :=
  let s := { s with now := s.now + 1 }
  (s.update (·.fireDue s.now)).settle

/-- `n` milliseconds pass, starting from a settled state; those in which no loop is due are
    passed at once. -/
def run (n : Nat) (s : Session) : Session :=
  match n with
  | 0 => s
  | n + 1 =>
    let quiet := s.station.quietFor s.now n
    run (n - quiet) (passMilli { s with now := s.now + quiet })
termination_by n

/-- `n` milliseconds pass, starting from any state. -/
def advance (n : Nat) (s : Session) : Session := run n s.settle

/-! Settling takes no time, and letting `n` milliseconds pass takes `n` of them. -/

theorem now_relay (s : Session) : s.relay.now = s.now := by
  unfold relay
  cases s.current <;> rfl

theorem now_round (s : Session) : s.round.now = s.now := now_relay _

theorem now_repeat_round (n : Nat) (s : Session) : (n.repeat round s).now = s.now := by
  induction n with
  | zero => rfl
  | succ n ih => exact (now_round _).trans ih

theorem now_settle (s : Session) : s.settle.now = s.now := by
  unfold settle
  rw [now_repeat_round, now_repeat_round, now_relay]
  rfl

theorem now_passMilli (s : Session) : s.passMilli.now = s.now + 1 := now_settle _

theorem now_run (n : Nat) (s : Session) : (run n s).now = s.now + n := by
  fun_induction run n s with
  | case1 s => rfl
  | case2 s n quiet ih =>
    have hq : quiet ≤ n := s.station.quietFor_le s.now n
    rw [ih, now_passMilli]
    simp only
    omega

theorem now_advance (n : Nat) (s : Session) : (s.advance n).now = s.now + n :=
  (now_run n s.settle).trans (by rw [now_settle])

/-! ### Calls on the station -/

/-- Does `f` with the station, unless that fails. -/
def tryUpdate (f : Station → Except LoopError Station) (s : Session) :
    Except LoopError Unit × Session :=
  match f s.station with
  | .ok station => (.ok (), { s with station })
  | .error e => (.error e, s)

/-- Starts both loops of the station. -/
def start (s : Session) : Except LoopError Unit × Session :=
  let (result, station) := s.station.start
  (result, { s with station })

/-- Shuts the loops down and waits for their end. -/
def shutdown (s : Session) : Option (Except LoopError ShutdownReport) × Session :=
  let (p, station) := s.station.beginShutdown
  let s := settle { s with station }
  let s := s.run (s.station.timeToStop s.now)
  (s.station.finishShutdown? p, s)

/-! ### Calls on the connection -/

/-- Lets go of the current connection, and makes a new one. -/
def connect (plan : LinkPlan) (s : Session) : Session :=
  let (c, station) := Connection.establish s.nextLink plan s.station
  { s with
    station
    retired := s.retired ++ (s.current.map Connection.abandon).toList
    current := some c
    nextLink := s.nextLink + plan.identities }

/-- The bridge that somebody holds. -/
def bridge? (s : Session) : Option (Bridge AnyLink) :=
  match s.current with
  | some c => if c.bridge.held then some c.bridge else none
  | none => none

/-- Does `f` with the current connection. -/
def updateCurrent (f : Connection → Connection) (s : Session) : Session :=
  { s with current := s.current.map f }

/-- Closes the bridge, if there is one: its writer sends what has been published, then the link
    is closed. -/
def closeBridge (s : Session) : Option (Except LinkError Unit) × Session :=
  match s.bridge? with
  | none => (none, s)
  | some _ =>
    let s := (s.updateCurrent fun c => { c with bridge := c.bridge.requestClose }).relay
    match s.current with
    | none => (none, s)
    | some c =>
      let (result, bridge) := c.bridge.close
      (some result, { s with current := some { c with bridge := bridge.releaseUnused } })

/-- Lets go of the bridge; the far end stays. -/
def dropBridge (s : Session) : Session :=
  s.updateCurrent fun c => { c with bridge := c.bridge.abandon }

/-- Does `f` at the far end of the current connection. -/
def atFarEnd {α : Type} (f : Connection → Except FarError α × Connection) (s : Session) :
    Except FarError α × Session :=
  match s.current with
  | some c =>
    let (result, c) := f c
    (result, { s with current := some c })
  | none => (.error .absent, s)

end Session

end GridRobot
