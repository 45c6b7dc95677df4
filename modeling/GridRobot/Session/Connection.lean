import GridRobot.Link.Line
import GridRobot.Link.Loopback
import GridRobot.Link.Scripted
import GridRobot.Robot
import GridRobot.Station.Bridge

/-!
# Connections

A connection is a bridge together with what is at the other end of its link: a
tester who holds the far end of a loopback link or of a pipe, a simulated robot,
or nobody, for a scripted link. The far end is held for itself: it may outlive
the bridge, and it may be let go before it. Letting go stops nothing that goes
on by itself: neither the tasks of a bridge nor a robot.
-/

namespace GridRobot

/-- A link of one of three sorts. -/
inductive AnyLink
  | loopback (l : Loopback)
  | line (l : LineLink)
  | scripted (l : ScriptedLink)

namespace AnyLink

/-- Sends over the link, of whatever sort it is. -/
def send (t : Token) : AnyLink → Except LinkError Unit × AnyLink
  | loopback l => (Link.send t l).map id loopback
  | line l => (Link.send t l).map id line
  | scripted l => (Link.send t l).map id scripted

/-- Looks at the link, of whatever sort it is. -/
def receive : AnyLink → Arrival × AnyLink
  | loopback l => (Link.receive l).map id loopback
  | line l => (Link.receive l).map id line
  | scripted l => (Link.receive l).map id scripted

/-- Closes the link, of whatever sort it is. -/
def close : AnyLink → Except LinkError Unit × AnyLink
  | loopback l => (Link.close l).map id loopback
  | line l => (Link.close l).map id line
  | scripted l => (Link.close l).map id scripted

instance : Link AnyLink where
  id
    | loopback l => Link.id l
    | line l => Link.id l
    | scripted l => Link.id l
  send := send
  receive := receive
  close := close
  release
    | loopback l => loopback (Link.release l)
    | line l => line (Link.release l)
    | scripted l => scripted (Link.release l)
  backlog
    | loopback l => Link.backlog l
    | line l => Link.backlog l
    | scripted l => Link.backlog l

end AnyLink

/-- What to connect a station with. -/
inductive LinkPlan
  | loopback
  | line
  /-- A robot, at the far end of a loopback link. -/
  | robot (position : Point)
  | scripted (l : ScriptedLink)

namespace LinkPlan

/-- The number of identities that a link takes. -/
def identities : LinkPlan → Nat
  | loopback | robot _ => 2
  | line => 1
  | scripted _ => 0

/-- The link, whose identities are counted from `n`. -/
def link (n : Nat) : LinkPlan → AnyLink
  | loopback | robot _ => .loopback (.pair n)
  | line => .line (.pipe ⟨n⟩)
  | scripted l => .scripted l

/-- The robot at the far end, if there is to be one. -/
def robot? : LinkPlan → Option Robot
  | robot position => some { position }
  | _ => none

end LinkPlan

/-- A bridge and what is at the other end of its link. -/
structure Connection where
  bridge : Bridge AnyLink
  robot : Option Robot := none
  /-- Somebody holds the far end. -/
  farHeld : Bool := true

/-- What is seen at the far end of a link. -/
inductive FarView
  /-- The tokens that have arrived, and whether no more will. -/
  | tokens (ts : List Token) (complete : Bool)
  /-- The bytes that have arrived, and whether no more will. -/
  | bytes (bytes : List UInt8) (complete : Bool)
  /-- The result of the robot there, once it is over. -/
  | robot (result : Option (Except Failure Unit))
  /-- All tokens that a scripted link took. -/
  | sent (ts : List Token)

/-- Why nothing can be sent from the far end. -/
inductive FarError
  /-- There is no far end to send from. -/
  | absent
  | refused (e : LinkError)
  /-- The pipe has been closed. -/
  | brokenPipe

namespace Connection

/-- Connects a station; the identities of the link are counted from `n`. -/
def establish (n : Nat) (plan : LinkPlan) (s : Station) : Connection × Station :=
  let (bridge, s) := Bridge.spawn (plan.link n) s
  ({ bridge, robot := plan.robot? }, s)

/-- The connection after its link has changed. -/
def withLink (link : AnyLink) (c : Connection) : Connection :=
  { c with bridge := { c.bridge with link } }

/-! ### Steps -/

/-- The robot, if there is one, goes on until it has to wait or is over. -/
def runRobot (c : Connection) : Connection :=
  match c.robot, c.bridge.link with
  | some r, .loopback l =>
    let (r, l) := r.run l
    { c.withLink (.loopback l) with robot := some r }
  | _, _ => c

/-- Does a step of the bridge. -/
def stepBridge (f : Bridge AnyLink → Station → Bridge AnyLink × Station) (c : Connection)
    (s : Station) : Connection × Station :=
  let (bridge, s) := f c.bridge s
  ({ c with bridge }, s)

/-- All goes on that can: what was published reaches the robot, and its answers the station. -/
def relay (c : Connection) (s : Station) : Connection × Station :=
  let (c, s) := c.stepBridge Bridge.runWriter s
  let (c, s) := c.runRobot.stepBridge Bridge.runReader s
  (({ c with bridge := c.bridge.releaseUnused }).runRobot, s)

/-! ### The far end -/

/-- Sends bytes from the far end. -/
def sendFar (bytes : List UInt8) (c : Connection) : Except FarError Unit × Connection :=
  match c.farHeld, c.robot, c.bridge.link with
  | true, none, .loopback l =>
    let (result, l) := l.send .far bytes
    (result.mapError .refused, c.withLink (.loopback l))
  | true, none, .line l =>
    match l.feed bytes with
    | .ok l => (.ok (), c.withLink (.line l))
    | .error () => (.error .brokenPipe, c)
  | _, _, _ => (.error .absent, c)

/-- Ends what the far end sends. -/
def closeFar (c : Connection) : Except FarError Unit × Connection :=
  match c.farHeld, c.robot, c.bridge.link with
  | true, none, .loopback l => (.ok (), c.withLink (.loopback (l.close .far)))
  | true, none, .line l => (.ok (), c.withLink (.line l.endFeed))
  | _, _, _ => (.error .absent, c)

/-- Takes what has arrived at the far end. The result of a robot can be taken once; then there
    is no far end any more. -/
def lookFar (c : Connection) : Except FarError FarView × Connection :=
  match c.farHeld, c.robot, c.bridge.link with
  | false, _, _ => (.error .absent, c)
  | true, some r, _ => (.ok (.robot r.result?), { c with farHeld := r.result?.isNone })
  | true, none, .loopback l =>
    let (ts, complete, l) := l.drain .far
    (.ok (.tokens ts complete), c.withLink (.loopback l))
  | true, none, .line l =>
    let (bytes, complete, l) := l.collect
    (.ok (.bytes bytes complete), c.withLink (.line l))
  | true, none, .scripted l => (.ok (.sent l.sent), c)

/-- Lets go of the far end; a robot there goes on by itself. -/
def dropFar (c : Connection) : Connection :=
  let c := { c with farHeld := false }
  match c.robot, c.bridge.link with
  | none, .loopback l => c.withLink (.loopback (l.drop .far))
  | none, .line l => c.withLink (.line l.hangUp)
  | _, _ => c

/-- Lets go of both ends. -/
def abandon (c : Connection) : Connection := { c.dropFar with bridge := c.dropFar.bridge.abandon }

end Connection

end GridRobot
