import GridRobot.Failure
import GridRobot.Link.Loopback
import GridRobot.Wire.Bytes

/-!
# A simulated robot

A robot on a grid of ten by ten cells, at the far end of a loopback link. It
announces itself by a change of state, then takes the tokens one by one:

* a movement is answered by the location after it, which for a movement that
  advances is one step further, moved back onto the grid;
* the end of the route is answered by `done`; then the robot closes its end and
  is over;
* any other message is ignored;
* a token that is no message ends the robot with that error, and so does a
  location that cannot be written and a reply that cannot be sent.

When no more tokens will arrive, the robot closes its end and is over. A robot
that is over has let go of its end.
-/

namespace GridRobot

/-- How far a robot has come. -/
inductive Robot.Stage
  /-- The robot has not announced itself. -/
  | starting
  | listening
  | concluded (result : Except Failure Unit)

/-- A robot; its link is kept apart. -/
structure Robot where
  position : Point
  stage : Robot.Stage := .starting

namespace Robot

/-- The corner of the grid away from the origin. -/
def gridCorner : Point := ⟨.ofDigit .max, .ofDigit .max⟩

/-- The position after a movement. -/
def moved (heading : Direction) (motion : Motion) (p : Point) : Point :=
  if motion.moves then (p.step heading).clamp .origin gridCorner else p

/-- The robot ends with a result, and lets go of its end. -/
def conclude (result : Except Failure Unit) (r : Robot) (l : Loopback) : Robot × Loopback :=
  ({ r with stage := .concluded result }, l.drop .far)

/-- The robot closes its end and ends well. -/
def signOff (r : Robot) (l : Loopback) : Robot × Loopback := r.conclude (.ok ()) (l.close .far)

/-- The robot sends a message; if that succeeds, `next` goes on. -/
def reply (m : Message) (r : Robot) (l : Loopback)
    (next : Robot → Loopback → Robot × Loopback) : Robot × Loopback :=
  match l.send .far m.bytes with
  | (.ok (), l) => next r l
  | (.error e, l) => r.conclude (.error (.link e)) l

/-- The robot listens. -/
def listen (r : Robot) (l : Loopback) : Robot × Loopback := ({ r with stage := .listening }, l)

/-- The robot does what a message says. -/
def obey (m : Message) (r : Robot) (l : Loopback) : Robot × Loopback :=
  match m with
  | .movement heading motion =>
    let r := { r with position := moved heading motion r.position }
    match Message.location? r.position with
    | .ok answer => r.reply answer l listen
    | .error e => r.conclude (.error (.message e)) l
  | .finish => r.reply .done l signOff
  | _ => (r, l)

/-- The robot does the next thing it can do, if there is any. -/
def step (r : Robot) (l : Loopback) : Robot × Loopback :=
  match r.stage with
  | .starting => r.reply .stateChange l listen
  | .concluded _ => (r, l)
  | .listening =>
    match l.receive .far with
    | (.token t, l) =>
      match classifyBytes t with
      | .ok m => r.obey m l
      | .error e => r.conclude (.error (.message e)) l
    | (.ended, l) => r.signOff l
    | (.failed e, l) => r.conclude (.error (.link e)) l
    | (.crashed, l) => r.conclude (.error (.link .taskFailed)) l
    | (.pending, l) => (r, l)

/-- The robot goes on until it has to wait or is over: it announces itself, takes the tokens
    that have arrived, and may find that no more will. -/
def run (r : Robot) (l : Loopback) : Robot × Loopback :=
  (l.far.arriving.length + 2).repeat (fun (r, l) => r.step l) (r, l)

/-- The result of a robot that is over. -/
def result? (r : Robot) : Option (Except Failure Unit) :=
  match r.stage with
  | .concluded result => some result
  | _ => none

end Robot

end GridRobot
