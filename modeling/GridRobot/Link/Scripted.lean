import GridRobot.Link.Basic

/-!
# Scripted links

A link that plays back what arrives on it, and takes a given number of tokens
before it fails. It keeps what was sent.
-/

namespace GridRobot

/-- A link that follows a script. -/
structure ScriptedLink where
  /-- What the looks to come find; after that the link is pending. -/
  arrivals : List Arrival := []
  /-- The number of tokens that will still be taken, if there is a limit. -/
  room : Option Nat := none
  sendFault : String := ""
  /-- The reason with which closing is refused, if it is. -/
  closeFault : Option String := none
  /-- The tokens taken, oldest first. -/
  sent : List Token := []
  deriving DecidableEq

namespace ScriptedLink

/-- Takes a token, as long as there is room for it. -/
def send (t : Token) (l : ScriptedLink) : Except LinkError Unit × ScriptedLink :=
  match l.room with
  | some 0 => (.error (.sendFailed l.sendFault), l)
  | room => (.ok (), { l with room := room.map (· - 1), sent := l.sent ++ [t] })

/-- Finds what the script says next. -/
def receive (l : ScriptedLink) : Arrival × ScriptedLink :=
  match l.arrivals with
  | [] => (.pending, l)
  | a :: rest => (a, { l with arrivals := rest })

instance : Link ScriptedLink where
  id _ := ⟨0⟩
  send := send
  receive := receive
  close l :=
    (match l.closeFault with
      | some reason => .error (.closed reason)
      | none => .ok (),
     l)
  release l := l
  backlog l := l.arrivals.length

end ScriptedLink

end GridRobot
