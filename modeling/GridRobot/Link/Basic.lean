/-!
# Links

A link carries tokens of bytes between the controller and the robot. It has an
identity, takes tokens to send, is looked at for tokens that have arrived, and
can be closed; closing ends what is sent, not what arrives.

`Link` says what the rest of the library needs of a link. Operations give the
link after them along with their outcome.
-/

namespace GridRobot

/-- The bytes of one token. -/
abbrev Token := List UInt8

/-- The identity of a link: a number. -/
structure LinkId where
  number : Nat
  deriving DecidableEq, Inhabited

/-- How an identity is shown. -/
def LinkId.render (id : LinkId) : String := "link-" ++ toString id.number

/-- Why a link refuses or fails. -/
inductive LinkError
  /-- This end of the link was closed. -/
  | closedHere (id : LinkId)
  /-- The other end of the link is gone. -/
  | peerGone (id : LinkId)
  /-- The link was closed, for a reason of its own. -/
  | closed (reason : String)
  /-- A task that serves the link broke down. -/
  | taskFailed
  /-- The token holds the byte that ends tokens. -/
  | lineBreak
  | sendFailed (fault : String)
  | receiveFailed (fault : String)
  deriving DecidableEq

namespace LinkError

/-- Whether a link is closed, or failed to send or to receive. -/
inductive Category
  | closed
  | send
  | receive
  deriving DecidableEq

/-- The category of an error; a task that broke down counts as a closed link. -/
def category : LinkError → Category
  | closedHere _ | peerGone _ | closed _ | taskFailed => .closed
  | lineBreak | sendFailed _ => .send
  | receiveFailed _ => .receive

/-- The text shown for an error. -/
def message : LinkError → String
  | closedHere id => "link closed: " ++ id.render ++ " was closed"
  | peerGone id => "link closed: peer of " ++ id.render ++ " is gone"
  | closed reason => "link closed: " ++ reason
  | taskFailed => "link closed: bridge task failed"
  | lineBreak => "send failed: token contains a newline"
  | sendFailed fault => "send failed: " ++ fault
  | receiveFailed fault => "receive failed: " ++ fault

end LinkError

/-- What a look at a link finds. -/
inductive Arrival
  | token (t : Token)
  /-- No token will arrive any more. -/
  | ended
  /-- No token has arrived yet. -/
  | pending
  | failed (e : LinkError)
  /-- The link broke down and took whoever looked with it. -/
  | crashed
  deriving DecidableEq

/-- A link as it is seen by its user. -/
class Link (σ : Type) where
  id : σ → LinkId
  send : Token → σ → Except LinkError Unit × σ
  receive : σ → Arrival × σ
  close : σ → Except LinkError Unit × σ
  /-- Nobody uses the link any more. -/
  release : σ → σ
  /-- At least the number of looks that find something, up to the end of what arrives. -/
  backlog : σ → Nat

end GridRobot
