import GridRobot.Link.Basic

/-!
# Loopback links

Two ends in one process. A token sent at one end arrives at the other, in order
and unchanged. Each direction is closed for itself: an end that has been closed
still receives, and an end that has been dropped neither sends nor receives, so
that its peer finds nobody to send to, and no more tokens after those on their
way.
-/

namespace GridRobot

/-- One of the two ends. -/
inductive Side
  | near
  | far
  deriving DecidableEq

/-- The opposite end. -/
def Side.other : Side → Side
  | near => far
  | far => near

/-- Whether an end can still be used. -/
inductive Standing
  | active
  /-- The end no longer sends. -/
  | closed
  | dropped
  deriving DecidableEq

/-- One end of a loopback link. -/
structure Endpoint where
  id : LinkId
  standing : Standing := .active
  /-- The tokens on their way to this end, oldest first. -/
  arriving : List Token := []
  deriving DecidableEq

/-- A loopback link with its two ends. -/
structure Loopback where
  near : Endpoint
  far : Endpoint
  deriving DecidableEq

namespace Loopback

/-- A fresh link; the near end has the number `n`, the far end the next one. -/
def pair (n : Nat) : Loopback := ⟨{ id := ⟨n⟩ }, { id := ⟨n + 1⟩ }⟩

/-- The endpoint at a side. -/
def endpoint (l : Loopback) : Side → Endpoint
  | .near => l.near
  | .far => l.far

/-- Does `f` with the endpoint at side `s`. -/
def update (s : Side) (f : Endpoint → Endpoint) (l : Loopback) : Loopback :=
  match s with
  | .near => { l with near := f l.near }
  | .far => { l with far := f l.far }

@[simp] theorem endpoint_update_self (s : Side) (f : Endpoint → Endpoint) (l : Loopback) :
    (l.update s f).endpoint s = f (l.endpoint s) := by
  cases s <;> rfl

@[simp] theorem endpoint_update_other (s : Side) (f : Endpoint → Endpoint) (l : Loopback) :
    (l.update s f).endpoint s.other = l.endpoint s.other := by
  cases s <;> rfl

/-- Sends a token at end `s`. -/
def send (s : Side) (t : Token) (l : Loopback) : Except LinkError Unit × Loopback :=
  if (l.endpoint s).standing ≠ .active then (.error (.closedHere (l.endpoint s).id), l)
  else if (l.endpoint s.other).standing = .dropped then
    (.error (.peerGone (l.endpoint s).id), l)
  else (.ok (), l.update s.other fun e => { e with arriving := e.arriving ++ [t] })

/-- Looks for a token at end `s`. -/
def receive (s : Side) (l : Loopback) : Arrival × Loopback :=
  match (l.endpoint s).arriving with
  | t :: rest => (.token t, l.update s fun e => { e with arriving := rest })
  | [] => (if (l.endpoint s.other).standing = .active then .pending else .ended, l)

/-- End `s` takes all tokens that have arrived, and learns whether no more will. -/
def drain (s : Side) (l : Loopback) : List Token × Bool × Loopback :=
  ((l.endpoint s).arriving, (l.endpoint s.other).standing ≠ .active,
    l.update s fun e => { e with arriving := [] })

/-- Ends what end `s` sends. -/
def close (s : Side) (l : Loopback) : Loopback :=
  l.update s fun e => if e.standing = .active then { e with standing := .closed } else e

/-- Lets go of end `s`; the tokens on their way to it are lost. -/
def drop (s : Side) (l : Loopback) : Loopback :=
  l.update s fun e => { e with standing := .dropped, arriving := [] }

instance : Link Loopback where
  id l := l.near.id
  send := send .near
  receive := receive .near
  close l := (.ok (), l.close .near)
  release := drop .near
  backlog l := l.near.arriving.length + 1

end Loopback

end GridRobot
