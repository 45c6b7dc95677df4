import GridRobot.Handles
import GridRobot.Poll

/-!
# Publishers

A publisher hands every event to all of its subscribers. Each subscription has a
mailbox of its own, so a slow reader holds up nobody.

A subscription that is dropped stays listed until the next event is published;
then the publisher notices and takes it off its list. So the number of listed
subscriptions is that of the live ones and of those dropped since the last
event.
-/

namespace GridRobot

/-- What belongs to one subscription. -/
structure Mailbox (ε : Type) where
  /-- The events not yet read, oldest first. -/
  pending : List ε := []
  /-- The subscription has not been dropped. -/
  attached : Bool := true
  /-- The publisher still counts the subscription. -/
  listed : Bool := true
  deriving DecidableEq

namespace Mailbox

variable {ε : Type}

/-- Hands an event to a subscription, or finds it gone. -/
def deliver (e : ε) (m : Mailbox ε) : Mailbox ε :=
  if m.listed then
    if m.attached then { m with pending := m.pending ++ [e] } else { m with listed := false }
  else m

/-- Drops the subscription; what it has not read is lost. -/
def drop (m : Mailbox ε) : Mailbox ε := { m with pending := [], attached := false }

/-- The mailbox without its oldest event. -/
def rest (m : Mailbox ε) : Mailbox ε := { m with pending := m.pending.tail }

end Mailbox

/-- A publisher with all subscriptions ever made, each under the number of its making. -/
structure Publisher (ε : Type) where
  handles : Handles := {}
  mailboxes : List (Mailbox ε) := []
  deriving DecidableEq

namespace Publisher

variable {ε : Type}

instance : Inhabited (Publisher ε) := ⟨{}⟩

/-- The number of the next subscription. -/
def next (p : Publisher ε) : Nat := p.mailboxes.length

/-- Makes a subscription to the events from now on. -/
def subscribe (p : Publisher ε) : Publisher ε :=
  { p with mailboxes := p.mailboxes ++ [{}] }

/-- Hands an event to all subscriptions. -/
def publish (e : ε) (p : Publisher ε) : Publisher ε :=
  { p with mailboxes := p.mailboxes.map (Mailbox.deliver e) }

/-- The number of listed subscriptions; right after publishing, that of the receivers. -/
def count (p : Publisher ε) : Nat := p.mailboxes.countP Mailbox.listed

/-- Drops the `i`-th subscription. -/
def dropSubscription (i : Nat) (p : Publisher ε) : Publisher ε :=
  { p with mailboxes := p.mailboxes.modify i Mailbox.drop }

/-- Makes another handle, through which the same events are published. -/
def clone (p : Publisher ε) : Publisher ε := { p with handles := p.handles.clone }

/-- Lets go of the `i`-th handle. Subscriptions learn of it when all handles are gone. -/
def dropHandle (i : Nat) (p : Publisher ε) : Publisher ε :=
  { p with handles := p.handles.drop i }

/-- What the `i`-th subscription has not read. -/
def pending (i : Nat) (p : Publisher ε) : List ε :=
  match p.mailboxes[i]? with
  | some m => m.pending
  | none => []

/-- Whether the `i`-th subscription is live. -/
def attached (i : Nat) (p : Publisher ε) : Bool :=
  match p.mailboxes[i]? with
  | some m => m.attached
  | none => false

/-- The publisher after the `i`-th subscription has read its oldest event. -/
def advance (i : Nat) (p : Publisher ε) : Publisher ε :=
  { p with mailboxes := p.mailboxes.modify i Mailbox.rest }

/-- The `i`-th subscription looks for an event. -/
def poll (i : Nat) (p : Publisher ε) : Poll ε × Publisher ε :=
  match p.pending i with
  | e :: _ => (.ready e, p.advance i)
  | [] => (if p.handles.alive then .pending else .ended, p)

/-- The `i`-th subscription takes all it has not read. -/
def drain (i : Nat) (p : Publisher ε) : List ε × Publisher ε :=
  (p.pending i, { p with mailboxes := p.mailboxes.modify i fun m => { m with pending := [] } })

end Publisher

end GridRobot
