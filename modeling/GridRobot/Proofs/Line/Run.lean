import GridRobot.Link.Line
import GridRobot.Proofs.Machine

/-!
# Runs of a line link

A line link is asked to send, to look for a token, and to close, any number of
times and in any order. Sending and closing have no part in what is read, nor
has looking in what is written.
-/

namespace GridRobot

/-- What `n` looks at a link find to which just the tokens come, and then nothing more. -/
def Arrival.looks : (n : Nat) → List Token → List Arrival
  | 0, _ => []
  | n + 1, [] => .ended :: looks n []
  | n + 1, t :: ts => .token t :: looks n ts

theorem Arrival.looks_add (ts : List Token) (n : Nat) :
    looks (ts.length + n) ts = ts.map .token ++ List.replicate n .ended := by
  induction ts with
  | nil =>
    rw [List.length_nil, Nat.zero_add, List.map_nil, List.nil_append]
    induction n with
    | zero => rfl
    | succ n ih => exact congrArg (.ended :: ·) ih
  | cons t ts ih =>
    rw [List.length_cons, Nat.succ_add, looks, ih, List.map_cons, List.cons_append]

theorem Arrival.looks_length (ts : List Token) : looks ts.length ts = ts.map .token :=
  (looks_add ts 0).trans (List.append_nil _)

namespace LineLink

/-- What a line link is asked to do. -/
inductive Call
  | send (t : Token)
  | receive
  | close
  deriving DecidableEq

/-- The machine of a line link. What comes of the calls is told by its logs. -/
def machine : Machine Call LineLink where
  step
    | .send t, l => (l.send t).2
    | .receive, l => l.receive.2
    | .close, l => l.close.2

/-- The token that is to be sent. -/
def Call.token? : Call → Option Token
  | .send t => some t
  | .receive | .close => none

/-- What comes of sending. -/
def sending : Call → LineLink → List (Except LinkError Unit)
  | .send t, l => [(l.send t).1]
  | .receive, _ | .close, _ => []

/-- What a look finds. -/
def finding : Call → LineLink → List Arrival
  | .receive, l => [l.receive.1]
  | .send _, _ | .close, _ => []

variable {l : LineLink}

theorem source_send (t : Token) (l : LineLink) : (l.send t).2.source = l.source := by
  rw [send]
  split
  · rfl
  · split
    · rfl
    · split
      · rfl
      · split
        · rfl
        · rfl

theorem source_close (l : LineLink) : l.close.2.source = l.source := by
  rw [close]
  split
  · rfl
  · rfl

/-- Looks alone move on in the stream, and what they find is told by the stream alone. -/
theorem unwinding_source : machine.Unwinding (fun _ => True) (fun _ => True)
    (fun call => decide (call = .receive)) source finding where
  keeps _ _ := trivial
  leaves := by
    intro call l _ _ h
    cases call with
    | send t => exact ⟨source_send t l, rfl⟩
    | receive => cases h
    | close => exact ⟨source_close l, rfl⟩
  tells := by
    intro call l l' _ _ _ h hsource
    cases of_decide_eq_true h
    show l.receive.2.source = l'.receive.2.source ∧ [l.receive.1] = [l'.receive.1]
    rw [receive, receive, hsource]
    exact ⟨rfl, rfl⟩

/-- What is found is what looks alone find, whatever link they look at, as long as it reads the
    same. -/
theorem finding_eq {l' : LineLink} (hsource : l.source = l'.source) (calls : List Call) :
    machine.log finding calls l = machine.log finding (calls.filter (· = .receive)) l' :=
  (unwinding_source.run_filter (fun _ _ => trivial) trivial trivial hsource).2

/-- What is left of the stream is what looks alone leave of it. -/
theorem source_run {l' : LineLink} (hsource : l.source = l'.source) (calls : List Call) :
    (machine.run calls l).source = (machine.run (calls.filter (· = .receive)) l').source :=
  (unwinding_source.run_filter (fun _ _ => trivial) trivial trivial hsource).1

end LineLink

end GridRobot
