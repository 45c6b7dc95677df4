import GridRobot.Link.Loopback

/-!
# What the ends of a loopback link can do

An end that has not been closed sends whatever it likes, as long as the other
end was not dropped; what it sends is on its way to the other end. An end takes
what is on its way to it, token by token, and then learns whether more can come
(`Loopback.looks_add`).
-/

namespace GridRobot

/-- The token that was found, if any. -/
def Arrival.token? : Arrival → Option Token
  | .token t => some t
  | _ => none

namespace Loopback

variable {l : Loopback} {t : Token} {rest : List Token} {s : Side}

theorem send_eq_ok (hopen : (l.endpoint s).standing = .active)
    (hother : (l.endpoint s.other).standing ≠ .dropped) (t : Token) :
    l.send s t = (.ok (), l.update s.other fun e => { e with arriving := e.arriving ++ [t] }) := by
  rw [send, if_neg fun h => h hopen, if_neg hother]

theorem receive_of_cons (h : (l.endpoint s).arriving = t :: rest) :
    l.receive s = (.token t, l.update s fun e => { e with arriving := rest }) := by
  rw [receive, h]

theorem receive_of_nil (h : (l.endpoint s).arriving = []) :
    l.receive s =
      (if (l.endpoint s.other).standing = .active then .pending else .ended, l) := by
  rw [receive, h]

theorem standing_close (s : Side) (l : Loopback) :
    ((l.close s).endpoint s).standing ≠ .active := by
  rw [close, endpoint_update_self]
  split
  · exact fun h => by cases h
  · assumption

/-- What a look at end `s` finds is the oldest of the tokens on their way to it; the others are still
    on their way. -/
theorem receive_spec (s : Side) (l : Loopback) :
    (l.receive s).1.token?.toList ++ ((l.receive s).2.endpoint s).arriving =
      (l.endpoint s).arriving := by
  cases h : (l.endpoint s).arriving with
  | nil =>
    rw [receive_of_nil h, h]
    split <;> rfl
  | cons t rest =>
    rw [receive_of_cons h, endpoint_update_self]
    rfl

/-- Looking at an end changes nothing but what is on its way to it. -/
theorem receive_frame (s : Side) (l : Loopback) :
    (l.receive s).2.endpoint s.other = l.endpoint s.other ∧
      ((l.receive s).2.endpoint s).standing = (l.endpoint s).standing := by
  cases h : (l.endpoint s).arriving with
  | nil =>
    rw [receive_of_nil h]
    exact ⟨rfl, rfl⟩
  | cons t rest =>
    rw [receive_of_cons h, endpoint_update_other, endpoint_update_self]
    exact ⟨rfl, rfl⟩

/-- What `n` looks at end `s` find, one after the other. -/
def looks (s : Side) : (n : Nat) → Loopback → List Arrival
  | 0, _ => []
  | n + 1, l => (l.receive s).1 :: looks s n (l.receive s).2

/-- An end finds the tokens on their way to it, one at a look. After that it waits as long as the
    other end can send, and then nothing more comes. -/
theorem looks_add (s : Side) (n : Nat) (l : Loopback) :
    l.looks s ((l.endpoint s).arriving.length + n) = (l.endpoint s).arriving.map .token ++
      List.replicate n (if (l.endpoint s.other).standing = .active then .pending else .ended) := by
  induction harriving : (l.endpoint s).arriving generalizing l with
  | nil =>
    rw [List.length_nil, Nat.zero_add, List.map_nil, List.nil_append]
    -- A look that finds nothing leaves the link as it is.
    induction n with
    | zero => rfl
    | succ n ih => rw [looks, receive_of_nil harriving, ih, List.replicate_succ]
  | cons t rest ih =>
    have hrest := ih (l.update s fun e => { e with arriving := rest })
      (congrArg Endpoint.arriving (endpoint_update_self s _ l))
    rw [List.length_cons, Nat.succ_add, looks, receive_of_cons harriving, hrest,
      endpoint_update_other, List.map_cons, List.cons_append]

end Loopback

end GridRobot
