import GridRobot.Proofs.Loopback
import GridRobot.Proofs.Wire.Lossless
import GridRobot.Robot

/-!
# What a robot answers

A robot that starts on a cell of its grid stays on cells. It announces itself;
then it answers each movement by the cell after it, and the end of the route by
`done`, in the order in which it is told (`Robot.answers`). So what it has still
to say is known from where it is and what it has still to be told
(`Robot.forecast`): a step of the robot moves the first of it onto the link
(`Robot.Follows.step`).
-/

namespace GridRobot

/-! ### The grid -/

namespace Digit

/-- The next digit; the greatest one is its own. -/
def succ (d : Digit) : Digit := if h : d.val + 1 < 10 then ⟨d.val + 1, h⟩ else d

/-- The digit before; zero is its own. -/
def pred (d : Digit) : Digit := ⟨d.val - 1, Nat.lt_of_le_of_lt (Nat.sub_le _ _) d.isLt⟩

end Digit

namespace Cell

/-- The cell after a movement: the next one in the heading, unless that is off the grid or the
    movement only turns. -/
def moved (heading : Direction) (motion : Motion) (c : Cell) : Cell :=
  match motion, heading with
  | .turnOnly, _ => c
  | .advance, .up => { c with row := c.row.pred }
  | .advance, .right => { c with col := c.col.succ }
  | .advance, .down => { c with row := c.row.succ }
  | .advance, .left => { c with col := c.col.pred }

theorem location?_toPoint (c : Cell) : Message.location? c.toPoint = .ok (.location c) :=
  Message.location?_eq_ok_iff.2 ⟨c, rfl, rfl⟩

end Cell

namespace Coord

theorem clamp_stay (d : Digit) :
    (ofDigit d + zero).clamp zero (ofDigit .max) = ofDigit d := by
  revert d
  decide

theorem clamp_forth (d : Digit) :
    (ofDigit d + one).clamp zero (ofDigit .max) = ofDigit d.succ := by
  revert d
  decide

theorem clamp_back (d : Digit) :
    (ofDigit d + minusOne).clamp zero (ofDigit .max) = ofDigit d.pred := by
  revert d
  decide

end Coord

namespace Robot

/-- A robot on a cell moves to a cell. -/
theorem moved_toPoint (heading : Direction) (motion : Motion) (c : Cell) :
    moved heading motion c.toPoint = (c.moved heading motion).toPoint := by
  cases motion with
  | turnOnly => rfl
  | advance =>
    have hmoved : moved heading .advance c.toPoint =
        ⟨(.ofDigit c.row + heading.offset.row).clamp .zero (.ofDigit .max),
          (.ofDigit c.col + heading.offset.col).clamp .zero (.ofDigit .max)⟩ := rfl
    rw [hmoved]
    cases heading with
    | up =>
      rw [Direction.offset, Coord.clamp_back, Coord.clamp_stay]
      rfl
    | right =>
      rw [Direction.offset, Coord.clamp_forth, Coord.clamp_stay]
      rfl
    | down =>
      rw [Direction.offset, Coord.clamp_forth, Coord.clamp_stay]
      rfl
    | left =>
      rw [Direction.offset, Coord.clamp_back, Coord.clamp_stay]
      rfl

/-! ### Conversations -/

/-- The cells after the movements among what a robot is told, one after the other. -/
def cellsAfter (c : Cell) : List Message → List Cell
  | [] => []
  | .movement heading motion :: ms =>
    c.moved heading motion :: cellsAfter (c.moved heading motion) ms
  | _ :: ms => cellsAfter c ms

/-- What a robot on a cell answers to what it is told, up to the end of the route. -/
def answers (c : Cell) : List Message → List Message
  | [] => []
  | .movement heading motion :: ms =>
    .location (c.moved heading motion) :: answers (c.moved heading motion) ms
  | .finish :: _ => [.done]
  | _ :: ms => answers c ms

/-- The end of the route comes last, and only there. -/
def EndsRoute (ms : List Message) : Prop := ∃ ms', ms = ms' ++ [.finish] ∧ .finish ∉ ms'

theorem answers_append_finish (c : Cell) {ms : List Message} (h : .finish ∉ ms) :
    answers c (ms ++ [.finish]) = (cellsAfter c ms).map .location ++ [.done] := by
  induction ms generalizing c with
  | nil => rfl
  | cons m ms ih =>
    rw [List.mem_cons, not_or] at h
    obtain ⟨hm, hms⟩ := h
    cases m with
    | movement heading motion => exact congrArg (_ :: ·) (ih _ hms)
    | finish => exact absurd rfl hm
    | _ => exact ih c hms

theorem EndsRoute.of_cons {m : Message} {ms : List Message} (h : EndsRoute (m :: ms)) :
    (m = .finish ∧ ms = []) ∨ m ≠ .finish ∧ EndsRoute ms := by
  obtain ⟨ms', hms, hfinish⟩ := h
  cases ms' with
  | nil =>
    cases hms
    exact .inl ⟨rfl, rfl⟩
  | cons m' ms' =>
    obtain ⟨rfl, rfl⟩ := List.cons.inj hms
    rw [List.mem_cons, not_or] at hfinish
    obtain ⟨hm, hms'⟩ := hfinish
    exact .inr ⟨Ne.symm hm, ms', rfl, hms'⟩

theorem EndsRoute.eq_nil_of_mem {ms ms' : List Message} (h : EndsRoute (ms ++ ms'))
    (hmem : .finish ∈ ms) : ms' = [] := by
  obtain ⟨route, hroute, hfinish⟩ := h
  cases ms' with
  | nil => rfl
  | cons m ms' =>
    have hbefore : route = ms ++ (m :: ms').dropLast := by
      rw [← List.dropLast_append_of_ne_nil (List.cons_ne_nil m ms'), hroute, List.dropLast_concat]
    exact absurd (hbefore ▸ List.mem_append_left _ hmem) hfinish

/-- What a robot on a cell has still to say, if it will be told `ms`. -/
def forecast (r : Robot) (c : Cell) (ms : List Message) : List Message :=
  match r.stage with
  | .starting => .stateChange :: answers c ms
  | .listening => answers c ms
  | .concluded _ => []

/-- A robot is on a cell; `inbox` is on its way to it and `outbox` from it, and it will be told
    `later` after that. Both ends of its link can be used until it is over. -/
structure Follows (r : Robot) (l : Loopback) (c : Cell) (inbox outbox later : List Message) :
    Prop where
  position : r.position = c.toPoint
  near : l.near.standing = .active
  toFar : l.far.arriving = inbox.map Message.bytes
  toNear : l.near.arriving = outbox.map Message.bytes
  /-- A robot that is over was told everything. -/
  stage : match r.stage with
    | .concluded _ => l.far.standing = .dropped ∧ inbox ++ later = []
    | _ => l.far.standing = .active ∧ EndsRoute (inbox ++ later)

variable {r : Robot} {l : Loopback} {c : Cell} {inbox outbox later : List Message}

/-- A robot that can send is not refused as long as its peer is there. -/
theorem reply_eq (m : Message) (r : Robot) (hfar : l.far.standing = .active)
    (hnear : l.near.standing ≠ .dropped) (next : Robot → Loopback → Robot × Loopback) :
    r.reply m l next =
      next r { l with near := { l.near with arriving := l.near.arriving ++ [m.bytes] } } := by
  rw [reply, Loopback.send_eq_ok (s := .far) hfar hnear]
  rfl

/-- A robot that listens does what it is told. -/
theorem follows_obey {m : Message} (hnear : l.near.standing = .active)
    (hfar : l.far.standing = .active) (htoFar : l.far.arriving = inbox.map Message.bytes)
    (htoNear : l.near.arriving = outbox.map Message.bytes)
    (hends : EndsRoute (m :: (inbox ++ later))) :
    ∃ c' outbox', (obey m ⟨c.toPoint, .listening⟩ l).1.Follows
        (obey m ⟨c.toPoint, .listening⟩ l).2 c' inbox outbox' later ∧
      outbox' ++ (obey m ⟨c.toPoint, .listening⟩ l).1.forecast c' (inbox ++ later) =
        outbox ++ answers c (m :: (inbox ++ later)) := by
  have hsent (m : Message) : l.near.arriving ++ [m.bytes] = (outbox ++ [m]).map Message.bytes := by
    rw [htoNear, List.map_append]
    rfl
  rcases hends.of_cons with ⟨rfl, hnone⟩ | ⟨hm, hrest⟩
  · -- The end of the route: the robot lets go of its end, where nothing more would come.
    have hobey : obey .finish ⟨c.toPoint, .listening⟩ l = _ :=
      reply_eq .done ⟨c.toPoint, .listening⟩ hfar (hnear.symm ▸ nofun) signOff
    obtain rfl := (List.append_eq_nil_iff.1 hnone).1
    rw [hobey]
    refine ⟨c, outbox ++ [.done], ?_, List.append_nil _⟩
    exact ⟨rfl, hnear, rfl, hsent .done, rfl, hnone⟩
  · cases m with
    | movement heading motion =>
      have hanswer : Message.location? (moved heading motion c.toPoint) =
          .ok (.location (c.moved heading motion)) := by
        rw [moved_toPoint, Cell.location?_toPoint]
      have hobey : obey (.movement heading motion) ⟨c.toPoint, .listening⟩ l =
          reply (.location (c.moved heading motion))
            ⟨moved heading motion c.toPoint, .listening⟩ l listen := by
        rw [obey]
        dsimp only
        rw [hanswer]
      rw [hobey, reply_eq _ _ hfar (hnear.symm ▸ nofun)]
      refine ⟨c.moved heading motion, outbox ++ [.location (c.moved heading motion)], ?_, ?_⟩
      · exact ⟨moved_toPoint heading motion c, hnear, htoFar, hsent _, hfar, hrest⟩
      · rw [List.append_assoc]
        rfl
    | finish => exact absurd rfl hm
    | _ =>
      -- The robot ignores it, and has as much to say as before.
      exact ⟨c, outbox, ⟨rfl, hnear, htoFar, htoNear, hfar, hrest⟩, rfl⟩

/-- The robot says the first thing that it has still to say, or waits. -/
theorem Follows.step (h : r.Follows l c inbox outbox later) :
    ∃ c' inbox' outbox', (r.step l).1.Follows (r.step l).2 c' inbox' outbox' later ∧
      outbox' ++ (r.step l).1.forecast c' (inbox' ++ later) =
        outbox ++ r.forecast c (inbox ++ later) := by
  obtain ⟨position, stage⟩ := r
  have hstage := h.stage
  cases stage with
  | starting =>
    obtain ⟨hfar, hends⟩ := hstage
    have hstep : step ⟨position, .starting⟩ l = _ :=
      reply_eq .stateChange ⟨position, .starting⟩ hfar (h.near.symm ▸ nofun) listen
    refine ⟨c, inbox, outbox ++ [.stateChange], ?_, ?_⟩
    · rw [hstep]
      refine ⟨h.position, h.near, h.toFar, ?_, hfar, hends⟩
      rw [List.map_append, ← h.toNear]
      rfl
    · rw [hstep, List.append_assoc]
      rfl
  | concluded result => exact ⟨c, inbox, outbox, h, rfl⟩
  | listening =>
    obtain ⟨hfar, hends⟩ := hstage
    cases inbox with
    | nil =>
      have hreceive : l.receive .far = (.pending, l) :=
        (Loopback.receive_of_nil (s := .far) h.toFar).trans (by
          rw [if_pos (show (l.endpoint Side.far.other).standing = .active from h.near)])
      have hstep : step ⟨position, .listening⟩ l = (⟨position, .listening⟩, l) := by
        rw [step]
        dsimp only
        rw [hreceive]
      rw [hstep]
      exact ⟨c, [], outbox, h, rfl⟩
    | cons m inbox =>
      let l' := l.update .far fun e => { e with arriving := inbox.map Message.bytes }
      have hreceive : l.receive .far = (.token m.bytes, l') :=
        Loopback.receive_of_cons (s := .far) h.toFar
      have hstep : step ⟨position, .listening⟩ l = obey m ⟨position, .listening⟩ l' := by
        rw [step]
        dsimp only
        rw [hreceive]
        dsimp only
        rw [m.classifyBytes_bytes]
      obtain rfl : position = c.toPoint := h.position
      have hobey := follows_obey (c := c) (l := l') h.near hfar rfl h.toNear hends
      obtain ⟨c', outbox', hfollows, hsaid⟩ := hobey
      rw [hstep]
      exact ⟨c', inbox, outbox', hfollows, hsaid⟩

/-- A robot that was told everything has said everything. -/
theorem Follows.forecast_eq_nil (h : r.Follows l c [] outbox []) : r.forecast c [] = [] := by
  obtain ⟨position, stage⟩ := r
  have hnot : ¬ EndsRoute [] := fun ⟨route, hroute, _⟩ => by
    cases (List.append_eq_nil_iff.1 hroute.symm).2
  have hstage := h.stage
  cases stage with
  | concluded result => rfl
  | starting => exact absurd hstage.2 hnot
  | listening => exact absurd hstage.2 hnot

/-- A robot that will be told something can be told it. -/
theorem Follows.tell {m : Message} (h : r.Follows l c inbox outbox (m :: later)) :
    let l' := l.update .far fun e => { e with arriving := e.arriving ++ [m.bytes] }
    l.send .near m.bytes = (.ok (), l') ∧ r.Follows l' c (inbox ++ [m]) outbox later := by
  intro l'
  obtain ⟨position, stage⟩ := r
  have hstage := h.stage
  have hinbox : l.far.arriving ++ [m.bytes] = (inbox ++ [m]).map Message.bytes := by
    rw [h.toFar, List.map_append]
    rfl
  have hmore : inbox ++ m :: later = inbox ++ [m] ++ later := by
    rw [List.append_assoc, List.singleton_append]
  have hsend (hfar : l.far.standing = .active) : l.send .near m.bytes = (.ok (), l') := by
    have hother : (l.endpoint Side.near.other).standing ≠ .dropped := fun hgone => by
      cases hfar.symm.trans hgone
    exact Loopback.send_eq_ok (s := .near) h.near hother m.bytes
  cases stage with
  | concluded result => cases (List.append_eq_nil_iff.1 hstage.2).2
  | starting =>
    exact ⟨hsend hstage.1, h.position, h.near, hinbox, h.toNear, hstage.1, hmore ▸ hstage.2⟩
  | listening =>
    exact ⟨hsend hstage.1, h.position, h.near, hinbox, h.toNear, hstage.1, hmore ▸ hstage.2⟩

/-- What the robot said is received in its turn. -/
theorem Follows.hear {m : Message} (h : r.Follows l c inbox (m :: outbox) later) :
    let l' := l.update .near fun e => { e with arriving := outbox.map Message.bytes }
    l.receive .near = (.token m.bytes, l') ∧ r.Follows l' c inbox outbox later :=
  ⟨Loopback.receive_of_cons (s := .near) h.toNear, h.position, h.near, h.toFar, rfl, h.stage⟩

end Robot

end GridRobot
