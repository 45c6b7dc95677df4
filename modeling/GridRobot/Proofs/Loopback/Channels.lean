import GridRobot.Proofs.Loopback
import GridRobot.Proofs.Machine

/-!
# The two directions of a loopback link

The ends of a loopback link send, look for tokens, close and are dropped, in any
order. Each direction is a channel of its own, whatever happens:

* an end takes what the other one sent, in order and each token once, and the
  rest is on its way to it (`Loopback.received_append_arriving_run`);
* which ends were closed or dropped so far decides whether an end can send, and
  what an end finds that has taken all (`Loopback.standing_run_eq_active_iff`,
  `Loopback.standing_run_eq_dropped_iff`);
* what comes of the actions in one direction does not depend on the actions in
  the other one, unless an end is dropped (`Loopback.replies_filter`).

All this is put together in `Loopback.two_channels`.
-/

namespace GridRobot

namespace Side

variable {s x : Side}

theorem other_other (s : Side) : s.other.other = s := by cases s <;> rfl

theorem other_ne (s : Side) : s.other ≠ s := by cases s <;> nofun

theorem ne_iff : s ≠ x ↔ s = x.other := by cases s <;> cases x <;> decide

end Side

namespace Loopback

variable {l l' : Loopback} {s x : Side}

/-! ### Histories -/

/-- What happens at an end of a link. -/
inductive Act
  | send (s : Side) (t : Token)
  | receive (s : Side)
  | close (s : Side)
  | drop (s : Side)
  deriving DecidableEq

/-- The machine of a loopback link that is used at both ends. -/
def machine : Machine Act Loopback where
  step
    | .send s t, l => (l.send s t).2
    | .receive s, l => (l.receive s).2
    | .close s, l => l.close s
    | .drop s, l => l.drop s

/-- The token that end `x` sends, if the link takes it. -/
def accepted (x : Side) : Act → Loopback → List Token
  | .send s t, l => if s = x ∧ (l.send s t).1.toBool then [t] else []
  | _, _ => []

/-- The token that end `y` takes. -/
def received (y : Side) : Act → Loopback → List Token
  | .receive s, l => if s = y then (l.receive s).1.token?.toList else []
  | _, _ => []

/-- What an end is told. -/
inductive Reply
  | sent (r : Except LinkError Unit)
  | found (a : Arrival)

/-- What the ends are told of the direction from `x` to the other end. -/
def replies (x : Side) : Act → Loopback → List Reply
  | .send s t, l => if s = x then [.sent (l.send s t).1] else []
  | .receive s, l => if s = x.other then [.found (l.receive s).1] else []
  | _, _ => []

/-- The action concerns the direction from `x` to the other end. -/
def Act.concerns (x : Side) : Act → Bool
  | .send s _ | .close s => s = x
  | .receive s => s = x.other
  | .drop _ => true

/-! ### Single actions -/

theorem endpoint_update (s x : Side) (f : Endpoint → Endpoint) (l : Loopback) :
    (l.update s f).endpoint x = if x = s then f (l.endpoint x) else l.endpoint x := by
  cases s <;> cases x <;> rfl

theorem send_cases (s : Side) (t : Token) (l : Loopback) :
    ((l.endpoint s).standing ≠ .active ∧
        l.send s t = (.error (.closedHere (l.endpoint s).id), l)) ∨
      ((l.endpoint s).standing = .active ∧ (l.endpoint s.other).standing = .dropped ∧
        l.send s t = (.error (.peerGone (l.endpoint s).id), l)) ∨
      (l.endpoint s).standing = .active ∧ (l.endpoint s.other).standing ≠ .dropped ∧
        l.send s t =
          (.ok (), l.update s.other fun e => { e with arriving := e.arriving ++ [t] }) := by
  by_cases hopen : (l.endpoint s).standing = .active
  · by_cases hgone : (l.endpoint s.other).standing = .dropped
    · refine .inr (.inl ⟨hopen, hgone, ?_⟩)
      rw [send, if_neg fun h => h hopen, if_pos hgone]
    · exact .inr (.inr ⟨hopen, hgone, send_eq_ok hopen hgone t⟩)
  · exact .inl ⟨hopen, if_pos hopen⟩

/-- What sending changes is on its way to the other end. -/
theorem send_frame (s x : Side) (t : Token) (l : Loopback) :
    ((l.send s t).2.endpoint x).id = (l.endpoint x).id ∧
      ((l.send s t).2.endpoint x).standing = (l.endpoint x).standing ∧
      (x = s → ((l.send s t).2.endpoint x).arriving = (l.endpoint x).arriving) := by
  rcases l.send_cases s t with ⟨-, h⟩ | ⟨-, -, h⟩ | ⟨-, -, h⟩
  · rw [h]
    exact ⟨rfl, rfl, fun _ => rfl⟩
  · rw [h]
    exact ⟨rfl, rfl, fun _ => rfl⟩
  · rw [h, endpoint_update]
    split
    · next hx => exact ⟨rfl, rfl, fun hxs => absurd (hxs.symm.trans hx).symm s.other_ne⟩
    · exact ⟨rfl, rfl, fun _ => rfl⟩

theorem id_receive (s x : Side) (l : Loopback) :
    ((l.receive s).2.endpoint x).id = (l.endpoint x).id := by
  cases h : (l.endpoint s).arriving with
  | nil => rw [receive_of_nil h]
  | cons t rest =>
    rw [receive_of_cons h, endpoint_update]
    split <;> rfl

theorem close_frame (s x : Side) (l : Loopback) :
    ((l.close s).endpoint x).id = (l.endpoint x).id ∧
      ((l.close s).endpoint x).arriving = (l.endpoint x).arriving := by
  rw [close, endpoint_update]
  split
  · split
    · exact ⟨rfl, rfl⟩
    · exact ⟨rfl, rfl⟩
  · exact ⟨rfl, rfl⟩

theorem id_step (act : Act) (x : Side) (l : Loopback) :
    ((machine.step act l).endpoint x).id = (l.endpoint x).id := by
  cases act with
  | send s t => exact (l.send_frame s x t).1
  | receive s => exact l.id_receive s x
  | close s => exact (l.close_frame s x).1
  | drop s =>
    show ((l.drop s).endpoint x).id = _
    rw [drop, endpoint_update]
    split <;> rfl

/-- Closing and dropping an end are all that changes how it stands. -/
theorem standing_step (act : Act) (x : Side) (l : Loopback) :
    ((machine.step act l).endpoint x).standing =
      if act = .drop x then .dropped
      else if act = .close x ∧ (l.endpoint x).standing = .active then .closed
      else (l.endpoint x).standing := by
  cases act with
  | send s t => exact (l.send_frame s x t).2.1
  | receive s =>
    by_cases hs : x = s
    · exact hs ▸ (receive_frame s l).2
    · exact congrArg Endpoint.standing (Side.ne_iff.1 hs ▸ (receive_frame s l).1)
  | close s =>
    show ((l.close s).endpoint x).standing = _
    rw [close, endpoint_update]
    grind
  | drop s =>
    show ((l.drop s).endpoint x).standing = _
    rw [drop, endpoint_update]
    grind

/-! ### How the ends stand -/

theorem standing_run_eq_dropped_iff (acts : List Act) (x : Side) (l : Loopback) :
    ((machine.run acts l).endpoint x).standing = .dropped ↔
      .drop x ∈ acts ∨ (l.endpoint x).standing = .dropped := by
  induction acts generalizing l with
  | nil => simp
  | cons act acts ih =>
    rw [Machine.run_cons, ih, standing_step]
    grind

theorem standing_run_eq_active_iff (acts : List Act) (x : Side) (l : Loopback) :
    ((machine.run acts l).endpoint x).standing = .active ↔
      .drop x ∉ acts ∧ .close x ∉ acts ∧ (l.endpoint x).standing = .active := by
  induction acts generalizing l with
  | nil => simp
  | cons act acts ih =>
    rw [Machine.run_cons, ih, standing_step]
    grind

theorem id_run (acts : List Act) (x : Side) (l : Loopback) :
    ((machine.run acts l).endpoint x).id = (l.endpoint x).id :=
  machine.run_preserves (P := fun l' => (l'.endpoint x).id = (l.endpoint x).id)
    (fun act l' h => (id_step act x l').trans h) acts rfl

/-! ### What is on its way -/

/-- What end `x.other` takes, and what is on its way to it then, is what was on its way to it and
    what end `x` sent. -/
theorem received_append_arriving_step {act : Act} (hact : act ≠ .drop x.other) (l : Loopback) :
    received x.other act l ++ ((machine.step act l).endpoint x.other).arriving =
      (l.endpoint x.other).arriving ++ accepted x act l := by
  cases act with
  | send s t =>
    show ((l.send s t).2.endpoint x.other).arriving = _ ++ if _ then [t] else []
    by_cases hs : s = x
    · subst hs
      rcases l.send_cases s t with ⟨-, h⟩ | ⟨-, -, h⟩ | ⟨-, -, h⟩
      · simp [h, Except.toBool]
      · simp [h, Except.toBool]
      · simp [h, Except.toBool]
    · rw [if_neg fun h => hs h.1, List.append_nil]
      exact (l.send_frame s x.other t).2.2 (Side.ne_iff.1 hs).symm
  | receive s =>
    show (if s = x.other then _ else []) ++ ((l.receive s).2.endpoint x.other).arriving = _ ++ []
    rw [List.append_nil]
    split
    · next hs =>
      subst hs
      exact l.receive_spec x.other
    · next hs =>
      have hs' := Side.ne_iff.1 hs
      rw [Side.other_other] at hs'
      exact congrArg Endpoint.arriving (hs' ▸ (receive_frame s l).1)
  | close s => exact ((l.close_frame s x.other).2).trans (List.append_nil _).symm
  | drop s =>
    have hs : x.other ≠ s := fun h => hact (h ▸ rfl)
    show ((l.drop s).endpoint x.other).arriving = _ ++ []
    rw [drop, endpoint_update, if_neg hs, List.append_nil]

/-- Until it is dropped, an end takes what the other one sent, in order and each token once; the
    rest is on its way. -/
theorem received_append_arriving_run {acts : List Act} (hacts : .drop x.other ∉ acts)
    (l : Loopback) :
    machine.log (received x.other) acts l ++ ((machine.run acts l).endpoint x.other).arriving =
      (l.endpoint x.other).arriving ++ machine.log (accepted x) acts l := by
  induction acts generalizing l with
  | nil => exact (List.append_nil _).symm
  | cons act acts ih =>
    rw [List.mem_cons, not_or] at hacts
    rw [Machine.log_cons, Machine.run_cons, Machine.log_cons, List.append_assoc, ih hacts.2,
      ← List.append_assoc, received_append_arriving_step (Ne.symm hacts.1), List.append_assoc]

/-! ### Independence -/

/-- The direction from `x` to the other end is the same in two links. -/
structure SameChannel (x : Side) (l l' : Loopback) : Prop where
  id : (l.endpoint x).id = (l'.endpoint x).id
  sender : (l.endpoint x).standing = (l'.endpoint x).standing
  gone : (l.endpoint x.other).standing = .dropped ↔ (l'.endpoint x.other).standing = .dropped
  arriving : (l.endpoint x.other).arriving = (l'.endpoint x.other).arriving

namespace SameChannel

theorem refl (x : Side) (l : Loopback) : SameChannel x l l := ⟨rfl, rfl, .rfl, rfl⟩

theorem trans {l'' : Loopback} (h : SameChannel x l l') (h' : SameChannel x l' l'') :
    SameChannel x l l'' :=
  ⟨h.id.trans h'.id, h.sender.trans h'.sender, h.gone.trans h'.gone, h.arriving.trans h'.arriving⟩

theorem send_fst (h : SameChannel x l l') (t : Token) : (l.send x t).1 = (l'.send x t).1 := by
  simp only [send, h.id, h.sender, h.gone]
  split
  · rfl
  · split <;> rfl

theorem receive_fst (h : SameChannel x l l') :
    (l.receive x.other).1 = (l'.receive x.other).1 := by
  cases harriving : (l.endpoint x.other).arriving with
  | nil =>
    rw [receive_of_nil harriving, receive_of_nil (h.arriving ▸ harriving), Side.other_other,
      h.sender]
  | cons t rest => rw [receive_of_cons harriving, receive_of_cons (h.arriving ▸ harriving)]

theorem replies_eq (h : SameChannel x l l') (act : Act) : replies x act l = replies x act l' := by
  cases act with
  | send s t =>
    rw [replies, replies]
    split
    · next hs => rw [hs, h.send_fst]
    · rfl
  | receive s =>
    rw [replies, replies]
    split
    · next hs => rw [hs, h.receive_fst]
    · rfl
  | _ => rfl

theorem step (h : SameChannel x l l') (act : Act) :
    SameChannel x (machine.step act l) (machine.step act l') := by
  constructor
  · rw [id_step, id_step, h.id]
  · rw [standing_step, standing_step, h.sender]
  · have hgone := h.gone
    rw [standing_step, standing_step]
    grind
  · by_cases hact : act = .drop x.other
    · subst hact
      show ((l.drop x.other).endpoint x.other).arriving =
        ((l'.drop x.other).endpoint x.other).arriving
      rw [drop, drop, endpoint_update_self, endpoint_update_self]
    · -- What is on its way is all that was, and was sent, without what was taken.
      have htaken : received x.other act l = received x.other act l' := by
        cases act with
        | receive s =>
          rw [received, received]
          split
          · next hs => rw [hs, h.receive_fst]
          · rfl
        | _ => rfl
      have hsent : accepted x act l = accepted x act l' := by
        cases act with
        | send s t =>
          rw [accepted, accepted]
          by_cases hs : s = x
          · rw [hs, h.send_fst]
          · rw [if_neg fun h => hs h.1, if_neg fun h => hs h.1]
        | _ => rfl
      have hl := received_append_arriving_step hact l
      rw [htaken, hsent, h.arriving, ← received_append_arriving_step hact l'] at hl
      exact List.append_cancel_left hl

/-- An action in the other direction changes nothing in this one. -/
theorem of_not_concerns {act : Act} (hact : act.concerns x = false) (l : Loopback) :
    SameChannel x (machine.step act l) l ∧ replies x act l = [] := by
  cases act with
  | send s t =>
    have hs : s ≠ x := of_decide_eq_false hact
    refine ⟨⟨id_step _ x l, standing_step _ x l, by rw [standing_step]; rfl, ?_⟩, if_neg hs⟩
    exact (l.send_frame s x.other t).2.2 (Side.ne_iff.1 hs).symm
  | receive s =>
    have hs : s ≠ x.other := of_decide_eq_false hact
    refine ⟨⟨id_step _ x l, standing_step _ x l, by rw [standing_step]; rfl, ?_⟩, if_neg hs⟩
    have hs' := Side.ne_iff.1 hs
    rw [Side.other_other] at hs'
    exact congrArg Endpoint.arriving (hs' ▸ (receive_frame s l).1)
  | close s =>
    have hs : s ≠ x := of_decide_eq_false hact
    refine ⟨⟨id_step _ x l, ?_, ?_, (l.close_frame s x.other).2⟩, rfl⟩
    · rw [standing_step]
      simp [hs]
    · rw [standing_step]
      grind
  | drop s => cases hact

end SameChannel

/-- What the ends are told of one direction does not depend on what happens in the other one,
    unless an end is dropped. -/
theorem replies_filter (acts : List Act) (h : SameChannel x l l') :
    machine.log (replies x) acts l =
      machine.log (replies x) (acts.filter (Act.concerns x)) l' := by
  induction acts generalizing l l' with
  | nil => rfl
  | cons act acts ih =>
    cases hact : act.concerns x with
    | true => rw [List.filter_cons_of_pos hact, Machine.log_cons, Machine.log_cons, h.replies_eq,
        ih (h.step act)]
    | false =>
      obtain ⟨hsame, hnone⟩ := SameChannel.of_not_concerns hact l
      rw [List.filter_cons_of_neg (Bool.eq_false_iff.1 hact), Machine.log_cons, hnone,
        List.nil_append, ih (hsame.trans h)]

/-! ### Both directions -/

/-- How the link `l` carries tokens from end `x` to the other end after the history `acts`, in which
    the link took the tokens `sent` and the other end received the tokens `got`. -/
structure Carries (acts : List Act) (x : Side) (id : LinkId) (sent got : List Token)
    (l : Loopback) : Prop where
  inOrder (hthere : .drop x.other ∉ acts) : got ++ (l.endpoint x.other).arriving = sent
  sends_iff (hx : .drop x ∉ acts) (t : Token) :
    (l.send x t).1 = .ok () ↔ .close x ∉ acts ∧ .drop x.other ∉ acts
  /-- That an end was closed itself is told before that the other one is gone. -/
  refuses_closed (hx : .drop x ∉ acts) (hclosed : .close x ∈ acts) (t : Token) :
    l.send x t = (.error (.closedHere id), l)
  refuses_gone (hx : .drop x ∉ acts) (hopen : .close x ∉ acts) (hgone : .drop x.other ∈ acts)
    (t : Token) : l.send x t = (.error (.peerGone id), l)
  finds_oldest (hthere : .drop x.other ∉ acts) {t : Token} {rest : List Token}
    (hrest : got ++ t :: rest = sent) : (l.receive x.other).1 = .token t
  finds_end (hthere : .drop x.other ∉ acts) (hall : got = sent)
    (hover : .close x ∈ acts ∨ .drop x ∈ acts) : l.receive x.other = (.ended, l)
  finds_nothing (hthere : .drop x.other ∉ acts) (hall : got = sent) (hopen : .close x ∉ acts)
    (hx : .drop x ∉ acts) : l.receive x.other = (.pending, l)
  close_again : (l.close x).close x = l.close x
  /-- Closing an end changes nothing of what it is told of the direction to it. -/
  close_oneWay (more : List Act) :
    machine.log (replies x.other) more (l.close x) = machine.log (replies x.other) more l

theorem update_eq_self {f : Endpoint → Endpoint} (h : f (l.endpoint s) = l.endpoint s) :
    l.update s f = l := by
  cases s with
  | near => exact congrArg (fun e => { l with near := e }) h
  | far => exact congrArg (fun e => { l with far := e }) h

theorem close_close (x : Side) (l : Loopback) : (l.close x).close x = l.close x := by
  refine update_eq_self ?_
  rw [if_neg (standing_close x l)]

theorem fresh_pair (n : Nat) (x : Side) :
    ((pair n).endpoint x).standing = .active ∧ ((pair n).endpoint x).arriving = [] := by
  cases x <;> exact ⟨rfl, rfl⟩

theorem carries_run (n : Nat) (acts : List Act) (x : Side) :
    Carries acts x ((pair n).endpoint x).id (machine.log (accepted x) acts (pair n))
      (machine.log (received x.other) acts (pair n)) (machine.run acts (pair n)) := by
  have hactive := standing_run_eq_active_iff acts x (pair n)
  have hdropped := standing_run_eq_dropped_iff acts x.other (pair n)
  have hid := id_run acts x (pair n)
  have horder (hthere : .drop x.other ∉ acts) := received_append_arriving_run hthere (pair n)
  rw [(fresh_pair n x).1] at hactive
  rw [(fresh_pair n x.other).1] at hdropped
  rw [(fresh_pair n x.other).2, List.nil_append] at horder
  simp only [and_true, reduceCtorEq, or_false] at hactive hdropped
  generalize machine.run acts (pair n) = l at *
  -- What end `x.other` finds is the oldest token that it has not taken.
  have hempty (hthere : .drop x.other ∉ acts)
      (hall : machine.log (received x.other) acts (pair n) =
        machine.log (accepted x) acts (pair n)) : (l.endpoint x.other).arriving = [] := by
    have hl := horder hthere
    rwa [hall, List.append_right_eq_self] at hl
  constructor
  case inOrder => exact horder
  case sends_iff =>
    intro hx t
    rcases l.send_cases x t with ⟨hst, h⟩ | ⟨hst, hgone, h⟩ | ⟨hst, hthere, h⟩
    · exact iff_of_false (by rw [h]; nofun) fun hopen => hst (hactive.2 ⟨hx, hopen.1⟩)
    · exact iff_of_false (by rw [h]; nofun) fun hopen => hopen.2 (hdropped.1 hgone)
    · exact iff_of_true (by rw [h]) ⟨(hactive.1 hst).2, fun hgone => hthere (hdropped.2 hgone)⟩
  case refuses_closed =>
    intro hx hclosed t
    rcases l.send_cases x t with ⟨-, h⟩ | ⟨hst, -⟩ | ⟨hst, -⟩
    · rw [h, hid]
    · exact absurd hclosed (hactive.1 hst).2
    · exact absurd hclosed (hactive.1 hst).2
  case refuses_gone =>
    intro hx hopen hgone t
    rcases l.send_cases x t with ⟨hst, -⟩ | ⟨-, -, h⟩ | ⟨-, hthere, -⟩
    · exact absurd (hactive.2 ⟨hx, hopen⟩) hst
    · rw [h, hid]
    · exact absurd (hdropped.2 hgone) hthere
  case finds_oldest =>
    intro hthere t rest hrest
    have harriving : (l.endpoint x.other).arriving = t :: rest :=
      List.append_cancel_left ((horder hthere).trans hrest.symm)
    rw [receive_of_cons harriving]
  case finds_end =>
    intro hthere hall hover
    have hst : (l.endpoint x).standing ≠ .active := fun hst =>
      hover.elim (hactive.1 hst).2 (hactive.1 hst).1
    rw [receive_of_nil (hempty hthere hall), Side.other_other, if_neg hst]
  case finds_nothing =>
    intro hthere hall hopen hx
    rw [receive_of_nil (hempty hthere hall), Side.other_other, if_pos (hactive.2 ⟨hx, hopen⟩)]
  case close_again => exact l.close_close x
  case close_oneWay =>
    intro more
    have hother : (Act.close x).concerns x.other = false := decide_eq_false x.other_ne.symm
    exact (replies_filter more (SameChannel.of_not_concerns hother l).1).trans
      (replies_filter more (.refl x.other l)).symm

/-- A loopback link is two channels, one for each direction: whatever happens at its ends, each
    direction carries tokens in order, ends for itself, and has nothing to do with the other one
    until an end is dropped. -/
theorem two_channels (n : Nat) (acts : List Act) (x : Side) :
    Carries acts x ((pair n).endpoint x).id (machine.log (accepted x) acts (pair n))
        (machine.log (received x.other) acts (pair n)) (machine.run acts (pair n)) ∧
      machine.log (replies x) acts (pair n) =
        machine.log (replies x) (acts.filter (Act.concerns x)) (pair n) :=
  ⟨carries_run n acts x, replies_filter acts (.refl x _)⟩

end Loopback

end GridRobot
