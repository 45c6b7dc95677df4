import GridRobot.Proofs.Loopback.Channels
import GridRobot.Proofs.Machine
import GridRobot.Proofs.Robot.Fate

/-!
# The conduct of a robot

A robot starts anywhere, and its peer tells it tokens, looks for its replies and
may hang up, while the robot goes on whenever it likes. At every moment an
account can be given of what the robot has taken and said (`Robot.Account`,
preserved in `Robot.Stands.step`), and a robot that has nothing left to do has
met its fate, however it took its turns with its peer (`Robot.meets_fate`).
-/

namespace GridRobot

namespace Robot

variable {start : Point} {told taken heard : List Token} {closed : Bool} {r : Robot}
  {l : Loopback} {far : Endpoint} {t : Token} {said reports ms : List Message}

/-! ### Runs -/

/-- What happens between a robot and its peer, who does not let go of the near end. -/
inductive Turn
  /-- The peer sends a token. -/
  | tell (t : Token)
  /-- The peer looks for a token. -/
  | hear
  /-- The peer closes its end. -/
  | hangUp
  /-- The robot does the next thing that it can do. -/
  | go
  deriving DecidableEq

/-- The machine of a robot at the far end and its peer at the near end. -/
def machine : Machine Turn (Robot × Loopback) where
  step
    | .tell t, (r, l) => (r, (l.send .near t).2)
    | .hear, (r, l) => (r, (l.receive .near).2)
    | .hangUp, (r, l) => (r, l.close .near)
    | .go, (r, l) => r.step l

/-- A robot that is about to announce itself, on a fresh link. -/
def outset (start : Point) (n : Nat) : Robot × Loopback := (⟨start, .starting⟩, .pair n)

/-- The tokens that the peer sends before it hangs up. -/
def sent : List Turn → List Token
  | [] => []
  | .tell t :: turns => t :: sent turns
  | .hangUp :: _ => []
  | _ :: turns => sent turns

/-- The token that the robot takes. -/
def taking : Turn → Robot × Loopback → List Token
  | .go, (⟨_, .listening⟩, l) => (l.receive .far).1.token?.toList
  | _, _ => []

/-- The token that the peer receives. -/
def hearing : Turn → Robot × Loopback → List Token
  | .hear, (_, l) => (l.receive .near).1.token?.toList
  | _, _ => []

theorem sent_append (turns more : List Turn) :
    sent (turns ++ more) = sent turns ++ if .hangUp ∈ turns then [] else sent more := by
  induction turns with
  | nil => rfl
  | cons turn turns ih => cases turn <;> simp [sent, ih]

/-! ### Accounts -/

/-- An account of a robot from `start` that its peer told the tokens `told`: `far` is its end of the
    link, it has taken `taken` and said `said`. -/
inductive Account (start : Point) (told : List Token) (closed : Bool) :
    Robot → Endpoint → (taken : List Token) → (said : List Message) → Prop
  | starting {far : Endpoint} (hfar : far.standing = .active) (htold : far.arriving = told) :
    Account start told closed ⟨start, .starting⟩ far [] []
  | listening {far : Endpoint} {taken : List Token} {ms reports : List Message}
    (h : Travels start taken ms reports) (hfar : far.standing = .active)
    (htold : taken ++ far.arriving = told) :
    Account start told closed ⟨positionAfter start ms, .listening⟩ far taken
      (.stateChange :: reports)
  | ended {far : Endpoint} {handled rest last : List Token} {ms reports farewell : List Message}
    {result : Except Failure Unit} (h : Travels start handled ms reports)
    (hfar : far.standing = .dropped) (htold : handled ++ rest = told)
    (hstop : Stop start ms closed rest last farewell result) :
    Account start told closed ⟨positionAfter start ms, .concluded result⟩ far (handled ++ last)
      (.stateChange :: reports ++ farewell)

/-- How a robot and its link stand after the peer told and heard these tokens. -/
structure Stands (start : Point) (told taken heard : List Token) (closed : Bool)
    (s : Robot × Loopback) : Prop where
  near : s.2.near.standing = if closed then .closed else .active
  account : ∃ said, Account start told closed s.1 s.2.far taken said ∧
    heard ++ s.2.near.arriving = said.map Message.bytes

theorem stands_outset (start : Point) (n : Nat) : Stands start [] [] [] false (outset start n) :=
  ⟨rfl, [], .starting rfl rfl, rfl⟩

/-- A token that is sent to a robot that is not over is on its way to it. -/
theorem Account.tell (h : Account start told closed r far taken said)
    (hfar : far.standing = .active) (t : Token) :
    Account start (told ++ [t]) closed r { far with arriving := far.arriving ++ [t] } taken
      said := by
  cases h with
  | starting _ htold => exact .starting hfar (by rw [htold])
  | listening h _ htold => exact .listening h hfar (by rw [← htold, List.append_assoc])
  | ended _ hgone =>
    rw [hfar] at hgone
    cases hgone

/-- A token that is sent to a robot that is over changes nothing. -/
theorem Account.tell_over (h : Account start told closed r far taken said)
    (hfar : far.standing ≠ .active) (hclosed : closed = false) (t : Token) :
    Account start (told ++ [t]) closed r far taken said := by
  cases h with
  | starting hactive => exact absurd hactive hfar
  | listening _ hactive => exact absurd hactive hfar
  | ended h hgone htold hstop =>
    exact .ended h hgone (by rw [← htold, List.append_assoc]) (hstop.concat hclosed t)

theorem Account.hangUp (h : Account start told closed r far taken said) :
    Account start told true r far taken said := by
  cases h with
  | starting hfar htold => exact .starting hfar htold
  | listening h hfar htold => exact .listening h hfar htold
  | ended h hfar htold hstop => exact .ended h hfar htold (hstop.mono fun _ => rfl)

theorem Stands.near_ne (hnear : l.near.standing = if closed then .closed else .active) :
    l.near.standing ≠ .dropped := by
  rw [hnear]
  cases closed <;> nofun

/-! ### Turns -/

/-- A robot that listens takes the first token that has arrived. -/
theorem taking_go (p : Point) (l : Loopback) :
    taking .go (⟨p, .listening⟩, l) = l.far.arriving.head?.toList := by
  rw [taking]
  cases harriving : l.far.arriving with
  | nil =>
    rw [Loopback.receive_of_nil (s := .far) harriving]
    split <;> rfl
  | cons t rest =>
    rw [Loopback.receive_of_cons (s := .far) harriving]
    rfl

/-- A robot that has taken all tokens waits, or is over when its peer has hung up. -/
theorem step_of_nil (p : Point) (h : l.far.arriving = []) :
    step ⟨p, .listening⟩ l =
      if l.near.standing = .active then (⟨p, .listening⟩, l) else signOff ⟨p, .listening⟩ l := by
  have hreceive : l.receive .far = (if l.near.standing = .active then .pending else .ended, l) :=
    Loopback.receive_of_nil (s := .far) h
  rw [step]
  dsimp only
  by_cases hnear : l.near.standing = .active
  · rw [hreceive, if_pos hnear, if_pos hnear]
  · rw [hreceive, if_neg hnear, if_neg hnear]

/-- A robot does what the message says that it takes. -/
theorem step_of_ok (p : Point) {rest : List Token} {m : Message} (h : l.far.arriving = t :: rest)
    (ht : classifyBytes t = .ok m) :
    step ⟨p, .listening⟩ l =
      obey m ⟨p, .listening⟩ (l.update .far fun e => { e with arriving := rest }) := by
  rw [step]
  dsimp only
  rw [Loopback.receive_of_cons (s := .far) h]
  dsimp only
  rw [ht]

/-- A robot that takes a token that is no message is over. -/
theorem step_of_error (p : Point) {rest : List Token} {e : MessageError}
    (h : l.far.arriving = t :: rest) (ht : classifyBytes t = .error e) :
    step ⟨p, .listening⟩ l = conclude (.error (.message e)) ⟨p, .listening⟩
      (l.update .far fun e => { e with arriving := rest }) := by
  rw [step]
  dsimp only
  rw [Loopback.receive_of_cons (s := .far) h]
  dsimp only
  rw [ht]

/-- A message that is said comes after all others. -/
theorem said_concat (hsaid : heard ++ l.near.arriving = said.map Message.bytes) (m : Message) :
    heard ++ (l.near.arriving ++ [m.bytes]) = (said ++ [m]).map Message.bytes := by
  rw [← List.append_assoc, hsaid, List.map_append]
  rfl

/-- A robot that takes a message does what it says. -/
theorem stands_obey {m : Message}
    (hnear : l.near.standing = if closed then .closed else .active)
    (hfar : l.far.standing = .active) (h : Travels start taken ms reports)
    (ht : classifyBytes t = .ok m) (htold : taken ++ t :: l.far.arriving = told)
    (hsaid : heard ++ l.near.arriving = (.stateChange :: reports).map Message.bytes) :
    Stands start told (taken ++ [t]) heard closed
      (obey m ⟨positionAfter start ms, .listening⟩ l) := by
  have hthere := Stands.near_ne hnear
  have htaken : (taken ++ [t]) ++ l.far.arriving = told := by rw [List.append_assoc, ← htold]; rfl
  cases m with
  | movement heading motion =>
    rw [obey]
    dsimp only
    cases hanswer : Message.location? (moved heading motion (positionAfter start ms)) with
    | ok answer =>
      dsimp only
      rw [reply_eq _ _ hfar hthere, ← positionAfter_concat_movement]
      exact ⟨hnear, _, .listening (h.concat_movement ht hanswer) hfar htaken,
        said_concat hsaid answer⟩
    | error e =>
      cases motion with
      | advance =>
        -- A movement that advances leads onto the grid.
        obtain ⟨answer, hok⟩ := exists_location?_iff.2
          (onGrid_guarded (positionAfter start ms) heading)
        cases hok.symm.trans hanswer
      | turnOnly =>
        have hposition : ¬OnGrid (positionAfter start ms) := fun hgrid => by
          obtain ⟨answer, hok⟩ := exists_location?_iff.2 hgrid
          cases hok.symm.trans hanswer
        have hsaid' := hsaid
        rw [← List.append_nil reports, ← List.cons_append] at hsaid'
        exact ⟨hnear, _, .ended h rfl htold (.offGrid _ ht hposition hanswer), hsaid'⟩
  | finish =>
    have hobey : obey .finish ⟨positionAfter start ms, .listening⟩ l = _ :=
      reply_eq .done ⟨positionAfter start ms, .listening⟩ hfar hthere signOff
    rw [hobey]
    exact ⟨hnear, _, .ended h rfl htold (.finished _ ht), said_concat hsaid .done⟩
  | _ =>
    have htravels := h.concat_of_not ht (fun hm => by cases hm) rfl
    have haccount : Account start told closed _ l.far _ _ := .listening htravels hfar htaken
    rw [positionAfter_concat rfl] at haccount
    exact ⟨hnear, _, haccount, hsaid⟩

/-- A robot that listens takes a token; without one it waits, or is over if its peer has hung up. -/
theorem stands_listen (hnear : l.near.standing = if closed then .closed else .active)
    (hfar : l.far.standing = .active) (h : Travels start taken ms reports)
    (htold : taken ++ l.far.arriving = told)
    (hsaid : heard ++ l.near.arriving = (.stateChange :: reports).map Message.bytes) :
    Stands start told (taken ++ taking .go (⟨positionAfter start ms, .listening⟩, l)) heard closed
      (step ⟨positionAfter start ms, .listening⟩ l) := by
  have hsaid' := hsaid
  rw [← List.append_nil reports, ← List.cons_append] at hsaid'
  rw [taking_go]
  cases harriving : l.far.arriving with
  | nil =>
    rw [step_of_nil _ harriving, hnear, List.head?_nil, Option.toList_none]
    cases closed with
    | false =>
      rw [List.append_nil]
      exact ⟨hnear, _, .listening h hfar htold, hsaid⟩
    | true => exact ⟨hnear, _, .ended h rfl (harriving ▸ htold) (.hungUp rfl), hsaid'⟩
  | cons t rest =>
    rw [harriving] at htold
    cases ht : classifyBytes t with
    | ok m =>
      rw [step_of_ok _ harriving ht]
      exact stands_obey hnear hfar h ht htold hsaid
    | error e =>
      rw [step_of_error _ harriving ht]
      exact ⟨hnear, _, .ended h rfl htold (.unclassified rest ht), hsaid'⟩

/-- The robot says the first thing that it has to say, takes a token, or is over. -/
theorem Stands.go (h : Stands start told taken heard closed (r, l)) :
    Stands start told (taken ++ taking .go (r, l)) heard closed (r.step l) := by
  obtain ⟨hnear, said, haccount, hsaid⟩ := h
  cases haccount with
  | starting hfar htold =>
    have hstep : step ⟨start, .starting⟩ l = _ :=
      reply_eq .stateChange ⟨start, .starting⟩ hfar (near_ne hnear) listen
    rw [hstep]
    exact ⟨hnear, _, .listening (travels_nil start) hfar htold,
      said_concat hsaid .stateChange⟩
  | ended h hfar htold hstop =>
    exact ⟨hnear, _, (List.append_nil _).symm ▸ .ended h hfar htold hstop, hsaid⟩
  | listening h hfar htold => exact stands_listen hnear hfar h htold hsaid

theorem Stands.tell (h : Stands start told taken heard closed (r, l)) (t : Token) :
    Stands start (told ++ if closed then [] else [t]) taken heard closed
      (r, (l.send .near t).2) := by
  obtain ⟨hnear, said, haccount, hsaid⟩ := h
  cases closed with
  | true =>
    have hopen : (l.endpoint .near).standing ≠ .active := fun h => by cases hnear.symm.trans h
    rw [if_pos rfl, List.append_nil, Loopback.send, if_pos hopen]
    exact ⟨hnear, said, haccount, hsaid⟩
  | false =>
    rcases l.send_cases .near t with ⟨hopen, -⟩ | ⟨-, hgone, h⟩ | ⟨-, hthere, h⟩
    · exact absurd hnear hopen
    · rw [h]
      have hfar : l.far.standing ≠ .active := fun hactive => by cases hgone.symm.trans hactive
      exact ⟨hnear, said, haccount.tell_over hfar rfl t, hsaid⟩
    · rw [h]
      refine ⟨hnear, said, haccount.tell ?_ t, hsaid⟩
      cases haccount with
      | starting hfar => exact hfar
      | listening _ hfar => exact hfar
      | ended _ hgone => exact absurd hgone hthere

/-- The first of what the robot said is heard. -/
theorem Stands.hear (h : Stands start told taken heard closed (r, l)) :
    Stands start told taken (heard ++ hearing .hear (r, l)) closed (r, (l.receive .near).2) := by
  obtain ⟨hnear, said, haccount, hsaid⟩ := h
  rw [hearing]
  cases harriving : l.near.arriving with
  | nil =>
    rw [Loopback.receive_of_nil (s := .near) harriving]
    refine ⟨hnear, said, haccount, ?_⟩
    split <;> exact (List.append_nil heard).symm ▸ hsaid
  | cons t rest =>
    rw [Loopback.receive_of_cons (s := .near) harriving]
    refine ⟨hnear, said, haccount, ?_⟩
    rw [← hsaid, harriving, List.append_assoc]
    rfl

theorem Stands.hangUp (h : Stands start told taken heard closed (r, l)) :
    Stands start told taken heard true (r, l.close .near) := by
  obtain ⟨hnear, said, haccount, hsaid⟩ := h
  have harriving : (l.close .near).near.arriving = l.near.arriving := (l.close_frame .near .near).2
  refine ⟨?_, said, haccount.hangUp, (congrArg (heard ++ ·) harriving).trans hsaid⟩
  have hstanding := Loopback.standing_step (.close .near) .near l
  rw [if_neg nofun] at hstanding
  refine hstanding.trans ?_
  cases closed with
  | true => exact (if_neg fun h => by cases hnear.symm.trans h.2).trans hnear
  | false => exact if_pos ⟨rfl, hnear⟩

/-- How they stand after one more turn. -/
theorem Stands.step {s : Robot × Loopback} (h : Stands start told taken heard closed s)
    (turn : Turn) :
    Stands start (told ++ if closed then [] else sent [turn]) (taken ++ taking turn s)
      (heard ++ hearing turn s) (closed || turn = .hangUp) (machine.step turn s) := by
  obtain ⟨r, l⟩ := s
  cases turn with
  | tell t => simpa [machine, taking, hearing, sent] using h.tell t
  | hear => simpa [machine, taking, sent] using h.hear
  | hangUp => simpa [machine, taking, hearing, sent] using h.hangUp
  | go => simpa [machine, hearing, sent] using h.go

/-- How they stand after a run. -/
theorem stands_run (start : Point) (n : Nat) (turns : List Turn) :
    Stands start (sent turns) (machine.log taking turns (outset start n))
      (machine.log hearing turns (outset start n)) (.hangUp ∈ turns)
      (machine.run turns (outset start n)) := by
  induction turns using List.reverseRecOn with
  | nil => exact stands_outset start n
  | append_singleton turns turn ih =>
    have hclosed : decide (.hangUp ∈ turns ++ [turn]) =
        (decide (.hangUp ∈ turns) || decide (turn = .hangUp)) := by
      simp [eq_comm]
    have hstep := ih.step turn
    rw [machine.run_concat, machine.log_concat, machine.log_concat, sent_append, hclosed]
    simpa using hstep

/-! ### Coming to rest -/

/-- How many turns a robot may still take before it has nothing left to do. -/
def toDo : Robot × Loopback → Nat
  | (⟨_, .starting⟩, l) => l.far.arriving.length + 2
  | (⟨_, .listening⟩, l) => l.far.arriving.length + 1
  | (⟨_, .concluded _⟩, _) => 0

variable {p : Point}

theorem toDo_reply {next : Robot → Loopback → Robot × Loopback} {k : Nat}
    (hnext : ∀ l', l'.far.arriving = l.far.arriving → toDo (next r l') ≤ k) (m : Message) :
    toDo (r.reply m l next) ≤ k := by
  have harriving := (l.send_frame .far .far m.bytes).2.2 rfl
  rw [reply]
  split
  · next l' hsend =>
    rw [hsend] at harriving
    exact hnext l' harriving
  · exact Nat.zero_le k

theorem toDo_obey (m : Message) (p : Point) (l : Loopback) :
    toDo (obey m ⟨p, .listening⟩ l) ≤ l.far.arriving.length + 1 := by
  cases m with
  | movement heading motion =>
    rw [obey]
    dsimp only
    split
    · exact toDo_reply (fun l' h => (congrArg (·.length + 1) h).le) _
    · exact Nat.zero_le _
  | finish => exact toDo_reply (fun l' _ => Nat.zero_le _) .done
  | _ => exact Nat.le_refl _

theorem toDo_step_starting (p : Point) (l : Loopback) :
    toDo (step ⟨p, .starting⟩ l) < toDo (⟨p, .starting⟩, l) :=
  Nat.lt_succ_of_le (toDo_reply (fun _ h => (congrArg (·.length + 1) h).le) .stateChange)

theorem toDo_step_of_cons {rest : List Token} (h : l.far.arriving = t :: rest) :
    toDo (step ⟨p, .listening⟩ l) < toDo (⟨p, .listening⟩, l) := by
  rw [toDo, h]
  cases ht : classifyBytes t with
  | ok m =>
    rw [step_of_ok p h ht]
    exact Nat.lt_succ_of_le (toDo_obey m p _)
  | error e =>
    rw [step_of_error p h ht]
    exact Nat.zero_lt_succ _

/-- Each turn that changes something is one that the robot may no longer take. -/
theorem step_eq_or_toDo_lt (s : Robot × Loopback) :
    machine.step .go s = s ∨ toDo (machine.step .go s) < toDo s := by
  obtain ⟨⟨p, stage⟩, l⟩ := s
  cases stage with
  | starting => exact .inr (toDo_step_starting p l)
  | concluded result => exact .inl rfl
  | listening =>
    cases harriving : l.far.arriving with
    | cons t rest => exact .inr (toDo_step_of_cons harriving)
    | nil =>
      have hstep : machine.step .go (⟨p, .listening⟩, l) = _ := step_of_nil p harriving
      rw [hstep]
      split
      · exact .inl rfl
      · exact .inr (Nat.zero_lt_succ _)

theorem rests_or_toDo_le (s : Robot × Loopback) (k : Nat) :
    machine.step .go (machine.run (List.replicate k .go) s) =
        machine.run (List.replicate k .go) s ∨
      toDo (machine.run (List.replicate k .go) s) + k ≤ toDo s := by
  induction k with
  | zero => exact .inr (Nat.le_refl _)
  | succ k ih =>
    rw [List.replicate_succ', machine.run_concat]
    rcases ih with hrests | hle
    · exact .inl (congrArg (machine.step .go) hrests)
    · rcases step_eq_or_toDo_lt (machine.run (List.replicate k .go) s) with hrests | hlt
      · exact .inl (congrArg (machine.step .go) hrests)
      · exact .inr (by omega)

theorem run_eq (r : Robot) (l : Loopback) :
    r.run l = machine.run (List.replicate (l.far.arriving.length + 2) .go) (r, l) := by
  rw [run]
  induction l.far.arriving.length + 2 with
  | zero => rfl
  | succ k ih =>
    rw [Nat.repeat, ih, List.replicate_succ', machine.run_concat]
    rfl

/-- A robot that goes on as far as it can has nothing left to do then. -/
theorem rests_run (r : Robot) (l : Loopback) : machine.step .go (r.run l) = r.run l := by
  have htoDo : toDo (r, l) ≤ l.far.arriving.length + 2 := by
    obtain ⟨p, stage⟩ := r
    cases stage with
    | starting => exact Nat.le_refl _
    | listening => exact Nat.le_succ _
    | concluded result => exact Nat.zero_le _
  rw [run_eq]
  refine (rests_or_toDo_le (r, l) _).elim id fun hle => ?_
  -- It has taken all its turns.
  rcases step_eq_or_toDo_lt _ with hrests | hlt
  · exact hrests
  · omega

/-! ### Fates -/

/-- A robot that has nothing left to do has met its fate. -/
theorem Stands.fate {s : Robot × Loopback} (h : Stands start told taken heard closed s)
    (hrests : machine.step .go s = s) :
    ∃ said, Fate start told closed taken said s.1.result? ∧
      heard ++ s.2.near.arriving = said.map Message.bytes := by
  obtain ⟨r, l⟩ := s
  obtain ⟨hnear, said, haccount, hsaid⟩ := h
  refine ⟨said, ?_, hsaid⟩
  have hnot (h : toDo (r.step l) < toDo (r, l)) : False := by
    rw [show r.step l = (r, l) from hrests] at h
    exact Nat.lt_irrefl _ h
  cases haccount with
  | starting hfar htold => exact (hnot (toDo_step_starting start l)).elim
  | ended h hgone htold hstop => exact .stops h htold hstop
  | @listening _ _ ms reports h hfar htold =>
    cases harriving : l.far.arriving with
    | cons t rest => exact (hnot (toDo_step_of_cons harriving)).elim
    | nil =>
      rw [harriving, List.append_nil] at htold
      subst htold
      cases closed with
      | false => exact .waits h rfl
      | true =>
        have hstep := step_of_nil (positionAfter start ms) harriving
        rw [if_neg (hnear.symm ▸ nofun)] at hstep
        cases hstep.symm.trans hrests

/-- What the robot took and said so far is all that some robot takes and says. -/
theorem Account.fate (h : Account start told closed r far taken said) :
    r.stage = .starting ∧ taken = [] ∨
      ∃ tokens closed, Fate start tokens closed taken said r.result? := by
  cases h with
  | starting => exact .inl ⟨rfl, rfl⟩
  | listening h => exact .inr ⟨_, false, .waits h rfl⟩
  | ended h _ htold hstop => exact .inr ⟨told, closed, .stops h htold hstop⟩

theorem Account.position_eq (h : Account start told closed r far taken said) :
    r.position = positionAfter start (messages taken) := by
  cases h with
  | starting => rfl
  | listening h => rw [h.messages_eq]
  | ended h _ _ hstop => rw [messages_append, h.messages_eq, hstop.positionAfter_eq]

theorem Account.taken_isPrefix (h : Account start told closed r far taken said) :
    taken <+: told := by
  cases h with
  | starting => exact List.nil_prefix
  | listening _ _ htold => exact htold ▸ List.prefix_append taken _
  | ended _ _ htold hstop =>
    exact htold ▸ (List.prefix_append_right_inj _).2 hstop.last_isPrefix

theorem Account.standing_eq (h : Account start told closed r far taken said) :
    far.standing = if r.result?.isSome then .dropped else .active := by
  cases h with
  | starting hfar => exact hfar
  | listening _ hfar => exact hfar
  | ended _ hgone => exact hgone

theorem Account.malformed_iff (h : Account start told closed r far taken said) :
    (∃ fault, r.result? = some (.error (.message (.malformed fault)))) ↔
      ¬OnGrid start ∧ ∃ heading, (messages taken).find? Message.isMovement =
        some (.movement heading .turnOnly) := by
  rcases h.fate with ⟨hstage, rfl⟩ | ⟨tokens, closed, hfate⟩
  · have hnone : r.result? = none := by rw [result?, hstage]
    rw [hnone]
    exact ⟨fun ⟨_, h⟩ => (nomatch h), fun ⟨_, _, h⟩ => (nomatch h)⟩
  · exact hfate.malformed_iff

/-- What becomes of a robot from `start` that is told `tokens` by a peer who hangs up if `closed`:
    it stands as in `s` when it has taken `taken` and its peer has received `heard`. -/
structure MeetsFate (start : Point) (tokens : List Token) (closed : Bool)
    (taken heard : List Token) (s : Robot × Loopback) : Prop where
  /-- It takes the tokens in order. -/
  takes : taken <+: tokens
  /-- It is where the movements that advance have led it. -/
  position : s.1.position = positionAfter start (messages taken)
  /-- It stays on the grid once it is there, and the first movement that advances leads there. -/
  onGrid : OnGrid start ∨ (∃ m ∈ messages taken, m.heading?.isSome) → OnGrid s.1.position
  /-- It closes its end when it is over, and not before. -/
  standing : s.2.far.standing = if s.1.result?.isSome then .dropped else .active
  /-- It fails to write its position just if it starts off the grid and its first movement only
      turns it. -/
  malformed : (∃ fault, s.1.result? = some (.error (.message (.malformed fault)))) ↔
    ¬OnGrid start ∧ ∃ heading, (messages taken).find? Message.isMovement =
      some (.movement heading .turnOnly)
  /-- In some turns it has done all that it can do. -/
  rests : ∃ k, s.1.run s.2 = machine.run (List.replicate k .go) s ∧
    machine.step .go (s.1.run s.2) = s.1.run s.2
  /-- Then it has met its fate, and what it said has been heard or is on its way. -/
  fate : machine.step .go s = s → ∃ said, heard ++ s.2.near.arriving = said.map Message.bytes ∧
    ∀ taken' said' result?, Fate start tokens closed taken' said' result? ↔
      taken' = taken ∧ said' = said ∧ result? = s.1.result?

/-- However a robot and its peer take turns, the robot meets the fate that its start and the tokens
    decide. -/
theorem meets_fate (start : Point) (n : Nat) (turns : List Turn) :
    MeetsFate start (sent turns) (.hangUp ∈ turns) (machine.log taking turns (outset start n))
      (machine.log hearing turns (outset start n)) (machine.run turns (outset start n)) := by
  have hstands := stands_run start n turns
  obtain ⟨said, haccount, -⟩ := hstands.account
  constructor
  case takes => exact haccount.taken_isPrefix
  case position => exact haccount.position_eq
  case onGrid => exact fun h => haccount.position_eq ▸ onGrid_positionAfter h
  case standing => exact haccount.standing_eq
  case malformed => exact haccount.malformed_iff
  case rests => exact ⟨_, run_eq _ _, rests_run _ _⟩
  case fate =>
    intro hrests
    obtain ⟨said, hfate, hsaid⟩ := hstands.fate hrests
    refine ⟨said, hsaid, fun taken' said' result?' => ⟨fun h => h.unique hfate, ?_⟩⟩
    rintro ⟨rfl, rfl, rfl⟩
    exact hfate

end Robot

end GridRobot
