import GridRobot.Proofs.Robot.Walk

/-!
# The fate of a robot

What comes of a robot is told by where it starts and by the tokens that its peer
sends (`Robot.Fate`): it announces itself, takes the tokens one by one, as long
as they are messages that do not end the route and it can tell its position after
each movement (`Robot.Travels`), and then

* it waits for more tokens, if its peer has not hung up, and ends well otherwise;
* or the next token ends it (`Robot.Stop`): the end of the route, a token that is
  no message, or a movement that only turns it where it is off the grid.

No robot has two fates (`Robot.Fate.unique`), and the one in which a position
cannot be written is that of a robot that starts off the grid and has to turn
before it advances (`Robot.Fate.malformed_iff`).
-/

namespace GridRobot

/-- What is wrong with a token is not the payload of a message. -/
theorem classifyBytes_ne_malformed (t : Token) (fault : PayloadFault) :
    classifyBytes t ≠ .error (.malformed fault) := by
  intro h
  rw [classifyBytes, classify, classifyPrefix] at h
  cases hread : readMessage (tokenOfBytes t).toList with
  | some found =>
    rw [hread] at h
    cases h
  | none =>
    rw [hread] at h
    have hofToken : MessageError.ofToken (tokenOfBytes t).toList = .malformed fault :=
      Except.error.inj h
    rw [MessageError.ofToken] at hofToken
    split at hofToken <;> cases hofToken

namespace Robot

variable {start : Point} {tokens : List Token} {closed : Bool} {t : Token}
  {ms reports farewell : List Message}

/-! ### What tokens mean to a robot -/

/-- A robot from `start` that took the tokens goes on listening: they are the messages `ms`, which
    do not end the route, and `reports` tell its position after each movement. -/
structure Travels (start : Point) (tokens : List Token) (ms reports : List Message) : Prop where
  classified : tokens.map classifyBytes = ms.map .ok
  goesOn : .finish ∉ ms
  reported : (stops start ms).map Message.location? = reports.map .ok

/-- How a robot from `start` that was told `ms` comes to its end, if `rest` is what it has still to
    take: it takes `last` of it and says `farewell`. -/
inductive Stop (start : Point) (ms : List Message) (closed : Bool) :
    (rest last : List Token) → (farewell : List Message) → Except Failure Unit → Prop
  | finished {t : Token} (later : List Token) (ht : classifyBytes t = .ok .finish) :
    Stop start ms closed (t :: later) [t] [.done] (.ok ())
  | unclassified {t : Token} {e : MessageError} (later : List Token)
    (ht : classifyBytes t = .error e) :
    Stop start ms closed (t :: later) [t] [] (.error (.message e))
  | offGrid {t : Token} {heading : Direction} {e : MessageError} (later : List Token)
    (ht : classifyBytes t = .ok (.movement heading .turnOnly))
    (hposition : ¬OnGrid (positionAfter start ms))
    (he : Message.location? (positionAfter start ms) = .error e) :
    Stop start ms closed (t :: later) [t] [] (.error (.message e))
  | hungUp (hclosed : closed = true) : Stop start ms closed [] [] [] (.ok ())

/-- What comes of a robot from `start` whose peer sent the tokens, and then hung up if `closed`:
    which of them it takes, what it replies, and its result if it does not wait. -/
inductive Fate (start : Point) (tokens : List Token) (closed : Bool) :
    List Token → List Message → Option (Except Failure Unit) → Prop
  | waits {ms reports : List Message} (h : Travels start tokens ms reports)
    (hclosed : closed = false) : Fate start tokens closed tokens (.stateChange :: reports) none
  | stops {handled rest last : List Token} {ms reports farewell : List Message}
    {result : Except Failure Unit} (h : Travels start handled ms reports)
    (htokens : handled ++ rest = tokens) (hstop : Stop start ms closed rest last farewell result) :
    Fate start tokens closed (handled ++ last) (.stateChange :: reports ++ farewell) (some result)

theorem travels_nil (start : Point) : Travels start [] [] [] := ⟨rfl, List.not_mem_nil, rfl⟩

namespace Travels

variable {tokens : List Token} {ms reports : List Message} {m answer : Message}

theorem concat (h : Travels start tokens ms reports) (ht : classifyBytes t = .ok m)
    (hm : m ≠ .finish) {answers : List Message} (hanswers :
      (stops start (ms ++ [m])).map Message.location? = (reports ++ answers).map .ok) :
    Travels start (tokens ++ [t]) (ms ++ [m]) (reports ++ answers) := by
  refine ⟨?_, ?_, hanswers⟩
  · rw [List.map_append, List.map_append, h.classified, List.map_singleton, ht]
    rfl
  · rw [List.mem_append, List.mem_singleton, not_or]
    exact ⟨h.goesOn, Ne.symm hm⟩

/-- A movement after which the robot can tell its position. -/
theorem concat_movement {heading : Direction} {motion : Motion}
    (h : Travels start tokens ms reports)
    (ht : classifyBytes t = .ok (.movement heading motion))
    (hanswer : Message.location? (moved heading motion (positionAfter start ms)) = .ok answer) :
    Travels start (tokens ++ [t]) (ms ++ [.movement heading motion]) (reports ++ [answer]) := by
  refine h.concat ht nofun ?_
  rw [stops_concat_movement, List.map_append, List.map_append, h.reported, List.map_singleton,
    hanswer]
  rfl

/-- Other messages get no reply. -/
theorem concat_of_not (h : Travels start tokens ms reports) (ht : classifyBytes t = .ok m)
    (hfinish : m ≠ .finish) (hm : m.isMovement = false) :
    Travels start (tokens ++ [t]) (ms ++ [m]) reports := by
  have hreported : (stops start (ms ++ [m])).map Message.location? = (reports ++ []).map .ok := by
    rw [stops_concat_of_not hm, List.append_nil, h.reported]
  exact (List.append_nil reports) ▸ h.concat ht hfinish hreported

theorem onGrid_of_mem_stops (h : Travels start tokens ms reports) {p : Point}
    (hp : p ∈ Robot.stops start ms) : OnGrid p := by
  refine exists_location?_iff.1 ?_
  have hmem : Message.location? p ∈ reports.map Except.ok :=
    h.reported ▸ List.mem_map_of_mem hp
  obtain ⟨m, -, hm⟩ := List.mem_map.1 hmem
  exact ⟨m, hm.symm⟩

end Travels

namespace Stop

variable {rest last : List Token} {result : Except Failure Unit}

theorem mono (h : Stop start ms closed rest last farewell result) {closed' : Bool}
    (hclosed : closed = true → closed' = true) :
    Stop start ms closed' rest last farewell result := by
  cases h with
  | finished later ht => exact .finished later ht
  | unclassified later ht => exact .unclassified later ht
  | offGrid later ht hposition he => exact .offGrid later ht hposition he
  | hungUp h => exact .hungUp (hclosed h)

/-- Tokens that are sent after the one that ended a robot change nothing. -/
theorem concat (h : Stop start ms closed rest last farewell result) (hclosed : closed = false)
    (t : Token) : Stop start ms closed (rest ++ [t]) last farewell result := by
  cases h with
  | finished later ht => exact .finished (later ++ [t]) ht
  | unclassified later ht => exact .unclassified (later ++ [t]) ht
  | offGrid later ht hposition he => exact .offGrid (later ++ [t]) ht hposition he
  | hungUp h => cases hclosed.symm.trans h

/-- It takes no more than there is. -/
theorem last_isPrefix (h : Stop start ms closed rest last farewell result) : last <+: rest := by
  cases h with
  | finished later => exact List.prefix_append _ later
  | unclassified later => exact List.prefix_append _ later
  | offGrid later => exact List.prefix_append _ later
  | hungUp => exact List.prefix_rfl

theorem unique (h : Stop start ms closed rest last farewell result) {last' : List Token}
    {farewell' : List Message} {result' : Except Failure Unit}
    (h' : Stop start ms closed rest last' farewell' result') :
    last = last' ∧ farewell = farewell' ∧ result = result' := by
  cases h with
  | finished _ ht =>
    cases h' with
    | finished => exact ⟨rfl, rfl, rfl⟩
    | unclassified _ ht' => cases ht.symm.trans ht'
    | offGrid _ ht' => cases ht.symm.trans ht'
  | unclassified _ ht =>
    cases h' with
    | finished _ ht' => cases ht.symm.trans ht'
    | unclassified _ ht' =>
      cases ht.symm.trans ht'
      exact ⟨rfl, rfl, rfl⟩
    | offGrid _ ht' => cases ht.symm.trans ht'
  | offGrid _ ht _ he =>
    cases h' with
    | finished _ ht' => cases ht.symm.trans ht'
    | unclassified _ ht' => cases ht.symm.trans ht'
    | offGrid _ _ _ he' =>
      cases he.symm.trans he'
      exact ⟨rfl, rfl, rfl⟩
  | hungUp =>
    cases h' with
    | hungUp => exact ⟨rfl, rfl, rfl⟩

/-- No robot takes the token at which it would have ended, and goes on. -/
theorem not_travels {handled later after : List Token} {ms' reports' : List Message}
    (h : Stop start ms closed (t :: later) last farewell result)
    (hms : handled.map classifyBytes = ms.map .ok)
    (htravels : Travels start (handled ++ t :: after) ms' reports') : False := by
  obtain ⟨before, more, rfl, hbefore, hmore⟩ :=
    List.append_eq_map_iff.1 (List.map_append.symm.trans htravels.classified)
  obtain rfl : ms = before :=
    List.map_injective_iff.2 (fun _ _ => Except.ok.inj) (hms.symm.trans hbefore.symm)
  obtain ⟨m, more, rfl, hm, -⟩ := List.map_eq_cons_iff.1 hmore
  cases h with
  | finished _ ht =>
    cases ht.symm.trans hm.symm
    exact htravels.goesOn (List.mem_append_right ms List.mem_cons_self)
  | unclassified _ ht => cases ht.symm.trans hm.symm
  | offGrid _ ht hposition _ =>
    cases ht.symm.trans hm.symm
    refine hposition ?_
    have hgrid := htravels.onGrid_of_mem_stops (mem_stops rfl start ms more)
    rwa [positionAfter_concat rfl] at hgrid

end Stop

/-- A robot travels through some tokens in one way. -/
theorem Travels.unique {ms' reports' : List Message} (h : Travels start tokens ms reports)
    (h' : Travels start tokens ms' reports') : ms = ms' ∧ reports = reports' := by
  have hok : Function.Injective (List.map (Except.ok : Message → Except MessageError Message)) :=
    List.map_injective_iff.2 fun _ _ => Except.ok.inj
  obtain rfl := hok (h.classified.symm.trans h'.classified)
  exact ⟨rfl, hok (h.reported.symm.trans h'.reported)⟩

/-- No robot travels further than to where it stops. -/
theorem Stop.isPrefix {handled handled' rest rest' last : List Token} {ms' reports' : List Message}
    {result : Except Failure Unit} (hstop : Stop start ms closed rest last farewell result)
    (h : Travels start handled ms reports) (h' : Travels start handled' ms' reports')
    (htokens : handled ++ rest = handled' ++ rest') : handled' <+: handled := by
  rcases List.append_eq_append_iff.1 htokens with ⟨more, rfl, rfl⟩ | ⟨more, rfl, -⟩
  · cases more with
    | nil => exact (List.append_nil handled).symm ▸ List.prefix_rfl
    | cons t after => exact (hstop.not_travels h.classified h').elim
  · exact List.prefix_append handled' more

theorem Stop.not_waits {handled rest last : List Token} {ms' reports' : List Message}
    {result : Except Failure Unit} (hstop : Stop start ms closed rest last farewell result)
    (h : Travels start handled ms reports) (hclosed : closed = false) :
    ¬Travels start (handled ++ rest) ms' reports' := by
  intro h'
  have hlength := (hstop.isPrefix h h' (List.append_nil _).symm).length_le
  rw [List.length_append] at hlength
  obtain rfl : rest = [] := List.length_eq_zero_iff.1 (by omega)
  cases hstop with
  | hungUp h => cases hclosed.symm.trans h

/-- A robot has one fate. -/
theorem Fate.unique {taken taken' : List Token} {said said' : List Message}
    {result? result?' : Option (Except Failure Unit)}
    (h : Fate start tokens closed taken said result?)
    (h' : Fate start tokens closed taken' said' result?') :
    taken = taken' ∧ said = said' ∧ result? = result?' := by
  cases h with
  | waits h hclosed =>
    cases h' with
    | waits h' =>
      obtain ⟨-, rfl⟩ := h.unique h'
      exact ⟨rfl, rfl, rfl⟩
    | stops h' htokens' hstop' => exact (hstop'.not_waits h' hclosed (htokens' ▸ h)).elim
  | stops h htokens hstop =>
    cases h' with
    | waits h' hclosed => exact (hstop.not_waits h hclosed (htokens ▸ h')).elim
    | stops h' htokens' hstop' =>
      have hsame := htokens.trans htokens'.symm
      have hforth := hstop.isPrefix h h' hsame
      obtain rfl := hforth.eq_of_length (Nat.le_antisymm hforth.length_le
        (hstop'.isPrefix h' h hsame.symm).length_le)
      obtain ⟨rfl, rfl⟩ := h.unique h'
      obtain rfl := List.append_cancel_left hsame
      obtain ⟨rfl, rfl, rfl⟩ := hstop.unique hstop'
      exact ⟨rfl, rfl, rfl⟩

/-! ### What a robot was told -/

/-- The messages among the tokens. -/
def messages (tokens : List Token) : List Message :=
  tokens.filterMap fun t => (classifyBytes t).toOption

theorem messages_append (tokens tokens' : List Token) :
    messages (tokens ++ tokens') = messages tokens ++ messages tokens' :=
  List.filterMap_append

theorem messages_of_ok {m : Message} (ht : classifyBytes t = .ok m) : messages [t] = [m] :=
  List.filterMap_cons_some (congrArg Except.toOption ht)

theorem messages_of_error {e : MessageError} (ht : classifyBytes t = .error e) :
    messages [t] = [] :=
  List.filterMap_cons_none (congrArg Except.toOption ht)

theorem Travels.messages_eq (h : Travels start tokens ms reports) : messages tokens = ms := by
  have hmessages : messages tokens = (tokens.map classifyBytes).filterMap Except.toOption := by
    rw [List.filterMap_map]
    rfl
  have hok : (ms.map (Except.ok : Message → Except MessageError Message)).filterMap
      Except.toOption = ms :=
    List.filterMap_map.trans List.filterMap_some
  rw [hmessages, h.classified, hok]

/-- What ends a robot does not move it. -/
theorem Stop.positionAfter_eq {rest last : List Token} {result : Except Failure Unit}
    (h : Stop start ms closed rest last farewell result) :
    positionAfter start (ms ++ messages last) = positionAfter start ms := by
  cases h with
  | finished later ht => rw [messages_of_ok ht, positionAfter_concat rfl]
  | unclassified later ht => rw [messages_of_error ht, List.append_nil]
  | offGrid later ht => rw [messages_of_ok ht, positionAfter_concat rfl]
  | hungUp => exact congrArg _ (List.append_nil ms)

/-- A robot that travels has told its position after its first movement. -/
theorem Travels.onGrid_of_turnOnly (h : Travels start tokens ms reports) {heading : Direction}
    (hfirst : ms.find? Message.isMovement = some (.movement heading .turnOnly)) :
    OnGrid start := by
  obtain ⟨-, before, after, rfl, hbefore⟩ := List.find?_eq_some_iff_append.1 hfirst
  have hgrid := h.onGrid_of_mem_stops (mem_stops rfl start before after)
  rwa [positionAfter_concat rfl, positionAfter_of_not fun m hm => by simpa using hbefore m hm]
    at hgrid

/-- A robot cannot write its position just if it starts off the grid, and has to turn before it
    advances. -/
theorem Fate.malformed_iff {taken : List Token} {said : List Message}
    {result? : Option (Except Failure Unit)} (h : Fate start tokens closed taken said result?) :
    (∃ fault, result? = some (.error (.message (.malformed fault)))) ↔
      ¬OnGrid start ∧ ∃ heading, (messages taken).find? Message.isMovement =
        some (.movement heading .turnOnly) := by
  constructor
  · rintro ⟨fault, rfl⟩
    cases h with
    | @stops handled _ _ ms _ _ _ h _ hstop =>
      cases hstop with
      | unclassified later ht => exact (classifyBytes_ne_malformed _ fault ht).elim
      | @offGrid t heading _ later ht hposition he =>
        refine ⟨fun hgrid => hposition (onGrid_positionAfter (.inl hgrid)), heading, ?_⟩
        have hnone : ms.find? Message.isMovement = none := by
          refine List.find?_eq_none.2 fun m hm hmoves => hposition ?_
          exact onGrid_of_stops (fun _ => h.onGrid_of_mem_stops) ⟨m, hm, hmoves⟩
        rw [messages_append, h.messages_eq, messages_of_ok ht, List.find?_append, hnone]
        rfl
  · rintro ⟨hstart, heading, hfirst⟩
    cases h with
    | waits h =>
      rw [h.messages_eq] at hfirst
      exact (hstart (h.onGrid_of_turnOnly hfirst)).elim
    | @stops handled _ last ms _ _ _ h _ hstop =>
      have hnot : ms.find? Message.isMovement ≠ some (.movement heading .turnOnly) :=
        fun hfirst => hstart (h.onGrid_of_turnOnly hfirst)
      rw [messages_append, h.messages_eq, List.find?_append] at hfirst
      have hmoves (hlast : (messages last).find? Message.isMovement = none) : False :=
        hnot (by rwa [hlast, Option.or_none] at hfirst)
      cases hstop with
      | finished later ht => exact (hmoves (messages_of_ok ht ▸ rfl)).elim
      | unclassified later ht => exact (hmoves (messages_of_error ht ▸ rfl)).elim
      | offGrid later ht hposition he =>
        obtain ⟨axis, n, hfault⟩ := location?_of_not_onGrid hposition
        cases he.symm.trans hfault
        exact ⟨_, rfl⟩
      | hungUp hclosed => exact (hmoves rfl).elim

end Robot

end GridRobot
