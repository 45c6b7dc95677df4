import GridRobot.Link.Scripted
import GridRobot.Proofs.Station.Junction

/-!
# What is received is what arrived

Tokens come to a station from the readers of bridges, as bytes, and directly, as
text. Whatever happens and in whatever order: of each token it is told once, in
its turn, which message it is or why it is none, or it is still in the queue.
What is told of a token that came as bytes is what classifying these bytes gives
(`Junction.delivered_received`). A token that is no message is no end of the
loop that took it.
-/

namespace GridRobot

/-- What is told of a token, given what it is classified as. -/
def ReceivedEvent.ofResult (token : String) : Except MessageError Message → ReceivedEvent
  | .ok m => .accepted m
  | .error e => .rejected token e

/-- A token as it comes to a station. -/
inductive Entry
  | bytes (t : Token)
  | text (token : String)

namespace Entry

/-- The token as it is queued. -/
def token : Entry → String
  | bytes t => tokenOfBytes t
  | text token => token

/-- What is to be told of the token. -/
def event : Entry → ReceivedEvent
  | bytes t => .ofResult (tokenOfBytes t) (classifyBytes t)
  | text token => .ofResult token (classify token)

theorem receiving_token (e : Entry) : (receiving e.token).1 = e.event := by
  have h (token : String) : (receiving token).1 = .ofResult token (classify token) := by
    rw [receiving]
    cases classify token <;> rfl
  cases e with
  | bytes t => exact h (tokenOfBytes t)
  | text token => exact h token

end Entry

namespace Station

/-- The number of the next subscription to what is received. -/
def nextReceived (s : Station) : Nat := s.inbound.worker.events.next

/-- The tokens still to be classified. -/
def unclassified (s : Station) : List String := s.inbound.worker.queue.items

end Station

namespace Junction

variable {σ : Type} [Link σ]

/-- The token that comes to the station. -/
def entered : Act σ → Junction σ → List Entry
  | .station (.accept token), _ => [.text token]
  | .read j, s => ((s.token? j).map .bytes).toList
  | _, _ => []

/-- The event that the `i`-th subscription to what is received finds. -/
def foundReceived (i : Nat) : Act σ → Junction σ → List ReceivedEvent
  | .station act, s => Station.foundReceived i act s.station
  | _, _ => []

/-- The events that are delivered to the `i`-th subscription to what is received: those that it
    finds in a run, then those that wait for it. -/
def deliveredReceived (i : Nat) (acts : List (Act σ)) (s : Junction σ) : List ReceivedEvent :=
  machine.log (foundReceived i) acts s ++
    (machine.run acts s).station.inbound.worker.events.pending i

/-- What happens to the tokens received. -/
def inboundFeed : Simulation (machine : Machine (Act σ) (Junction σ)) (Feed.machine receiving) :=
  onStation.comp Station.inboundFeed

theorem see_pushed_inbound :
    inboundFeed.see Feed.pushed =
      fun (act : Act σ) s => (entered act s).map Entry.token := by
  rw [inboundFeed, Simulation.comp_see, Station.see_pushed_inbound]
  funext act s
  cases act with
  | station act => cases act <;> rfl
  | write j =>
    refine Machine.log_eq_nil _ (fun act hact t => ?_) _
    obtain ⟨call, -, rfl⟩ := List.mem_map.1 hact
    rfl
  | read j =>
    show Machine.log _ _ ((s.token? j).map _).toList _ = ((s.token? j).map _).toList.map _
    cases s.token? j <;> rfl
  | _ => rfl

theorem see_found_inbound (i : Nat) :
    inboundFeed.see (Feed.found i) = (foundReceived i : Act σ → Junction σ → _) := by
  rw [inboundFeed, Simulation.comp_see, Station.see_found_inbound]
  funext act s
  cases act with
  | station act => exact List.append_nil _
  | write j =>
    refine Machine.log_eq_nil _ (fun act hact t => ?_) _
    obtain ⟨call, -, rfl⟩ := List.mem_map.1 hact
    rfl
  | read j =>
    show Machine.log _ _ ((s.token? j).map _).toList _ = []
    cases s.token? j <;> rfl
  | _ => rfl

theorem delivered_inboundFeed (i : Nat) (acts : List (Act σ)) (s : Junction σ) :
    Feed.delivered inboundFeed i acts s = deliveredReceived i acts s := by
  rw [Feed.delivered, see_found_inbound]
  rfl

theorem eq_tickInbound_of_mem {act : Act σ} {s : Junction σ}
    (h : .tick ∈ inboundFeed.acts act s) : ∃ i, act = .station (.tickInbound i) := by
  obtain ⟨act', hact', t, ht⟩ := Machine.exists_of_mem_log _ h
  obtain ⟨i, rfl⟩ := Station.eq_tickInbound_of_mem ht
  rcases eq_station_of_mem hact' with rfl | ⟨c, h⟩ | ⟨token, h⟩
  · exact ⟨i, rfl⟩
  · cases h
  · cases h

theorem eq_received_of_mem {act : Act σ} {s : Junction σ} {c : Publisher.Call}
    (h : .events c ∈ inboundFeed.acts act s) : act = .station (.received c) := by
  obtain ⟨act', hact', t, ht⟩ := Machine.exists_of_mem_log _ h
  obtain rfl := Station.eq_received_of_mem ht
  rcases eq_station_of_mem hact' with rfl | ⟨c, h⟩ | ⟨token, h⟩
  · rfl
  · cases h
  · cases h

/-- No inbound loop of a junction gets to its end unless it is asked to stop. -/
theorem endsOnRequest_run (acts : List (Act σ)) {s : Junction σ}
    (h : s.station.inbound.EndsOnRequest) :
    (machine.run acts s).station.inbound.EndsOnRequest := by
  have hrun := (onStation.comp Station.inboundLane).view_run acts s
  have hlane : (machine.run acts s).station.inbound = _ := hrun
  rw [hlane]
  exact Lane.endsOnRequest_run Station.tick_inboundFeed _ h

/-- Of the tokens that came to a station, some have been taken and the others are queued. Each of
    those taken has been told to a subscription made before the first tick, once and in order: the
    message that it is, or why it is none. No loop ends by a token: one that is over was asked to
    stop, and one that ticks looks again whether it should, whatever came of the tick. -/
theorem delivered_received (c : Cadence) {before after : List (Act σ)} {s t u : Junction σ}
    (hs : s = machine.run before { station := .create c })
    (hbefore : ∀ i, .station (.tickInbound i) ∉ before)
    (ht : t = machine.step (.station (.received .subscribe)) s)
    (hafter : .station (.received (.drop s.station.nextReceived)) ∉ after)
    (hu : u = machine.run after t) :
    (∃ drained queued,
      machine.log entered before { station := .create c } ++ machine.log entered after t =
          drained ++ queued ∧
        deliveredReceived s.station.nextReceived after t = drained.map Entry.event ∧
        u.station.unclassified = queued.map Entry.token) ∧
      u.station.inbound.EndsOnRequest ∧
      ∀ i l, u.station.inbound.loops[i]? = some l → l.isWaiting = true →
        (machine.step (.station (.tickInbound i)) u).station.inbound.loops[i]? = some
          { l with
            stats := l.stats.record (u.station.inbound.worker.tick receiving).1
            phase := .checking } := by
  have hticks : ∀ act ∈ before, ∀ u, .tick ∉ inboundFeed.acts act u := by
    intro act hact u hu
    obtain ⟨i, rfl⟩ := eq_tickInbound_of_mem hu
    exact hbefore i hact
  have hdrops : ∀ act ∈ after, ∀ u,
      .events (.drop s.station.nextReceived) ∉ inboundFeed.acts act u :=
    fun act hact u hu => hafter (eq_received_of_mem hu ▸ hact)
  have hnext : (inboundFeed.view (machine.run before { station := .create c })).events.next =
      s.station.nextReceived := by
    rw [hs]
    rfl
  have hnew : inboundFeed.view t =
      (inboundFeed.view (machine.run before { station := .create c })).subscribe := by
    rw [ht, hs]
    rfl
  refine ⟨?_, ?_, fun i l hl hw => Lane.getElem?_tickAt hl hw rfl⟩
  · obtain ⟨taken, hqueue, hdelivered⟩ :=
      Feed.delivered_of_subscribe inboundFeed rfl hticks hnext hnew hdrops
    rw [see_pushed_inbound, machine.log_map, machine.log_map, ← List.map_append] at hqueue
    -- Where the queued tokens are cut off, the tokens as they came are cut off as well.
    obtain ⟨drained, queued, hentered, hdrained, hqueued⟩ := List.map_eq_append_iff.1 hqueue
    refine ⟨drained, queued, hentered, ?_, ?_⟩
    · rw [← delivered_inboundFeed, hdelivered, ← hdrained, List.map_map]
      exact List.map_congr_left fun e _ => e.receiving_token
    · rw [hqueued, hu]
      rfl
  · have hwhole : u = machine.run (before ++ .station (.received .subscribe) :: after)
        { station := .create c } := by
      rw [hu, ht, hs, machine.run_append]
      rfl
    rw [hwhole]
    exact endsOnRequest_run _ fun l hl => absurd hl List.not_mem_nil

/-- Bytes that are no message end no loop; what comes after them is taken by it or, when it was
    shut down, by its successor. -/
theorem delivered_received_restart :
    let link : ScriptedLink := { arrivals := [.token [255], .token [68]] }
    let before : List (Act ScriptedLink) := [.spawn link, .station (.startInbound 5), .read 0]
    let after : List (Act ScriptedLink) := [.station (.checkInbound 0 0),
      .station (.tickInbound 0), .station (.accept ""), .read 0, .station .beginShutdown,
      .station (.checkInbound 5 0), .station (.startInbound 0), .station (.checkInbound 5 1),
      .station (.tickInbound 1), .station (.checkInbound 5 1), .station (.tickInbound 1),
      .station (.accept "D"), .station (.checkInbound 5 1)]
    let s := machine.run before { station := .create default }
    let t := machine.step (.station (.received .subscribe)) s
    let u := machine.run after t
    (∀ i, .station (.tickInbound i) ∉ before) ∧
      .station (.received (.drop s.station.nextReceived)) ∉ after ∧
      deliveredReceived s.station.nextReceived after t =
        [.rejected "\uFFFD" (.unrecognised none "\uFFFD"), .rejected "" .emptyToken,
          .accepted .done] ∧
      (∃ drained queued,
        machine.log entered before { station := .create default } ++ machine.log entered after t =
            drained ++ queued ∧
          deliveredReceived s.station.nextReceived after t = drained.map Entry.event ∧
          u.station.unclassified = queued.map Entry.token) ∧
      u.station.inbound.EndsOnRequest ∧
      ((machine.step (.station (.tickInbound 1)) u).station.inbound.loops[1]?.map
        PollLoop.phase) = some .checking := by
  intro link before after s t u
  have hbefore : ∀ i, .station (.tickInbound i) ∉ before := by simp [before]
  have hafter : .station (.received (.drop s.station.nextReceived)) ∉ after := by simp [after]
  obtain ⟨hdelivered, hends, htick⟩ := delivered_received default rfl hbefore rfl hafter rfl
  have hwaiting : u.station.inbound.loops[1]? =
      some { wait := 0, stats := ⟨2, 1, 1⟩, phase := .waiting 5 } := by decide
  refine ⟨hbefore, hafter, by decide, hdelivered, hends, ?_⟩
  exact congrArg (Option.map PollLoop.phase) (htick 1 _ hwaiting rfl)

end Junction

end GridRobot
