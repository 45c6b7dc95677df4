import GridRobot.Proofs.Lane
import GridRobot.Station.Basic

/-!
# Runs of a station

A run of a station is any list of what can happen to it (`Station.Act`): calls,
and single steps of its loops. Nothing is said about when a loop takes its
steps, so that a run may be any interleaving of them. A shutdown is where the
run has its `beginShutdown`; waiting for its end changes nothing.

Each lane of a station sees the run as a run of its own
(`Station.outboundLane`, `Station.inboundLane`), and so does the feed of each
lane (`Station.outboundFeed`, `Station.inboundFeed`). What can be observed of a
feed is what can be observed of the station: the items that are queued and the
events that are found.
-/

namespace GridRobot

namespace Station

/-- What can happen to a station. -/
inductive Act
  | enqueue (m : Message)
  | accept (token : String)
  /-- Something is done with the subscriptions to what is sent. -/
  | sent (c : Publisher.Call)
  /-- Something is done with the subscriptions to what is received. -/
  | received (c : Publisher.Call)
  | startOutbound (wait : Nat)
  | startInbound (wait : Nat)
  | start
  | requestStopOutbound
  | requestStopInbound
  | beginShutdown
  /-- The `i`-th outbound loop looks whether it should stop. -/
  | checkOutbound (now i : Nat)
  | checkInbound (now i : Nat)
  /-- The `i`-th outbound loop ticks, if it is about to. -/
  | tickOutbound (i : Nat)
  | tickInbound (i : Nat)

/-- Does something with the subscriptions to what is sent. -/
def callSent (c : Publisher.Call) : Station → Station :=
  updateOutbound fun f => { f with events := f.events.perform c }

/-- Does something with the subscriptions to what is received. -/
def callReceived (c : Publisher.Call) : Station → Station :=
  updateInbound fun f => { f with events := f.events.perform c }

/-- A call that fails changes nothing. -/
def machine : Machine Act Station where
  step
    | .enqueue m, s => s.enqueue m
    | .accept token, s => s.accept token
    | .sent c, s => s.callSent c
    | .received c, s => s.callReceived c
    | .startOutbound wait, s => (s.startOutbound wait).toOption.getD s
    | .startInbound wait, s => (s.startInbound wait).toOption.getD s
    | .start, s => s.start.2
    | .requestStopOutbound, s => s.requestStopOutbound
    | .requestStopInbound, s => s.requestStopInbound
    | .beginShutdown, s => s.beginShutdown.2
    | .checkOutbound now i, s => { s with outbound := s.outbound.checkAt now i }
    | .checkInbound now i, s => { s with inbound := s.inbound.checkAt now i }
    | .tickOutbound i, s => { s with outbound := s.outbound.tickAt i }
    | .tickInbound i, s => { s with inbound := s.inbound.tickAt i }

/-! ### Starting loops -/

theorem startOutbound_getD (wait : Nat) (s : Station) :
    (s.startOutbound wait).toOption.getD s = { s with outbound := s.outbound.tryStart wait } := by
  rw [startOutbound, Lane.tryStart]
  cases s.outbound.start wait <;> rfl

theorem startInbound_getD (wait : Nat) (s : Station) :
    (s.startInbound wait).toOption.getD s = { s with inbound := s.inbound.tryStart wait } := by
  rw [startInbound, Lane.tryStart]
  cases s.inbound.start wait <;> rfl

/-- Starting both loops starts the inbound one only if the outbound one could be started. -/
theorem start_snd (s : Station) :
    s.start.2 = { s with
      outbound := s.outbound.tryStart s.cadence.outbound.toMillis
      inbound :=
        if (s.outbound.start s.cadence.outbound.toMillis).toBool then
          s.inbound.tryStart s.cadence.inbound.toMillis
        else s.inbound } := by
  rw [start, startOutbound, Lane.tryStart, Lane.tryStart]
  cases s.outbound.start s.cadence.outbound.toMillis with
  | error e => rfl
  | ok a =>
    dsimp only [bind, pure, Except.bind, Except.pure, startInbound]
    cases s.inbound.start s.cadence.inbound.toMillis <;> rfl

/-! ### The lanes -/

/-- What happens to the outbound lane of a station. -/
def outboundLane : Simulation machine (Lane.machine : Machine _ (Lane OutboundFeed)) where
  view := Station.outbound
  acts
    | .enqueue m, _ => [.push m]
    | .sent c, _ => [.events c]
    | .startOutbound wait, _ => [.start wait]
    | .start, s => [.start s.cadence.outbound.toMillis]
    | .requestStopOutbound, _ => [.requestStop]
    | .beginShutdown, _ => [.detach]
    | .checkOutbound now i, _ => [.check now i]
    | .tickOutbound i, _ => [.tick i]
    | _, _ => []
  view_step act s := by
    cases act with
    | startOutbound wait => exact congrArg outbound (s.startOutbound_getD wait)
    | startInbound wait => exact (congrArg outbound (s.startInbound_getD wait)).trans rfl
    | start => exact congrArg outbound s.start_snd
    | _ => rfl

/-- What happens to the inbound lane of a station. -/
def inboundLane : Simulation machine (Lane.machine : Machine _ (Lane InboundFeed)) where
  view := Station.inbound
  acts
    | .accept token, _ => [.push token]
    | .received c, _ => [.events c]
    | .startInbound wait, _ => [.start wait]
    | .start, s =>
      if (s.outbound.start s.cadence.outbound.toMillis).toBool then
        [.start s.cadence.inbound.toMillis]
      else []
    | .requestStopInbound, _ => [.requestStop]
    | .beginShutdown, _ => [.detach]
    | .checkInbound now i, _ => [.check now i]
    | .tickInbound i, _ => [.tick i]
    | _, _ => []
  view_step act s := by
    cases act with
    | startOutbound wait => exact (congrArg inbound (s.startOutbound_getD wait)).trans rfl
    | startInbound wait => exact congrArg inbound (s.startInbound_getD wait)
    | start =>
      -- The inbound loop is not started if the outbound one could not be.
      refine (congrArg inbound s.start_snd).trans ?_
      dsimp only
      split
      · rfl
      · rfl
    | _ => rfl

theorem tick_outboundFeed (f : OutboundFeed) : Worker.tick f = (f.tick sending).map some id := rfl

theorem tick_inboundFeed (f : InboundFeed) : Worker.tick f = (f.tick receiving).map some id := rfl

/-- What happens to the messages to be sent. -/
def outboundFeed : Simulation machine (Feed.machine sending) :=
  outboundLane.comp (Lane.feed tick_outboundFeed)

/-- What happens to the tokens received. -/
def inboundFeed : Simulation machine (Feed.machine receiving) :=
  inboundLane.comp (Lane.feed tick_inboundFeed)

/-! ### What is seen of a run -/

/-- The message that is queued for sending. -/
def Act.enqueued? : Act → Option Message
  | .enqueue m => some m
  | _ => none

/-- The token that is queued for classifying. -/
def Act.accepted? : Act → Option String
  | .accept token => some token
  | _ => none

/-- The message that is taken for sending. -/
def takenSent : Act → Station → List Message
  | .tickOutbound i, s => Lane.taken (.tick i) s.outbound
  | _, _ => []

/-- The token that is taken for classifying. -/
def takenReceived : Act → Station → List String
  | .tickInbound i, s => Lane.taken (.tick i) s.inbound
  | _, _ => []

/-- The event that the `i`-th subscription to what is sent finds. -/
def foundSent (i : Nat) : Act → Station → List SentEvent
  | .sent c, s => Publisher.found i c s.outbound.worker.events
  | _, _ => []

/-- The event that the `i`-th subscription to what is received finds. -/
def foundReceived (i : Nat) : Act → Station → List ReceivedEvent
  | .received c, s => Publisher.found i c s.inbound.worker.events
  | _, _ => []

theorem see_pushed_outbound :
    outboundFeed.see Feed.pushed = fun act _ => act.enqueued?.toList := by
  rw [outboundFeed, Simulation.comp_see, Lane.see_pushed]
  funext act s
  cases act <;> rfl

theorem see_taken_outbound : outboundFeed.see Feed.taken = takenSent := by
  rw [outboundFeed, Simulation.comp_see, Lane.see_taken]
  funext act s
  cases act with
  | tickOutbound i => exact List.append_nil _
  | _ => rfl

theorem see_found_outbound (i : Nat) : outboundFeed.see (Feed.found i) = foundSent i := by
  rw [outboundFeed, Simulation.comp_see, Lane.see_found]
  funext act s
  cases act with
  | sent c => exact List.append_nil _
  | _ => rfl

/-- The call that starts both loops starts the inbound one or does nothing there. -/
theorem see_inbound_start {β : Type} {seen : Lane.Act String → Lane InboundFeed → List β}
    (hseen : ∀ wait a, seen (.start wait) a = []) (s : Station) :
    inboundLane.see seen .start s = [] := by
  show Machine.log _ _ (if _ then _ else _) _ = []
  split
  · exact (List.append_nil _).trans (hseen _ _)
  · rfl

theorem see_pushed_inbound : inboundFeed.see Feed.pushed = fun act _ => act.accepted?.toList := by
  rw [inboundFeed, Simulation.comp_see, Lane.see_pushed]
  funext act s
  cases act with
  | start => exact see_inbound_start (fun _ _ => rfl) s
  | _ => rfl

theorem see_taken_inbound : inboundFeed.see Feed.taken = takenReceived := by
  rw [inboundFeed, Simulation.comp_see, Lane.see_taken]
  funext act s
  cases act with
  | tickInbound i => exact List.append_nil _
  | start => exact see_inbound_start (fun _ _ => rfl) s
  | _ => rfl

theorem see_found_inbound (i : Nat) : inboundFeed.see (Feed.found i) = foundReceived i := by
  rw [inboundFeed, Simulation.comp_see, Lane.see_found]
  funext act s
  cases act with
  | received c => exact List.append_nil _
  | start => exact see_inbound_start (fun _ _ => rfl) s
  | _ => rfl

variable {act : Act} {s : Station} {c : Publisher.Call}

theorem eq_tickOutbound_of_mem (h : .tick ∈ outboundFeed.acts act s) :
    ∃ i, act = .tickOutbound i := by
  obtain ⟨act', hact', a, ha⟩ := Machine.exists_of_mem_log _ h
  obtain ⟨i, rfl⟩ := Lane.eq_tick_of_mem ha
  cases act with
  | tickOutbound i => exact ⟨i, rfl⟩
  | _ => simp [outboundLane] at hact'

theorem eq_sent_of_mem (h : .events c ∈ outboundFeed.acts act s) : act = .sent c := by
  obtain ⟨act', hact', a, ha⟩ := Machine.exists_of_mem_log _ h
  obtain rfl := Lane.eq_events_of_mem ha
  cases act with
  | sent c' =>
    cases List.mem_singleton.1 hact'
    rfl
  | _ => simp [outboundLane] at hact'

theorem eq_tickInbound_of_mem (h : .tick ∈ inboundFeed.acts act s) :
    ∃ i, act = .tickInbound i := by
  obtain ⟨act', hact', a, ha⟩ := Machine.exists_of_mem_log _ h
  obtain ⟨i, rfl⟩ := Lane.eq_tick_of_mem ha
  cases act with
  | tickInbound i => exact ⟨i, rfl⟩
  | _ => simp [inboundLane] at hact'

theorem eq_received_of_mem (h : .events c ∈ inboundFeed.acts act s) : act = .received c := by
  obtain ⟨act', hact', a, ha⟩ := Machine.exists_of_mem_log _ h
  obtain rfl := Lane.eq_events_of_mem ha
  cases act with
  | received c' =>
    cases List.mem_singleton.1 hact'
    rfl
  | _ => simp [inboundLane] at hact'

end Station

end GridRobot
