import GridRobot.Proofs.Station.Junction

/-!
# Runs of a station with one bridge

A coupling is a station and a link; at some time in its run a bridge joins the
two. The tasks of the bridge take their steps one at a time and in any order,
among the steps of the station and whatever else happens to the link, such as
what the robot does at its other end. What other bridges of the station do is
seen here as what happens to the station.

The writer's subscription is its own: nobody else looks for its events or drops
it. Closing a bridge is one call, made at most once: it begins with a request
(`Coupling.Act.requestClose`) and returns when both tasks are over
(`Coupling.Act.close`).
-/

namespace GridRobot

theorem TaskState.eq_running {t : TaskState} (h : t.isRunning = true) : t = .running := by
  cases t with
  | running => rfl
  | _ => cases h

/-- The wire form of a message that was sent, as bytes. -/
def SentEvent.bytes (e : SentEvent) : Token := Utf8.encode e.wire.toList

theorem bytes_sending (m : Message) : (sending m).1.bytes = m.bytes := by
  rw [SentEvent.bytes, sending, Message.toList_encode, Message.bytes]

namespace Bridge

variable {σ : Type}

/-- The call that closes the bridge was made and can return. -/
def canClose (b : Bridge σ) : Bool := b.held && b.stopping && b.isFinished

variable [Link σ] {b : Bridge σ} {s : Station}

/-- What the writer hands to the link in its next step, and whether the link takes it. -/
def handed? (b : Bridge σ) (s : Station) : Option (Token × Except LinkError Unit) :=
  if b.writer.isRunning then
    match s.outbound.worker.events.pending b.feed with
    | e :: _ => some (e.bytes, (Link.send e.bytes b.link).1)
    | [] => none
  else none

/-- The writer rests, sends a message, fails to, or ends as it was asked to. -/
theorem writerStep_cases (b : Bridge σ) (s : Station)
    (halive : s.outbound.worker.events.handles.alive = true) :
    (b.writerStep s = (b, s) ∧ b.handed? s = none ∧
        (b.writer.isRunning = true →
          b.stopping = false ∧ s.outbound.worker.events.pending b.feed = [])) ∨
      (∃ e rest link, b.writer.isRunning = true ∧
        s.outbound.worker.events.pending b.feed = e :: rest ∧
        Link.send e.bytes b.link = (.ok (), link) ∧
        b.writerStep s = ({ b with link }, s.callSent (.poll b.feed)) ∧
        b.handed? s = some (e.bytes, .ok ())) ∨
      (∃ e rest fault link, b.writer.isRunning = true ∧
        s.outbound.worker.events.pending b.feed = e :: rest ∧
        Link.send e.bytes b.link = (.error fault, link) ∧
        (b.writerStep s).1 = { b with link, writer := .finished (.error fault) } ∧
        b.handed? s = some (e.bytes, .error fault)) ∨
      b.writer.isRunning = true ∧ s.outbound.worker.events.pending b.feed = [] ∧
        b.stopping = true ∧ (b.writerStep s).1 = { b with writer := .finished (.ok ()) } ∧
        b.handed? s = none := by
  rw [writerStep, handed?]
  by_cases hw : b.writer.isRunning = true
  · rw [if_pos hw, if_pos hw]
    cases hpending : s.outbound.worker.events.pending b.feed with
    | nil =>
      have hpoll : s.outbound.worker.events.poll b.feed = (.pending, s.outbound.worker.events) := by
        rw [Publisher.poll, hpending, halive]
        rfl
      rw [hpoll]
      by_cases hstop : b.stopping = true
      · exact .inr (.inr (.inr ⟨hw, rfl, hstop, by simp [hstop, endWriter], rfl⟩))
      · exact .inl ⟨if_neg hstop, rfl, fun _ => ⟨Bool.eq_false_iff.2 hstop, rfl⟩⟩
    | cons e rest =>
      have hpoll : s.outbound.worker.events.poll b.feed =
          (.ready e, s.outbound.worker.events.advance b.feed) := by
        rw [Publisher.poll, hpending]
      have hcall : s.callSent (.poll b.feed) = s.updateOutbound fun f =>
          { f with events := s.outbound.worker.events.advance b.feed } := by
        rw [Station.callSent, Station.updateOutbound, Station.updateOutbound, Publisher.perform,
          hpoll]
      rw [hpoll, hcall]
      dsimp only
      rw [← SentEvent.bytes]
      rcases hsend : Link.send e.bytes b.link with ⟨fault | _, link⟩
      · exact .inr (.inr (.inl ⟨e, rest, fault, link, hw, rfl, hsend, rfl, rfl⟩))
      · exact .inr (.inl ⟨e, rest, link, hw, rfl, hsend, rfl, rfl⟩)
  · rw [if_neg hw, if_neg hw]
    exact .inl ⟨rfl, rfl, fun h => absurd h hw⟩

/-- The writer changes the link and how it stands itself, and nothing else of the bridge. -/
theorem writerStep_fst (b : Bridge σ) (s : Station)
    (halive : s.outbound.worker.events.handles.alive = true) :
    ∃ link writer, (b.writerStep s).1 = { b with link, writer } ∧
      (b.writer.isRunning = false → writer = b.writer) := by
  rcases b.writerStep_cases s halive with ⟨hstep, -⟩ | ⟨e, rest, link, hw, -, -, hstep, -⟩ |
    ⟨e, rest, fault, link, hw, -, -, hstep, -⟩ | ⟨hw, -, -, hstep, -⟩
  · exact ⟨b.link, b.writer, congrArg Prod.fst hstep, fun _ => rfl⟩
  · exact ⟨link, b.writer, congrArg Prod.fst hstep, fun _ => rfl⟩
  · exact ⟨link, _, hstep, fun h => by rw [hw] at h; cases h⟩
  · exact ⟨b.link, _, hstep, fun h => by rw [hw] at h; cases h⟩

/-- How the reader stands after it has looked at the link. -/
def readerAfter (b : Bridge σ) : TaskState :=
  match (Link.receive b.link).1 with
  | .token _ | .pending => .running
  | .ended => .finished (.ok ())
  | .failed e => .finished (.error e)
  | .crashed => .crashed

/-- The reader changes the link and how it stands itself, and nothing else of the bridge. -/
theorem readerStep_fst (b : Bridge σ) (s : Station) :
    (b.readerStep s).1 = if b.reader.isRunning then
      { b with link := (Link.receive b.link).2, reader := b.readerAfter } else b := by
  rw [readerStep, readerAfter]
  split
  · next hr =>
    have hreader := TaskState.eq_running hr
    rcases Link.receive b.link with ⟨_ | _ | _ | _ | _, link⟩ <;> simp [hreader]
  · rfl

theorem outbound_readerStep (b : Bridge σ) (s : Station) :
    (b.readerStep s).2.outbound = s.outbound := by
  rw [readerStep_snd]
  cases b.readerToken? <;> rfl

end Bridge

/-- A link, and the bridge that joins a station to it once there is one. -/
inductive Span (σ : Type)
  | loose (link : σ)
  | joined (bridge : Bridge σ)

namespace Span

variable {σ : Type}

/-- The link, whether or not a bridge has it. -/
def link : Span σ → σ
  | loose link => link
  | joined b => b.link

/-- The call that closes the bridge has not returned. -/
def isOpen : Span σ → Bool
  | loose _ => true
  | joined b => b.held

/-- Does `f` with the bridge, if there is one. -/
def update (f : Bridge σ → Bridge σ) : Span σ → Span σ
  | loose link => loose link
  | joined b => joined (f b)

/-- Does `f` with the link. -/
def updateLink (f : σ → σ) : Span σ → Span σ
  | loose link => loose (f link)
  | joined b => joined { b with link := f b.link }

end Span

/-- A station and a link to be joined by a bridge. -/
structure Coupling (σ : Type) where
  station : Station
  span : Span σ

namespace Coupling

variable {σ ε : Type}

/-- What can happen to a coupling. -/
inductive Act (ε : Type)
  | station (act : Station.Act)
  /-- The bridge is made. -/
  | spawn
  /-- The writer takes a step. -/
  | write
  /-- The reader takes a step. -/
  | read
  | requestClose
  | close
  | release
  /-- Something else happens to the link. -/
  | link (e : ε)

/-- A station at rest and a link. -/
def start (c : Cadence) (link : σ) : Coupling σ := ⟨.create c, .loose link⟩

/-- The action would look for the writer's events, or drop its subscription. -/
def owns (act : Station.Act) : Span σ → Bool
  | .loose _ => false
  | .joined b =>
    match act with
    | .sent (.poll i) | .sent (.drop i) => i == b.feed
    | _ => false

theorem ne_of_owns {act : Station.Act} {b : Bridge σ} (h : owns act (.joined b) = false) :
    act ≠ .sent (.poll b.feed) ∧ act ≠ .sent (.drop b.feed) := by
  refine ⟨?_, ?_⟩
  · rintro rfl
    simp [owns] at h
  · rintro rfl
    simp [owns] at h

theorem eq_sent_of_owns {act : Station.Act} {span : Span σ} (h : owns act span = true) :
    ∃ c, act = .sent c := by
  cases span with
  | loose link => cases h
  | joined b =>
    cases act with
    | sent c => exact ⟨c, rfl⟩
    | _ => cases h

theorem takenSent_of_owns {act : Station.Act} {span : Span σ} (h : owns act span = true)
    (s : Station) : Station.takenSent act s = [] := by
  obtain ⟨c, rfl⟩ := eq_sent_of_owns h
  rfl

/-- The coupling after the bridge was made. -/
def spawn (s : Coupling σ) : Coupling σ :=
  match s.span with
  | .loose link =>
    ⟨(Bridge.spawn link s.station).2, .joined (Bridge.spawn link s.station).1⟩
  | .joined _ => s

/-- Does a step of the bridge, if there is one. -/
def stepBridge (f : Bridge σ → Station → Bridge σ × Station) (s : Coupling σ) : Coupling σ :=
  match s.span with
  | .loose _ => s
  | .joined b => ⟨(f b s.station).2, .joined (f b s.station).1⟩

variable [Link σ] (other : ε → σ → σ)

/-- A call that cannot be made changes nothing. -/
def machine : Machine (Act ε) (Coupling σ) where
  step
    | .station act, s =>
      if owns act s.span then s else { s with station := Station.machine.step act s.station }
    | .spawn, s => s.spawn
    | .write, s => s.stepBridge Bridge.writerStep
    | .read, s => s.stepBridge Bridge.readerStep
    | .requestClose, s =>
      { s with span := s.span.update fun b => if b.held && !b.stopping then b.requestClose else b }
    | .close, s => { s with span := s.span.update fun b => if b.canClose then b.close.2 else b }
    | .release, s => { s with span := s.span.update Bridge.releaseUnused }
    | .link e, s => { s with span := s.span.updateLink (other e) }

/-- What happens to the station of a coupling. -/
def onStation : Simulation (machine other) Station.machine where
  view := Coupling.station
  acts
    | .station act, s => if owns act s.span then [] else [act]
    | .spawn, s =>
      match s.span with
      | .loose _ => [.sent .subscribe]
      | .joined _ => []
    | .write, s =>
      match s.span with
      | .loose _ => []
      | .joined b => (b.writerCalls s.station).map .sent
    | .read, s =>
      match s.span with
      | .loose _ => []
      | .joined b => (b.readerToken?.map fun t => .accept (tokenOfBytes t)).toList
    | _, _ => []
  view_step act s := by
    obtain ⟨station, span⟩ := s
    cases act with
    | station act =>
      show (if owns act span then _ else _ : Coupling σ).station = _
      dsimp only
      split
      · rfl
      · rfl
    | spawn => cases span <;> rfl
    | write =>
      cases span with
      | loose link => rfl
      | joined b => exact b.writerStep_snd station
    | read =>
      cases span with
      | loose link => rfl
      | joined b => exact b.readerStep_snd station
    | _ => rfl

/-- What is observed of the station alone: nothing of what a bridge does to it. -/
def observed {β : Type} (see : Station.Act → Station → List β) : Act ε → Coupling σ → List β
  | .station act, s => see act s.station
  | _, _ => []

/-- What can be observed neither of the calls of a writer nor of the tokens of a reader is observed
    of the station alone. -/
theorem see_onStation {β : Type} {see : Station.Act → Station → List β}
    (hsent : ∀ c s, see (.sent c) s = []) (haccept : ∀ token s, see (.accept token) s = []) :
    (onStation other).see see = observed see := by
  funext act s
  obtain ⟨station, span⟩ := s
  cases act with
  | station act =>
    show Station.machine.log see (if owns act span then [] else [act]) station = see act station
    split
    · next howns =>
      obtain ⟨c, rfl⟩ := eq_sent_of_owns howns
      exact (hsent c station).symm
    · exact List.append_nil _
  | spawn =>
    cases span with
    | loose link => exact (List.append_nil _).trans (hsent .subscribe station)
    | joined b => rfl
  | write =>
    cases span with
    | loose link => rfl
    | joined b =>
      refine Machine.log_eq_nil _ (fun act hact t => ?_) _
      obtain ⟨c, -, rfl⟩ := List.mem_map.1 hact
      exact hsent c t
  | read =>
    cases span with
    | loose link => rfl
    | joined b =>
      refine Machine.log_eq_nil _ (fun act hact t => ?_) _
      obtain ⟨token, -, rfl⟩ := Option.map_eq_some_iff.1 (Option.mem_toList.1 hact)
      exact haccept _ t
  | _ => rfl

/-- What happens to the messages to be sent. -/
def outboundFeed : Simulation (machine other) (Feed.machine sending) :=
  (onStation other).comp Station.outboundFeed

/-- What happens to the tokens received. -/
def inboundFeed : Simulation (machine other) (Feed.machine receiving) :=
  (onStation other).comp Station.inboundFeed

theorem see_pushed_outbound :
    (outboundFeed other).see Feed.pushed = observed fun act _ => act.enqueued?.toList := by
  rw [outboundFeed, Simulation.comp_see, Station.see_pushed_outbound]
  exact see_onStation other (fun _ _ => rfl) fun _ _ => rfl

theorem see_taken_outbound :
    (outboundFeed other).see Feed.taken = observed Station.takenSent := by
  rw [outboundFeed, Simulation.comp_see, Station.see_taken_outbound]
  exact see_onStation other (fun _ _ => rfl) fun _ _ => rfl

/-- The publisher of what is sent is there for ever. -/
theorem alive_step (act : Act ε) {s : Coupling σ}
    (h : s.station.outbound.worker.events.handles.alive = true) :
    ((machine other).step act s).station.outbound.worker.events.handles.alive = true :=
  (outboundFeed other).view_run_preserves (P := fun f => f.events.handles.alive = true)
    (fun o f hf => (congrArg Handles.alive (Feed.handles_step sending o f)).trans hf) [act] h

end Coupling

namespace Station

variable {i : Nat} {act : Act} {s : Station}

/-- What is published waits for a live subscription, if nobody looks for it or drops it. -/
theorem received_sent (hpoll : act ≠ .sent (.poll i)) (hdrop : act ≠ .sent (.drop i))
    (hlive : s.outbound.worker.events.Live i) :
    (machine.step act s).outbound.worker.events.Live i ∧
      (machine.step act s).outbound.worker.events.pending i =
        s.outbound.worker.events.pending i ++ (takenSent act s).map fun m => (sending m).1 := by
  have hdrops : .events (.drop i) ∉ outboundFeed.acts act s := fun h => hdrop (eq_sent_of_mem h)
  have hview : (machine.step act s).outbound.worker = _ := outboundFeed.view_step act s
  have hnone : (Feed.machine sending).log (Feed.found i) (outboundFeed.acts act s)
      s.outbound.worker = [] := by
    refine (congrFun (congrFun (see_found_outbound i) act) s).trans ?_
    cases act with
    | sent c =>
      cases c with
      | poll j => exact if_neg fun h => hpoll (by rw [h])
      | _ => rfl
    | _ => rfl
  have hreceived := Feed.received_run sending hdrops hlive
  have htaken := congrFun (congrFun see_taken_outbound act) s
  rw [hnone, List.nil_append] at hreceived
  rw [hview, ← htaken]
  exact ⟨Feed.live_run sending hdrops hlive, hreceived⟩

end Station

end GridRobot
