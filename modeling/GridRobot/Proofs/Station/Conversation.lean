import GridRobot.Proofs.Robot
import GridRobot.Proofs.Station.Coupling
import GridRobot.Proofs.Station.Inbound
import GridRobot.Proofs.Station.Outbound

/-!
# Conversations with a robot

A conversation is a coupling whose link leads to a robot. A message that is
queued for sending goes through the outbound queue, the mailbox of the writer
and the link to the robot; an answer goes through the link and the inbound queue
to a subscription. None of these takes something out of its turn, so that what
was received, what is on its way back, and what the robot has still to say to
what is on its way there, are at any time the same list (`Converses.said`).

So what is received is a beginning of what the robot has to say in all, and it
is the whole of it once nothing is on its way (`received_speech`).
-/

namespace GridRobot

/-- A loopback link with a robot at its far end. -/
structure RobotLink where
  link : Loopback
  robot : Robot

namespace RobotLink

/-- A fresh link; its robot stands on a cell and has not announced itself. -/
def fresh (n : Nat) (c : Cell) : RobotLink := ⟨.pair n, { position := c.toPoint }⟩

/-- The robot takes a step. -/
def stepRobot (l : RobotLink) : RobotLink := ⟨(l.robot.step l.link).2, (l.robot.step l.link).1⟩

/-- The same robot, and the link in another state. -/
def withLink (l : RobotLink) (link : Loopback) : RobotLink := { l with link }

instance : Link RobotLink where
  id l := Link.id l.link
  send t l := (Link.send t l.link).map id l.withLink
  receive l := (Link.receive l.link).map id l.withLink
  close l := (Link.close l.link).map id l.withLink
  release l := l.withLink (Link.release l.link)
  backlog l := Link.backlog l.link

end RobotLink

namespace Station

variable {i : Nat} {act : Act} {s : Station}

theorem unsent_step (act : Act) (s : Station) :
    s.unsent ++ act.enqueued?.toList = takenSent act s ++ (machine.step act s).unsent := by
  have hqueue := Feed.queue_seen outboundFeed [act] s
  rw [see_pushed_outbound, see_taken_outbound] at hqueue
  simp only [Machine.log_cons, Machine.log_nil, List.append_nil] at hqueue
  exact hqueue

theorem unclassified_step (act : Act) (s : Station) :
    s.unclassified ++ act.accepted?.toList =
      takenReceived act s ++ (machine.step act s).unclassified := by
  have hqueue := Feed.queue_seen inboundFeed [act] s
  rw [see_pushed_inbound, see_taken_inbound] at hqueue
  simp only [Machine.log_cons, Machine.log_nil, List.append_nil] at hqueue
  exact hqueue

/-- A subscription to what is received that is made before the first tick, and kept, finds what
    becomes of the tokens taken. -/
theorem kept_received (hdrop : act ≠ .received (.drop i))
    (htick : ∀ j, act = .tickInbound j → i < s.nextReceived)
    (hkept : s.inbound.worker.events.Kept i) :
    (machine.step act s).inbound.worker.events.Kept i ∧
      foundReceived i act s ++ (machine.step act s).inbound.worker.events.pending i =
        s.inbound.worker.events.pending i ++
          (takenReceived act s).map fun token => (receiving token).1 := by
  have hdrops : .events (.drop i) ∉ inboundFeed.acts act s :=
    fun h => hdrop (eq_received_of_mem h)
  have hticks : .tick ∈ inboundFeed.acts act s → s.inbound.worker.events.Live i := by
    intro h
    obtain ⟨j, hj⟩ := eq_tickInbound_of_mem h
    exact hkept.live (htick j hj)
  have hreceived := Feed.received_run_of_kept receiving hdrops hkept hticks
  have hview : (machine.step act s).inbound.worker = _ := inboundFeed.view_step act s
  have hfound := congrFun (congrFun (see_found_inbound i) act) s
  have htaken := congrFun (congrFun see_taken_inbound act) s
  rw [hview, ← hfound, ← htaken]
  exact hreceived

end Station

/-- The token of a message is classified as it. -/
theorem receiving_encode (m : Message) : (receiving m.encode).1 = .accepted m := by
  rw [receiving, m.classify_encode]

namespace Conversation

open Coupling (Act)

/-- What can happen in a conversation; its link is used by the robot alone. -/
abbrev machine : Machine (Act Unit) (Coupling RobotLink) :=
  Coupling.machine fun _ => RobotLink.stepRobot

/-- A station at rest, and a robot on a cell. -/
def start (c : Cadence) (n : Nat) (cell : Cell) : Coupling RobotLink :=
  Coupling.start c (.fresh n cell)

/-- The message that is queued for sending. -/
def enqueued : Act Unit → Coupling RobotLink → List Message :=
  Coupling.observed fun act _ => act.enqueued?.toList

/-- The message that is taken for sending. -/
def takenSent : Act Unit → Coupling RobotLink → List Message := Coupling.observed Station.takenSent

/-- The event that the `i`-th subscription to what is received finds. -/
def foundReceived (i : Nat) : Act Unit → Coupling RobotLink → List ReceivedEvent :=
  Coupling.observed (Station.foundReceived i)

/-- The events that are delivered to the `i`-th subscription to what is received: those that it
    finds in a run, then those that wait for it. -/
def deliveredReceived (i : Nat) (acts : List (Act Unit)) (s : Coupling RobotLink) :
    List ReceivedEvent :=
  machine.log (foundReceived i) acts s ++
    (machine.run acts s).station.inbound.worker.events.pending i

/-- The events that wait for the writer. -/
def waiting (s : Coupling RobotLink) : List SentEvent :=
  match s.span with
  | .loose _ => []
  | .joined b => s.station.outbound.worker.events.pending b.feed

/-- What may happen in a conversation that the `i`-th subscription to what is received follows. -/
def permits (i : Nat) : Act Unit → Coupling RobotLink → Bool
  /- All that the station receives comes from the robot. -/
  | .station (.accept _), _ => false
  /- The bridge is made before the outbound loop first ticks. -/
  | .station (.tickOutbound _), s =>
    match s.span with
    | .loose _ => false
    | .joined _ => true
  /- The subscription is made before the inbound loop first ticks, and kept. -/
  | .station (.tickInbound _), s => i < s.station.nextReceived
  | .station (.received (.drop j)), _ => j ≠ i
  /- The bridge stays. -/
  | .requestClose, _ => false
  | _, _ => true

/-- Nothing is on its way. -/
structure Settled (s : Coupling RobotLink) : Prop where
  unsent : s.station.unsent = []
  waiting : waiting s = []
  toRobot : s.span.link.link.far.arriving = []
  fromRobot : s.span.link.link.near.arriving = []
  unclassified : s.station.unclassified = []

/-- What is on its way in a conversation. -/
structure Flight where
  /-- Where the robot is. -/
  cell : Cell
  /-- Waits for the writer. -/
  waiting : List Message
  /-- Is on the link, to the robot. -/
  inbox : List Message
  /-- Is on the link, from the robot. -/
  outbox : List Message
  /-- Waits to be classified. -/
  queued : List Message

/-- What is known of a conversation in which the events `heard` were found and `rest` will still be
    queued: in the end, `whole` will have been said. -/
structure Converses (i : Nat) (whole : List Message) (heard : List ReceivedEvent)
    (rest : List Message) (s : Coupling RobotLink) (f : Flight) : Prop where
  alive : s.station.outbound.worker.events.handles.alive = true
  writing : ∀ b, s.span = .joined b → b.writer = .running ∧ b.stopping = false ∧ b.held = true ∧
    s.station.outbound.worker.events.Live b.feed
  kept : s.station.inbound.worker.events.Kept i
  waiting : waiting s = f.waiting.map fun m => (sending m).1
  queued : s.station.unclassified = f.queued.map Message.encode
  follows : s.span.link.robot.Follows s.span.link.link f.cell f.inbox f.outbox
    (f.waiting ++ s.station.unsent ++ rest)
  said : heard ++ s.station.inbound.worker.events.pending i ++
      (f.queued ++ f.outbox ++ s.span.link.robot.forecast f.cell
        (f.inbox ++ (f.waiting ++ s.station.unsent ++ rest))).map .accepted =
    whole.map .accepted

variable {i : Nat} {whole rest : List Message} {heard : List ReceivedEvent} {s : Coupling RobotLink}
  {f : Flight}

theorem step_station {act : Station.Act} (hfree : Coupling.owns act s.span = false) :
    machine.step (.station act) s =
      { s with station := Station.machine.step act s.station } :=
  if_neg (Bool.eq_false_iff.1 hfree)

/-- What is published waits for the writer. -/
theorem waiting_station {act : Station.Act} (hpermits : permits i (.station act) s = true)
    (hfree : Coupling.owns act s.span = false)
    (hlive : ∀ b, s.span = .joined b → s.station.outbound.worker.events.Live b.feed) :
    (∀ b, s.span = .joined b →
        (Station.machine.step act s.station).outbound.worker.events.Live b.feed) ∧
      waiting { s with station := Station.machine.step act s.station } =
        waiting s ++ (Station.takenSent act s.station).map fun m => (sending m).1 := by
  obtain ⟨station, link | b⟩ := s
  · refine ⟨fun b hb => (by cases hb), ?_⟩
    cases act with
    | tickOutbound j => cases hpermits
    | _ => rfl
  · obtain ⟨hpoll, hdrop⟩ := Coupling.ne_of_owns hfree
    obtain ⟨hlive', hpending⟩ := Station.received_sent hpoll hdrop (hlive b rfl)
    refine ⟨fun b' hb => ?_, hpending⟩
    cases hb
    exact hlive'

theorem Converses.station {act : Station.Act} (hpermits : permits i (.station act) s = true)
    (hfree : Coupling.owns act s.span = false)
    (h : Converses i whole heard (act.enqueued?.toList ++ rest) s f) :
    ∃ f', Converses i whole (heard ++ Station.foundReceived i act s.station) rest
      { s with station := Station.machine.step act s.station } f' := by
  have halive := Coupling.alive_step (fun (_ : Unit) => RobotLink.stepRobot) (.station act) h.alive
  rw [step_station hfree] at halive
  have hlater : f.waiting ++ s.station.unsent ++ (act.enqueued?.toList ++ rest) =
      f.waiting ++ Station.takenSent act s.station ++
        (Station.machine.step act s.station).unsent ++ rest := by
    rw [← List.append_assoc, List.append_assoc f.waiting, Station.unsent_step, List.append_assoc,
      List.append_assoc, List.append_assoc, List.append_assoc]
  obtain ⟨hlive, hwaiting⟩ := waiting_station hpermits hfree fun b hb => (h.writing b hb).2.2.2
  -- Of the tokens that wait to be classified, those that are taken now come first.
  have hunclassified := Station.unclassified_step act s.station
  have hnone : act.accepted? = none := by
    cases act with
    | accept token => cases hpermits
    | _ => rfl
  rw [hnone, Option.toList_none, List.append_nil, h.queued] at hunclassified
  obtain ⟨taken, queued, hqueued, htaken, hleft⟩ := List.map_eq_append_iff.1 hunclassified
  have hdrop : act ≠ .received (.drop i) := by
    rintro rfl
    simp [permits] at hpermits
  have htick : ∀ j, act = .tickInbound j → i < s.station.nextReceived := by
    rintro j rfl
    simpa [permits] using hpermits
  obtain ⟨hkept, hfound⟩ := Station.kept_received hdrop htick h.kept
  have hevents : (taken.map Message.encode).map (fun token => (receiving token).1) =
      taken.map .accepted := by
    rw [List.map_map]
    exact List.map_congr_left fun m _ => receiving_encode m
  rw [← htaken, hevents] at hfound
  refine ⟨{ f with waiting := f.waiting ++ Station.takenSent act s.station, queued }, halive,
    fun b hb => ?_, hkept, ?_, hleft.symm, ?_, ?_⟩
  · obtain ⟨hw, hstop, hheld, -⟩ := h.writing b hb
    exact ⟨hw, hstop, hheld, hlive b hb⟩
  · rw [hwaiting, h.waiting, List.map_append]
  · have hfollows := h.follows
    rw [hlater] at hfollows
    exact hfollows
  · have hsaid := h.said
    rw [hlater, hqueued] at hsaid
    rw [← hsaid]
    dsimp only
    rw [List.append_assoc heard, hfound]
    simp only [List.map_append, List.append_assoc]

/-! ### Steps of the bridge -/

section Bridge

variable {station : Station} {b : Bridge RobotLink}

/-- What waits for the writer can be handed to the link. -/
theorem Converses.tell {e : SentEvent} {es : List SentEvent}
    (h : Converses i whole heard rest ⟨station, .joined b⟩ f)
    (hpending : station.outbound.worker.events.pending b.feed = e :: es) :
    ∃ m ms, f.waiting = m :: ms ∧ es = ms.map (fun m => (sending m).1) ∧
      let l := b.link.link.update .far fun e => { e with arriving := e.arriving ++ [m.bytes] }
      Link.send e.bytes b.link = (.ok (), b.link.withLink l) ∧
        b.link.robot.Follows l f.cell (f.inbox ++ [m]) f.outbox
          (ms ++ station.unsent ++ rest) := by
  obtain ⟨m, ms, hf, he, hes⟩ := List.map_eq_cons_iff.1 (h.waiting.symm.trans hpending)
  have hfollows := h.follows
  rw [hf] at hfollows
  obtain ⟨hsend, htold⟩ := hfollows.tell
  refine ⟨m, ms, hf, hes.symm, ?_, htold⟩
  show (b.link.link.send .near e.bytes).map id b.link.withLink = _
  rw [← he, bytes_sending]
  exact congrArg (Prod.map id b.link.withLink) hsend

theorem converses_write (h : Converses i whole heard rest ⟨station, .joined b⟩ f) :
    ∃ f', Converses i whole heard rest
      ⟨(b.writerStep station).2, .joined (b.writerStep station).1⟩ f' := by
  obtain ⟨hw, hstop, hheld, hlive⟩ := h.writing b rfl
  rcases b.writerStep_cases station h.alive with ⟨hstep, -⟩ |
    ⟨e, es, link, -, hpending, hsend, hstep, -⟩ | ⟨e, es, fault, link, -, hpending, hsend, -⟩ |
    ⟨-, -, hstop', -⟩
  · rw [hstep]
    exact ⟨f, h⟩
  · obtain ⟨m, ms, hf, hes, hsend', hfollows⟩ := h.tell hpending
    cases hsend'.symm.trans hsend
    have hmore : f.inbox ++ (f.waiting ++ station.unsent ++ rest) =
        f.inbox ++ [m] ++ (ms ++ station.unsent ++ rest) := by
      rw [hf, List.append_assoc f.inbox, List.cons_append, List.cons_append, List.singleton_append]
    have hsaid := h.said
    rw [hmore] at hsaid
    rw [hstep]
    refine ⟨{ f with waiting := ms, inbox := f.inbox ++ [m] }, ?_, fun b' hb => ?_, h.kept, ?_,
      h.queued, hfollows, hsaid⟩
    · exact (congrArg Handles.alive (Publisher.handles_perform _ _)).trans h.alive
    · cases hb
      exact ⟨hw, hstop, hheld, hlive.poll b.feed⟩
    · rw [← hes]
      exact hlive.pending_poll hpending
  · -- The robot that has still to be told this is there, so that the link takes it.
    obtain ⟨m, ms, -, -, hsend', -⟩ := h.tell hpending
    cases hsend'.symm.trans hsend
  · rw [hstop] at hstop'
    cases hstop'

/-- How the reader stands has no part in what is said. -/
theorem Converses.withReader (h : Converses i whole heard rest ⟨station, .joined b⟩ f)
    (reader : TaskState) :
    Converses i whole heard rest ⟨station, .joined { b with reader }⟩ f :=
  ⟨h.alive, fun b' hb => (by cases hb; exact h.writing b rfl), h.kept, h.waiting, h.queued,
    h.follows, h.said⟩

theorem converses_read (h : Converses i whole heard rest ⟨station, .joined b⟩ f) :
    ∃ f', Converses i whole heard rest
      ⟨(b.readerStep station).2, .joined (b.readerStep station).1⟩ f' := by
  rw [Bridge.readerStep]
  by_cases hr : b.reader.isRunning = true
  · rw [if_pos hr]
    have hfollows := h.follows
    cases houtbox : f.outbox with
    | nil =>
      rw [houtbox] at hfollows
      have hreceive : Link.receive b.link =
          (if b.link.link.far.standing = .active then .pending else .ended, b.link) :=
        congrArg (Prod.map id b.link.withLink)
          (Loopback.receive_of_nil (s := .near) hfollows.toNear)
      rw [hreceive]
      by_cases hfar : b.link.link.far.standing = .active
      · rw [if_pos hfar]
        exact ⟨f, h⟩
      · -- The robot is over, and the reader ends.
        rw [if_neg hfar]
        exact ⟨f, h.withReader _⟩
    | cons m outbox =>
      rw [houtbox] at hfollows
      obtain ⟨hreceive, hheard⟩ := hfollows.hear
      have hreceive' : Link.receive b.link = _ := congrArg (Prod.map id b.link.withLink) hreceive
      rw [hreceive']
      refine ⟨{ f with outbox, queued := f.queued ++ [m] }, h.alive, fun b' hb => ?_, h.kept,
        h.waiting, ?_, hheard, ?_⟩
      · cases hb
        exact h.writing b rfl
      · show station.unclassified ++ [tokenOfBytes m.bytes] = _
        rw [h.queued, m.tokenOfBytes_bytes, List.map_append]
        rfl
      · have hsaid := h.said
        rw [houtbox, List.append_cons] at hsaid
        exact hsaid
  · rw [if_neg hr]
    exact ⟨f, h⟩

end Bridge

/-! ### Runs -/

theorem Converses.spawn (h : Converses i whole heard rest s f) :
    Converses i whole heard rest s.spawn f := by
  obtain ⟨station, link | b⟩ := s
  · refine ⟨h.alive, fun b hb => ?_, h.kept, ?_, h.queued, h.follows, h.said⟩
    · cases hb
      exact ⟨rfl, rfl, rfl, Publisher.live_subscribe_next _⟩
    · -- Nothing waits for a writer that has just begun, as nothing waited for none.
      exact (Publisher.pending_subscribe_next _).trans h.waiting
  · exact h

/-- The robot says what it has to say. -/
theorem converses_robot (h : Converses i whole heard rest s f) :
    ∃ f', Converses i whole heard rest
      { s with span := s.span.updateLink RobotLink.stepRobot } f' := by
  obtain ⟨cell, inbox, outbox, hfollows, hforecast⟩ := h.follows.step
  have hsaid := h.said
  rw [List.append_assoc f.queued, ← hforecast, ← List.append_assoc f.queued] at hsaid
  obtain ⟨station, link | b⟩ := s
  · exact ⟨{ f with cell, inbox, outbox }, h.alive, fun b hb => (by cases hb), h.kept, h.waiting,
      h.queued, hfollows, hsaid⟩
  · refine ⟨{ f with cell, inbox, outbox }, h.alive, fun b' hb => ?_, h.kept, h.waiting, h.queued,
      hfollows, hsaid⟩
    cases hb
    exact h.writing b rfl

/-- A bridge that goes on is not closed, and its link is not released. -/
theorem Converses.step_of_ending {act : Act Unit} (h : Converses i whole heard rest s f)
    (hact : act = .close ∨ act = .release) : machine.step act s = s := by
  obtain ⟨station, link | b⟩ := s
  · rcases hact with rfl | rfl <;> rfl
  · obtain ⟨hw, hstop, hheld, -⟩ := h.writing b rfl
    have hclose : b.canClose = false := by simp [Bridge.canClose, hstop]
    have hrelease : b.releaseUnused = b := by simp [Bridge.releaseUnused, hheld]
    rcases hact with rfl | rfl
    · show (⟨station, .joined (if b.canClose then b.close.2 else b)⟩ : Coupling RobotLink) = _
      rw [hclose]
      rfl
    · exact congrArg (fun b => (⟨station, .joined b⟩ : Coupling RobotLink)) hrelease

theorem converses_step {act : Act Unit} (hpermits : permits i act s = true)
    (h : Converses i whole heard (enqueued act s ++ rest) s f) :
    ∃ f', Converses i whole (heard ++ foundReceived i act s) rest (machine.step act s) f' := by
  have hquiet {t : Coupling RobotLink} (ht : ∃ f', Converses i whole heard rest t f') :
      ∃ f', Converses i whole (heard ++ []) rest t f' :=
    (List.append_nil heard).symm ▸ ht
  cases act with
  | station act =>
    by_cases howns : Coupling.owns act s.span = true
    · have hstep : machine.step (.station act) s = s := if_pos howns
      obtain ⟨c, rfl⟩ := Coupling.eq_sent_of_owns howns
      rw [hstep]
      exact hquiet ⟨f, h⟩
    · have hfree := Bool.eq_false_iff.2 howns
      rw [step_station hfree]
      exact h.station hpermits hfree
  | spawn => exact hquiet ⟨f, h.spawn⟩
  | write =>
    refine hquiet ?_
    obtain ⟨station, link | b⟩ := s
    · exact ⟨f, h⟩
    · exact converses_write h
  | read =>
    refine hquiet ?_
    obtain ⟨station, link | b⟩ := s
    · exact ⟨f, h⟩
    · exact converses_read h
  | requestClose => cases hpermits
  | close =>
    rw [Converses.step_of_ending h (.inl rfl)]
    exact hquiet ⟨f, h⟩
  | release =>
    rw [Converses.step_of_ending h (.inr rfl)]
    exact hquiet ⟨f, h⟩
  | link e => exact hquiet (converses_robot h)

theorem converses_run {acts : List (Act Unit)} {rest : List Message}
    (hacts : machine.Allowed (fun act s => permits i act s = true) acts s)
    (h : Converses i whole heard (machine.log enqueued acts s ++ rest) s f) :
    ∃ f', Converses i whole (heard ++ machine.log (foundReceived i) acts s) rest
      (machine.run acts s) f' := by
  induction acts generalizing s heard f with
  | nil => exact ⟨f, (List.append_nil heard).symm ▸ h⟩
  | cons act acts ih =>
    rw [Machine.log_cons, List.append_assoc] at h
    obtain ⟨f', hstep⟩ := converses_step hacts.1 h
    obtain ⟨f'', hrun⟩ := ih hacts.2 hstep
    rw [List.append_assoc] at hrun
    exact ⟨f'', hrun⟩

/-- What has been taken for sending, then what has not, is what was queued. -/
theorem unsent_run (acts : List (Act Unit)) (s : Coupling RobotLink) :
    s.station.unsent ++ machine.log enqueued acts s =
      machine.log takenSent acts s ++ (machine.run acts s).station.unsent := by
  have hqueue := Feed.queue_seen (Coupling.outboundFeed fun _ => RobotLink.stepRobot) acts s
  rw [Coupling.see_pushed_outbound, Coupling.see_taken_outbound] at hqueue
  exact hqueue

/-- What a robot on a cell says that is told `ms`, then that the route is finished: it announces
    itself, names the cell after each movement, and is done. -/
def speech (c : Cell) (ms : List Message) : List Message :=
  .stateChange :: ((Robot.cellsAfter c ms).map .location ++ [.done])

theorem converses_start (c : Cadence) (n : Nat) (cell : Cell) {ms : List Message}
    (hms : .finish ∉ ms) :
    Converses i (speech cell ms) [] (ms ++ [.finish]) (start c n cell) ⟨cell, [], [], [], []⟩ := by
  refine ⟨rfl, fun b hb => (by cases hb), .inr (Nat.zero_le i), rfl, rfl, ?_, ?_⟩
  · exact ⟨rfl, rfl, rfl, rfl, rfl, ms, rfl, hms⟩
  · show (Message.stateChange :: Robot.answers cell (ms ++ [.finish])).map _ = _
    rw [Robot.answers_append_finish cell hms, speech]

/-- A station that queues `ms`, then the end of the route, receives what the robot at the far end
    says to them: at any time a beginning of it, whatever loops were stopped and started again by
    then, and nothing that is no message. Once the end of the route has been taken for sending and
    nothing is on its way, it has received all of it. -/
theorem received_speech (c : Cadence) (n : Nat) (cell : Cell) {ms : List Message}
    (hms : .finish ∉ ms) {acts : List (Act Unit)}
    (hacts : machine.Allowed (fun act s => permits i act s = true) acts (start c n cell))
    (hqueued : machine.log enqueued acts (start c n cell) <+: ms ++ [.finish]) :
    let s := machine.run acts (start c n cell)
    let events := deliveredReceived i acts (start c n cell)
    events <+: (speech cell ms).map .accepted ∧
      (∀ token error, .rejected token error ∉ events) ∧
      (.finish ∈ machine.log takenSent acts (start c n cell) → Settled s →
        events = (speech cell ms).map .accepted) := by
  intro s events
  obtain ⟨rest, hrest⟩ := hqueued
  have hstart := converses_start (i := i) c n cell hms
  rw [← hrest] at hstart
  obtain ⟨f, hrun⟩ := converses_run hacts hstart
  have hbegins : events <+: (speech cell ms).map .accepted := ⟨_, hrun.said⟩
  refine ⟨hbegins, fun token error hmem => ?_, fun hfinish hsettled => ?_⟩
  · obtain ⟨m, -, hm⟩ := List.mem_map.1 (hbegins.subset hmem)
    cases hm
  · -- All has been taken for sending, so that nothing will be queued any more.
    have htaken := unsent_run acts (start c n cell)
    rw [hsettled.unsent, List.append_nil] at htaken
    have hends : Robot.EndsRoute (machine.log takenSent acts (start c n cell) ++ rest) :=
      ⟨ms, by rw [← htaken, ← hrest]; rfl, hms⟩
    obtain rfl := hends.eq_nil_of_mem hfinish
    have hwaiting : f.waiting = [] :=
      List.map_eq_nil_iff.1 (hrun.waiting.symm.trans hsettled.waiting)
    have hqueued : f.queued = [] :=
      List.map_eq_nil_iff.1 (hrun.queued.symm.trans hsettled.unclassified)
    have hinbox : f.inbox = [] :=
      List.map_eq_nil_iff.1 (hrun.follows.toFar.symm.trans hsettled.toRobot)
    have houtbox : f.outbox = [] :=
      List.map_eq_nil_iff.1 (hrun.follows.toNear.symm.trans hsettled.fromRobot)
    have hlater : f.waiting ++ s.station.unsent ++ [] = [] := by
      rw [hwaiting, hsettled.unsent]
      rfl
    have hfollows := hrun.follows
    have hsaid := hrun.said
    rw [hlater, hinbox] at hfollows hsaid
    rw [hqueued, houtbox, List.nil_append, List.nil_append, List.nil_append,
      hfollows.forecast_eq_nil, List.map_nil, List.append_nil] at hsaid
    exact hsaid

/-- A robot at the edge of the grid is told to leave it, and then, by another outbound loop, that
    the route is finished. -/
theorem received_speech_edge :
    let cell : Cell := ⟨.zero, .max⟩
    let ms : List Message := [.movement .right .advance]
    let acts : List (Act Unit) := [.spawn, .station (.startOutbound 5), .link (),
      .station (.enqueue (.movement .right .advance)), .station (.checkOutbound 0 0),
      .station (.received .subscribe), .station (.startInbound 0), .read,
      .station (.tickOutbound 0), .station .requestStopOutbound, .write,
      .station (.checkInbound 5 0), .station (.tickInbound 0), .station (.enqueue .finish),
      .station (.checkOutbound 5 0), .link (), .station (.startOutbound 0), .read,
      .station (.checkOutbound 5 1), .station (.tickOutbound 1), .station (.received (.poll 0)),
      .write, .link (), .read, .station (.checkInbound 5 0), .station (.tickInbound 0),
      .station (.checkInbound 5 0), .station (.tickInbound 0)]
    let s := machine.run acts (start default 0 cell)
    .finish ∉ ms ∧
      machine.Allowed (fun act s => permits 0 act s = true) acts (start default 0 cell) ∧
      machine.log enqueued acts (start default 0 cell) <+: ms ++ [.finish] ∧
      .finish ∈ machine.log takenSent acts (start default 0 cell) ∧ Settled s ∧
      deliveredReceived 0 acts (start default 0 cell) =
        [.accepted .stateChange, .accepted (.location cell), .accepted .done] := by
  intro cell ms acts s
  have hms : .finish ∉ ms := by decide
  have hacts :
      machine.Allowed (fun act s => permits 0 act s = true) acts (start default 0 cell) := by decide
  have hqueued : machine.log enqueued acts (start default 0 cell) <+: ms ++ [.finish] := by decide
  have hfinish : .finish ∈ machine.log takenSent acts (start default 0 cell) := by decide
  have hsettled : Settled s := ⟨by decide, by decide, by decide, by decide, by decide⟩
  obtain ⟨-, -, hwhole⟩ := received_speech default 0 cell hms hacts hqueued
  exact ⟨hms, hacts, hqueued, hfinish, hsettled, hwhole hfinish hsettled⟩

end Conversation

end GridRobot
