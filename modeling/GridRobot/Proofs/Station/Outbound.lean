import GridRobot.Proofs.Station.Run

/-!
# What is sent is what was queued

Whatever happens to a station and in whatever order, and however often its
loops are stopped and started again: each message that is queued for sending is
sent once, in its turn, or still in the queue (`Station.delivered_sent`).
-/

namespace GridRobot

namespace Station

/-- The number of the next subscription to what is sent. -/
def nextSent (s : Station) : Nat := s.outbound.worker.events.next

/-- The messages still to be sent. -/
def unsent (s : Station) : List Message := s.outbound.worker.queue.items

/-- The events that are delivered to the `i`-th subscription to what is sent: those that it finds
    in a run, then those that wait for it. -/
def deliveredSent (i : Nat) (acts : List Act) (s : Station) : List SentEvent :=
  machine.log (foundSent i) acts s ++ (machine.run acts s).outbound.worker.events.pending i

theorem delivered_outboundFeed (i : Nat) (acts : List Act) (s : Station) :
    Feed.delivered outboundFeed i acts s = deliveredSent i acts s := by
  rw [Feed.delivered, see_found_outbound]
  rfl

theorem log_pushed_outbound (acts : List Act) (s : Station) :
    machine.log (outboundFeed.see Feed.pushed) acts s = acts.filterMap Act.enqueued? := by
  rw [see_pushed_outbound, machine.log_eq_filterMap fun _ _ => rfl]

/-- Nothing that was queued for sending is lost, sent twice or overtaken: the messages that are
    delivered to a subscription made before the first tick, then those still to be sent, are the
    messages queued. They are delivered with their wire forms. -/
theorem delivered_sent (c : Cadence) {before after : List Act} {s t : Station}
    (hs : s = machine.run before (create c)) (hbefore : ∀ i, .tickOutbound i ∉ before)
    (ht : t = machine.step (.sent .subscribe) s) (hafter : .sent (.drop s.nextSent) ∉ after) :
    (deliveredSent s.nextSent after t).map SentEvent.message ++ (machine.run after t).unsent =
        (before ++ after).filterMap Act.enqueued? ∧
      ∀ e ∈ deliveredSent s.nextSent after t, e.wire = e.message.encode := by
  have hticks : ∀ act ∈ before, ∀ u, .tick ∉ outboundFeed.acts act u := by
    intro act hact u hu
    obtain ⟨i, rfl⟩ := eq_tickOutbound_of_mem hu
    exact hbefore i hact
  have hdrops : ∀ act ∈ after, ∀ u, .events (.drop s.nextSent) ∉ outboundFeed.acts act u :=
    fun act hact u hu => hafter (eq_sent_of_mem hu ▸ hact)
  have hnext : (outboundFeed.view (machine.run before (create c))).events.next = s.nextSent := by
    rw [hs]
    rfl
  have hnew : outboundFeed.view t =
      (outboundFeed.view (machine.run before (create c))).subscribe := by
    rw [ht, hs]
    rfl
  obtain ⟨taken, hqueue, hdelivered⟩ :=
    Feed.delivered_of_subscribe outboundFeed rfl hticks hnext hnew hdrops
  rw [log_pushed_outbound, log_pushed_outbound, ← List.filterMap_append] at hqueue
  rw [delivered_outboundFeed] at hdelivered
  rw [hqueue, hdelivered]
  refine ⟨?_, fun e he => ?_⟩
  · rw [List.map_map]
    exact congrArg (· ++ _) (List.map_id taken)
  · obtain ⟨m, -, rfl⟩ := List.mem_map.1 he
    rfl

/-- A loop that is shut down while it waits sends one message more, its successor the next. -/
theorem delivered_sent_restart :
    let before : List Act := [.enqueue .done, .startOutbound 5]
    let after : List Act := [.checkOutbound 0 0, .enqueue .finish, .beginShutdown,
      .tickOutbound 0, .sent (.poll 0), .checkOutbound 5 0, .startOutbound 0,
      .checkOutbound 5 1, .tickOutbound 1, .enqueue .stateChange]
    let s := machine.run before (create default)
    let t := machine.step (.sent .subscribe) s
    (∀ i, .tickOutbound i ∉ before) ∧ .sent (.drop s.nextSent) ∉ after ∧
      (deliveredSent s.nextSent after t).map SentEvent.message = [.done, .finish] ∧
      (deliveredSent s.nextSent after t).map SentEvent.message ++ (machine.run after t).unsent =
        (before ++ after).filterMap Act.enqueued? ∧
      ∀ e ∈ deliveredSent s.nextSent after t, e.wire = e.message.encode := by
  intro before after s t
  have hbefore : ∀ i, .tickOutbound i ∉ before := by simp [before]
  have hafter : .sent (.drop s.nextSent) ∉ after := by simp [after]
  exact ⟨hbefore, hafter, rfl, delivered_sent default rfl hbefore rfl hafter⟩

end Station

end GridRobot
