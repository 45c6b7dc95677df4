import GridRobot.Proofs.Lane.Paced
import GridRobot.Proofs.Session.Relay
import GridRobot.Proofs.Station.Overlap
import GridRobot.Proofs.Station.Schedule

/-!
# Runs of a session

A run of a session is any list of calls, and of times that pass between them
(`Session.Act`). A shutdown is waited for, or it is only begun, so that other
calls may come before its end.

What happens to the station in such a run is a run of the station
(`Session.station_step`); without a call it is a run of single steps of loops and
bridges, in which no loop is started and no slot changes (`Station.Goes.goesOn`).
If all loops have a wait, settling is looking whether they should stop
(`Session.relayed_settle`), and in a millisecond the loops that are due tick and
look again (`Session.relayed_passMilli`); so a loop that waits is never late
(`Session.timely_run`).
-/

namespace GridRobot

namespace Station

variable {s t u : Station}

/-! ### What happens to a station by itself -/

/-- What happens to a station without a call. -/
def Act.IsOwn (act : Act) : Prop := act.IsStep ∨ act.IsRelay

/-- The second station comes of the first without a call. -/
abbrev Goes : Station → Station → Prop := machine.Reaches Act.IsOwn

theorem Relayed.goes (h : s.Relayed t) : s.Goes t := h.mono fun _ => .inr

theorem goes_checkAll (now : Nat) (s : Station) : s.Goes (s.checkAll now) :=
  Machine.Reaches.mono (exists_run_checkAll now s) fun _ => .inl

theorem goes_fireDue (now : Nat) (s : Station) : s.Goes (s.fireDue now) :=
  Machine.Reaches.mono (exists_run_fireDue now s) fun _ => .inl

theorem goes_spin (now : Nat) (s : Station) : s.Goes (s.spin now) :=
  Machine.Reaches.mono (exists_run_spin now s) fun _ => .inl

namespace Way

variable (d : Way)

theorem lane_checkAll (now : Nat) (s : Station) :
    d.lane (s.checkAll now) = (d.lane s).checkAll now := by
  cases d <;> rfl

theorem lane_fireDue (now : Nat) (s : Station) :
    d.lane (s.fireDue now) = (d.lane s).fireDue now := by
  cases d <;> rfl

end Way

/-! ### Calls -/

namespace Way

variable (d : Way)

/-- A step of a loop in a lane is such a step of the station. -/
theorem isStep_of_mem {act : Act} {s : Station} {a : Lane.Act d.Item}
    (h : a ∈ d.onLane.acts act s) (ha : a.IsStep) : act.IsStep := by
  cases act with
  | checkOutbound now i => exact .checkOutbound now i
  | checkInbound now i => exact .checkInbound now i
  | tickOutbound i => exact .tickOutbound i
  | tickInbound i => exact .tickInbound i
  | start =>
    obtain ⟨wait, rfl⟩ := d.eq_start_of_mem h
    cases ha
  | _ => cases d <;> cases ha <;> simp [onLane, outboundLane, inboundLane] at h

/-- A call leaves no loop late; one that was started now has to look first. -/
theorem timely_call {act : Act} (hact : ¬act.IsStep) {s : Station} {now : Nat}
    (h : ∀ l ∈ (d.lane s).loops, l.Timely now)
    (hwait : ∀ l ∈ (d.lane (machine.step act s)).loops, 0 < l.wait) :
    ∀ l ∈ (d.lane (machine.step act s)).loops, l.Timely now := by
  rcases d.lane_step act s with heq | ⟨a, ha, heq⟩
  · rw [heq]
    exact h
  · have ha : ¬a.IsStep := fun hstep => hact (d.isStep_of_mem ha hstep)
    rw [heq] at hwait ⊢
    cases a with
    | start wait =>
      have hstep : Lane.machine.step (.start wait) (d.lane s) = (d.lane s).tryStart wait := rfl
      rw [hstep] at hwait ⊢
      rcases (d.lane s).tryStart_cases wait with hstart | hstart
      · rw [hstart]
        exact h
      · rw [hstart, List.forall_mem_append, List.forall_mem_singleton] at hwait
        rw [hstart, List.forall_mem_append, List.forall_mem_singleton]
        exact ⟨h, PollLoop.timely_started hwait.2 now⟩
    | requestStop => exact (d.lane s).timely_requestStop h
    | detach => exact (d.lane s).timely_requestStop h
    | check now i => exact absurd (.check now i) ha
    | tick i => exact absurd (.tick i) ha
    | _ => exact h

theorem slotFilled_step (act : Act) {s : Station} (h : (d.lane s).SlotFilled) :
    (d.lane (machine.step act s)).SlotFilled :=
  d.onLane.view_run_preserves (fun act _ h => h.step act) [act] h

theorem slot_step {earlier : List Lane.Note} {s : Station}
    (h : (d.lane s).slot = Lane.lastStarted earlier) (act : Act) :
    (d.lane (machine.step act s)).slot = Lane.lastStarted (earlier ++ d.note act s) := by
  rcases d.step_lane act s with ⟨hlane, hnote⟩ | ⟨a, hlane, hnote⟩
  · rw [hlane, hnote, List.append_nil, h]
  · rw [hlane, hnote]
    exact Lane.slot_step h a

end Way

/-! ### No loop is started, and no slot changes -/

theorem Way.note_of_isOwn (d : Way) {act : Act} (h : act.IsOwn) (s : Station) :
    d.note act s = [] := by
  rcases h with (_ | _ | _ | _) | (_ | _)
  all_goals cases d <;> rfl

theorem Goes.goesOn (h : s.Goes t) (d : Way) : (d.lane s).GoesOn (d.lane t) := by
  refine h.preserves (I := fun u => (d.lane s).GoesOn (d.lane u)) ?_ (.of_eq rfl rfl)
  intro act u hact hu
  exact hu.trans (d.goesOn_of_note_eq_nil (d.note_of_isOwn hact u))

end Station

namespace Session

variable {s : Session}

/-! ### Time -/

theorem goes_repeat_round (n : Nat) (s : Session) :
    s.station.Goes (n.repeat round s).station := by
  induction n with
  | zero => exact .refl _
  | succ n ih =>
    have hround : ∀ t : Session, t.station.Goes t.round.station := fun t =>
      (Station.goes_spin t.now t.station).trans (relayed (t.update (·.spin t.now))).goes
    exact ih.trans (hround _)

theorem goes_settle (s : Session) : s.station.Goes s.settle.station :=
  (Station.goes_checkAll s.now s.station).trans <|
    (relayed (s.update (·.checkAll s.now))).goes.trans <|
      (goes_repeat_round _ _).trans (goes_repeat_round _ _)

/-- The session in the next millisecond, when the loops that are due have ticked. -/
def fired (s : Session) : Session :=
  { s with now := s.now + 1, station := s.station.fireDue (s.now + 1) }

theorem goes_passMilli (s : Session) : s.station.Goes s.passMilli.station :=
  (Station.goes_fireDue (s.now + 1) s.station).trans (goes_settle s.fired)

/-- What is kept when time passes in which no loop is due, and when a millisecond passes, is kept
    however much time passes. -/
theorem run_preserves {P : Session → Prop}
    (hquiet : ∀ s n, P s → P { s with now := s.now + s.station.quietFor s.now n })
    (hmilli : ∀ s, P s → P s.passMilli) (n : Nat) {s : Session} (h : P s) : P (run n s) := by
  fun_induction run n s with
  | case1 s => exact h
  | case2 s n quiet ih => exact ih (hmilli _ (hquiet s n h))

theorem goes_run (n : Nat) (s : Session) : s.station.Goes (run n s).station :=
  run_preserves (P := fun t => s.station.Goes t.station) (fun _ _ h => h)
    (fun t h => h.trans (goes_passMilli t)) n (.refl _)

/-- In time that is quiet no loop is due. -/
theorem lt_of_quietFor {d : Station.Way} {l : PollLoop} (hl : l ∈ (d.lane s.station).loops)
    (hwait : 0 < l.wait) {due : Nat} (hphase : l.phase = .waiting due) (hnow : s.now < due)
    (n : Nat) : s.now + s.station.quietFor s.now n < due := by
  have hquiet : s.station.quietFor s.now n ≤ due - (s.now + 1) := by
    cases d with
    | outbound =>
      exact Nat.le_trans (s.station.inbound.quietFor_le s.now _)
        (Lane.quietFor_le_of_mem hl hwait hphase n)
    | inbound => exact Lane.quietFor_le_of_mem hl hwait hphase _
  omega

/-- All loops of the station have a wait, and have looked. -/
def Rests (s : Session) : Prop := ∀ d : Station.Way, ∀ l ∈ (d.lane s.station).loops, l.Rests

theorem Rests.relay (h : s.Rests) : s.relay.Rests := by
  intro d
  rw [(relayed s).loops]
  exact h d

theorem Rests.round_eq (h : s.Rests) : s.round = s.relay := by
  have hout : s.station.outbound.spin s.now = s.station.outbound :=
    Lane.spin_eq_self (h .outbound) s.now
  have hin : s.station.inbound.spin s.now = s.station.inbound :=
    Lane.spin_eq_self (h .inbound) s.now
  rw [round, update, Station.spin, hout, hin]

/-- If no loop can tick without time, rounds do nothing but pass everything on. -/
theorem Rests.repeat_round (h : s.Rests) (n : Nat) :
    s.station.Relayed (n.repeat round s).station ∧ (n.repeat round s).Rests := by
  induction n with
  | zero => exact ⟨.refl _, h⟩
  | succ n ih =>
    rw [Nat.repeat, ih.2.round_eq]
    exact ⟨ih.1.trans (relayed _), ih.2.relay⟩

/-- All loops of the station have a wait. -/
def Paced (s : Session) : Prop := ∀ d : Station.Way, ∀ l ∈ (d.lane s.station).loops, 0 < l.wait

theorem Paced.rests_check (h : s.Paced) : (s.update (·.checkAll s.now)).Rests := by
  intro d
  show ∀ l ∈ (d.lane (s.station.checkAll s.now)).loops, l.Rests
  rw [d.lane_checkAll, Lane.checkAll, List.forall_mem_map]
  exact fun l hl => l.rests_check (h d l hl) s.now

/-- Settling is looking whether to stop, if all loops have a wait. -/
theorem Paced.settle (h : s.Paced) :
    (s.station.checkAll s.now).Relayed s.settle.station ∧ s.settle.Rests := by
  -- Once they have looked, the loops rest, so that the rounds that follow are rounds of bridges.
  obtain ⟨hout, hrests⟩ := h.rests_check.relay.repeat_round
    (s.update (·.checkAll s.now)).relay.station.outbound.rounds
  obtain ⟨hin, hrests⟩ := hrests.repeat_round (Nat.repeat round
    (s.update (·.checkAll s.now)).relay.station.outbound.rounds
    (s.update (·.checkAll s.now)).relay).station.inbound.rounds
  exact ⟨(relayed (s.update (·.checkAll s.now))).trans (hout.trans hin), hrests⟩

theorem Paced.fired (h : s.Paced) : s.fired.Paced := by
  intro d
  show ∀ l ∈ (d.lane (s.station.fireDue (s.now + 1))).loops, 0 < l.wait
  rw [d.lane_fireDue]
  refine forall_mem_fireEach (fun l w hl _ => ?_) (fun l _ hl _ => hl) (h d) _
  rw [PollLoop.fire, PollLoop.wait_ticked]
  exact hl

theorem Paced.passMilli (h : s.Paced) :
    ((s.station.fireDue (s.now + 1)).checkAll (s.now + 1)).Relayed s.passMilli.station ∧
      s.passMilli.Rests :=
  h.fired.settle

/-! ### Loops in time -/

/-- No loop of the station is late. -/
def Timely (s : Session) : Prop :=
  ∀ d : Station.Way, ∀ l ∈ (d.lane s.station).loops, l.Timely s.now

namespace Timely

theorem paced (h : s.Timely) : s.Paced := fun d l hl => (h d l hl).wait_pos

theorem quiet (h : s.Timely) (n : Nat) :
    Timely { s with now := s.now + s.station.quietFor s.now n } := by
  intro d l hl
  refine (h d l hl).later (Nat.le_add_right _ _) fun due hphase => ?_
  exact lt_of_quietFor (s := s) hl (h d l hl).wait_pos hphase ((h d l hl).waiting hphase).1 n

theorem settle (h : s.Timely) : s.settle.Timely := by
  intro d
  rw [h.paced.settle.1.loops, now_settle, d.lane_checkAll, Lane.checkAll, List.forall_mem_map]
  exact fun l hl => (h d l hl).check

theorem passMilli (h : s.Timely) : s.passMilli.Timely := by
  intro d
  rw [h.paced.passMilli.1.loops, now_passMilli, d.lane_checkAll, Lane.checkAll, d.lane_fireDue,
    List.forall_mem_map]
  have hfired : ∀ l ∈ ((d.lane s.station).fireDue (s.now + 1)).loops, l.Timely (s.now + 1) := by
    refine forall_mem_fireEach (fun l w hl hdue => ?_) (fun l w hl hdue => ?_) (h d) _
    · rw [PollLoop.fire, d.tick_eq]
      exact hl.ticked (PollLoop.isWaiting_of_isDue hdue) _ _
    · exact hl.later (Nat.le_succ _) fun due => hl.lt_of_not_isDue hdue
  exact fun l hl => (hfired l hl).check

theorem run (h : s.Timely) (n : Nat) : (run n s).Timely :=
  run_preserves (fun _ n h => h.quiet n) (fun _ h => h.passMilli) n h

end Timely

/-! ### Histories -/

/-- What is done with the current connection. -/
inductive Handling
  | closeBridge
  | dropBridge
  | sendFar (bytes : List UInt8)
  | closeFar
  | lookFar
  | dropFar

/-- Does something with the current connection. -/
def handle : Handling → Session → Session
  | .closeBridge, s => s.closeBridge.2
  | .dropBridge, s => s.dropBridge
  | .sendFar bytes, s => (s.atFarEnd (Connection.sendFar bytes)).2
  | .closeFar, s => (s.atFarEnd Connection.closeFar).2
  | .lookFar, s => (s.atFarEnd Connection.lookFar).2
  | .dropFar, s => s.updateCurrent Connection.dropFar

/-- What can happen to a session. -/
inductive Act
  /-- A call on the station. Nobody waits for the end of a shutdown that is begun so. -/
  | call (act : Station.Act) (hcall : ¬act.IsStep)
  /-- A shutdown, and nothing else until its end. -/
  | shutdown
  /-- Everything happens that needs no time. -/
  | settle
  /-- Some milliseconds pass. -/
  | advance (n : Nat)
  | connect (plan : LinkPlan)
  | handle (h : Handling)

/-- The machine of a session: one call of its user after the other, with the time in between. -/
def machine : Machine Act Session where
  step
    | .call act _, s => s.update (Station.machine.step act)
    | .shutdown, s => s.shutdown.2
    | .settle, s => s.settle
    | .advance n, s => s.advance n
    | .connect plan, s => s.connect plan
    | .handle h, s => s.handle h

theorem frame_atFarEnd {α : Type} (f : Connection → Except FarError α × Connection) (s : Session) :
    (s.atFarEnd f).2.station = s.station ∧ (s.atFarEnd f).2.now = s.now := by
  rw [atFarEnd]
  cases s.current <;> exact ⟨rfl, rfl⟩

theorem relayed_closeBridge (s : Session) :
    s.station.Relayed s.closeBridge.2.station ∧ s.closeBridge.2.now = s.now := by
  rw [closeBridge]
  split
  · exact ⟨.refl _, rfl⟩
  · have hrelay : ∀ t : Session, t.station.Relayed t.relay.station ∧ t.relay.now = t.now :=
      fun t => ⟨relayed t, t.now_relay⟩
    dsimp only
    split
    · exact hrelay (s.updateCurrent _)
    · exact hrelay (s.updateCurrent _)

/-- What is done with a connection takes no time, and nothing but what bridges do comes of it. -/
theorem relayed_handle (h : Handling) (s : Session) :
    s.station.Relayed (s.handle h).station ∧ (s.handle h).now = s.now := by
  have hfar : ∀ {α : Type} (f : Connection → Except FarError α × Connection),
      s.station.Relayed (s.atFarEnd f).2.station ∧ (s.atFarEnd f).2.now = s.now := by
    intro α f
    rw [(frame_atFarEnd f s).1]
    exact ⟨.refl _, (frame_atFarEnd f s).2⟩
  cases h with
  | closeBridge => exact relayed_closeBridge s
  | dropBridge => exact ⟨.refl _, rfl⟩
  | sendFar bytes => exact hfar _
  | closeFar => exact hfar _
  | lookFar => exact hfar _
  | dropFar => exact ⟨.refl _, rfl⟩

theorem relayed_connect (plan : LinkPlan) (s : Session) :
    s.station.Relayed (s.connect plan).station :=
  Connection.relayed_establish s.nextLink plan s.station

/-- After a shutdown has begun, the station goes on by itself to its end. -/
theorem goes_shutdown (s : Session) : s.station.beginShutdown.2.Goes s.shutdown.2.station :=
  (goes_settle { s with station := s.station.beginShutdown.2 }).trans (goes_run _ _)

/-- What is noted of the calls on the lane of a way. -/
def note (d : Station.Way) : Act → Session → List Lane.Note
  | .call act _, s => d.note act s.station
  | .shutdown, _ => [.shutDown]
  | _, _ => []

/-- What happens is a call on the station or a shutdown, or else the station goes on by itself. -/
theorem step_cases (act : Act) (s : Session) :
    (∃ a h, act = .call a h) ∨ act = .shutdown ∨
      s.station.Goes (machine.step act s).station ∧ ∀ d, note d act s = [] := by
  cases act with
  | call a h => exact .inl ⟨a, h, rfl⟩
  | shutdown => exact .inr (.inl rfl)
  | settle => exact .inr (.inr ⟨goes_settle s, fun _ => rfl⟩)
  | advance n => exact .inr (.inr ⟨(goes_settle s).trans (goes_run n _), fun _ => rfl⟩)
  | connect plan => exact .inr (.inr ⟨(relayed_connect plan s).goes, fun _ => rfl⟩)
  | handle h => exact .inr (.inr ⟨(relayed_handle h s).1.goes, fun _ => rfl⟩)

/-- What happens to the station of a session is a run of the station. -/
theorem reaches_step (act : Act) (s : Session) :
    Station.machine.Reaches (fun _ => True) s.station (machine.step act s).station := by
  rcases step_cases act s with ⟨a, h, rfl⟩ | rfl | ⟨hgoes, -⟩
  · exact ⟨[a], fun _ _ => trivial, rfl⟩
  · have hbegin : Station.machine.Reaches (fun _ => True) s.station s.station.beginShutdown.2 :=
      ⟨[.beginShutdown], fun _ _ => trivial, rfl⟩
    exact hbegin.trans ((goes_shutdown s).mono fun _ _ => trivial)
  · exact hgoes.mono fun _ _ => trivial

theorem cadence_step (act : Act) (s : Session) :
    (machine.step act s).station.cadence = s.station.cadence :=
  (reaches_step act s).preserves (I := fun t => t.cadence = s.station.cadence)
    (fun act t _ h => (Station.cadence_step act t).trans h) rfl

theorem cadence_run (c : Cadence) (acts : List Act) :
    (machine.run acts (create c)).station.cadence = c.limited :=
  machine.run_preserves (P := fun s => s.station.cadence = c.limited)
    (fun act s h => (cadence_step act s).trans h) acts rfl

/-- The loop in charge is the one that was started last, unless there was a shutdown since. -/
theorem slot_run (c : Cadence) (acts : List Act) (d : Station.Way) :
    (d.lane (machine.run acts (create c)).station).slot =
      Lane.lastStarted (machine.log (note d) acts (create c)) := by
  have hrest : (d.lane (create c).station).slot = Lane.lastStarted [] :=
    congrArg Lane.slot (d.lane_create c)
  refine machine.run_log_preserves
    (P := fun notes s => (d.lane s.station).slot = Lane.lastStarted notes) ?_ acts hrest
  intro notes act s h
  rcases step_cases act s with ⟨a, hcall, rfl⟩ | rfl | ⟨hgoes, hnote⟩
  · exact d.slot_step h a
  · -- The slot is emptied when the shutdown begins, and nothing fills it before its end.
    have hlast : Lane.lastStarted (notes ++ note d .shutdown s) = none :=
      Lane.lastStarted_append_singleton notes .shutDown
    rw [hlast]
    refine ((goes_shutdown s).goesOn d).slot.trans ?_
    rw [d.lane_beginShutdown]
    rfl
  · rw [hnote, List.append_nil, ← h]
    exact (hgoes.goesOn d).slot

theorem waits_step (act : Act) (s : Session) (d : Station.Way) : ∃ more,
    (d.lane (machine.step act s).station).waits = (d.lane s.station).waits ++ more := by
  refine (reaches_step act s).preserves (I := fun t => ∃ more,
    (d.lane t).waits = (d.lane s.station).waits ++ more) ?_ ⟨[], (List.append_nil _).symm⟩
  rintro act t - ⟨more, h⟩
  rcases d.step_lane act t with ⟨hlane, -⟩ | ⟨a, hlane, -⟩
  · exact ⟨more, by rw [hlane, h]⟩
  · obtain ⟨more', h'⟩ := Lane.waits_step a (d.lane t)
    exact ⟨more ++ more', by rw [hlane, h', h, List.append_assoc]⟩

theorem waits_run (acts : List Act) (s : Session) (d : Station.Way) : ∃ more,
    (d.lane (machine.run acts s).station).waits = (d.lane s.station).waits ++ more := by
  refine machine.run_preserves (P := fun t => ∃ more,
    (d.lane t.station).waits = (d.lane s.station).waits ++ more) ?_ acts
    ⟨[], (List.append_nil _).symm⟩
  rintro act t ⟨more, h⟩
  obtain ⟨more', h'⟩ := waits_step act t d
  exact ⟨more ++ more', by rw [h', h, List.append_assoc]⟩

theorem paced_of_step {act : Act} (h : (machine.step act s).Paced) : s.Paced := by
  intro d l hl
  obtain ⟨more, hwaits⟩ := waits_step act s d
  have hmem : l.wait ∈ (d.lane (machine.step act s).station).waits := by
    rw [hwaits]
    exact List.mem_append_left _ (List.mem_map_of_mem hl)
  obtain ⟨l', hl', heq⟩ := List.mem_map.1 hmem
  exact heq ▸ h d l' hl'

theorem paced_of_run {acts : List Act} (h : (machine.run acts s).Paced) : s.Paced := by
  induction acts generalizing s with
  | nil => exact h
  | cons act acts ih => exact paced_of_step (ih h)

theorem Timely.beginShutdown (h : s.Timely) :
    Timely { s with station := s.station.beginShutdown.2 } := by
  intro d
  show ∀ l ∈ (d.lane s.station.beginShutdown.2).loops, l.Timely s.now
  rw [d.lane_beginShutdown]
  exact (d.lane s.station).timely_requestStop (h d)

theorem timely_step (h : s.Timely) {act : Act} (hpaced : (machine.step act s).Paced) :
    (machine.step act s).Timely := by
  have hrelayed : ∀ t : Session, s.station.Relayed t.station → t.now = s.now → t.Timely := by
    intro t ht hnow d
    rw [ht.loops, hnow]
    exact h d
  cases act with
  | call act hcall => exact fun d => d.timely_call hcall (h d) (hpaced d)
  | shutdown => exact h.beginShutdown.settle.run _
  | settle => exact h.settle
  | advance n => exact h.settle.run n
  | connect plan => exact hrelayed _ (relayed_connect plan s) rfl
  | handle c => exact hrelayed _ (relayed_handle c s).1 (relayed_handle c s).2

end Session

end GridRobot
