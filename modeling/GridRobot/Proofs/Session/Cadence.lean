import GridRobot.Proofs.Lane.Departures
import GridRobot.Proofs.Lane.Service
import GridRobot.Proofs.Session.Clock
import GridRobot.Proofs.Session.Shutdown

/-!
# The cadence of a session

If all loops of a session have a wait, and every shutdown is waited for, then in
each way (`Session.keeps_pace`)

* the items are taken in the order in which they were queued, each by the first
  tick that can take it;
* a loop that works alone takes them at times that can be told from those at
  which they were queued;
* a tick comes no earlier than the wait of its loop after any tick before, also
  if loops were stopped and started in between.
-/

namespace GridRobot

namespace Session

open Lane.Clock (Prompt)

variable {d : Station.Way} {s : Session}

/-! ### Nothing comes late -/

section Allowed

open Lane

theorem allowed_map_call {acts : List (Lane.Act d.Item)}
    (hacts : ∀ act ∈ acts, ¬act.IsStep ∧ ∀ a : Lane (Feed d.Item d.Event), Lane.note act a = [])
    (c : Clock d.Item d.Event) : Clock.machine.Allowed Prompt (acts.map .call) c := by
  induction acts generalizing c with
  | nil => trivial
  | cons act acts ih =>
    rw [List.forall_mem_cons] at hacts
    refine ⟨⟨hacts.1.1, ?_⟩, ih hacts.2 _⟩
    rw [hacts.1.2]
    exact nofun

/-- What is passed on makes nothing late. -/
theorem allowed_relay (s : Session) (c : Clock d.Item d.Event) :
    Clock.machine.Allowed Prompt (relayMoves d s) c := by
  refine allowed_map_call (fun a ha => ?_) c
  obtain ⟨act, hact, t, ha⟩ := Station.machine.exists_of_mem_log ha
  cases isRelay_of_mem_relayActs hact with
  | sent call =>
    cases d with
    | outbound =>
      cases List.mem_singleton.1 ha
      exact ⟨nofun, fun _ => rfl⟩
    | inbound => cases ha
  | accept token =>
    cases d with
    | outbound => cases ha
    | inbound =>
      cases List.mem_singleton.1 ha
      exact ⟨nofun, fun _ => rfl⟩

theorem allowed_rounds (h : s.Rests) (n : Nat) :
    Clock.machine.Allowed Prompt (roundsMoves d n s) (clock d s) := by
  induction n with
  | zero => trivial
  | succ n ih =>
    rw [roundsMoves, Machine.repeatActs, Machine.allowed_append]
    refine ⟨ih, ?_⟩
    show Clock.machine.Allowed Prompt _ (Clock.machine.run (roundsMoves d n s) (clock d s))
    rw [← clock_rounds]
    exact ⟨(h.repeat_round n).2 d, allowed_relay _ _⟩

theorem allowed_settle (h : s.Paced) :
    Clock.machine.Allowed Prompt (settleMoves d s) (clock d s) := by
  -- Once they have looked, the loops rest in all rounds that follow.
  have hlooked : s.looked.Rests := h.rests_check.relay
  refine ⟨trivial, ?_⟩
  rw [← clock_checkAll, Machine.allowed_append, ← clock_relay, Machine.allowed_append]
  refine ⟨allowed_relay _ _, allowed_rounds hlooked _, ?_⟩
  show Clock.machine.Allowed Prompt _ (Clock.machine.run _ (clock d s.looked))
  rw [← clock_rounds]
  exact allowed_rounds (hlooked.repeat_round _).2 _

theorem restsUntil (hrests : s.Rests) (htimely : s.Timely) :
    ∀ l ∈ (d.lane s.station).loops, l.RestsUntil s.now :=
  fun l hl => ⟨hrests d l hl, fun hphase => ((htimely d l hl).waiting hphase).1⟩

theorem allowed_pass (hrests : s.Rests) (htimely : s.Timely) :
    Clock.machine.Allowed Prompt (passMoves d s) (clock d s) := by
  refine ⟨restsUntil hrests htimely, ?_⟩
  rw [← clock_fired]
  exact allowed_settle htimely.paced.fired

theorem allowed_run (hrests : s.Rests) (htimely : s.Timely) (n : Nat) :
    Clock.machine.Allowed Prompt (runMoves d n s) (clock d s) := by
  fun_induction run n s with
  | case1 s =>
    rw [runMoves]
    trivial
  | case2 s n quiet ih =>
    have hquiet := htimely.quiet n
    rw [runMoves]
    -- In quiet time no loop is due, and the loops rest again after the millisecond that follows.
    refine ⟨fun l hl => ⟨hrests d l hl, fun hphase => ?_⟩, ?_⟩
    · exact lt_of_quietFor hl (htimely d l hl).wait_pos hphase ((htimely d l hl).waiting hphase).1 n
    · rw [Machine.allowed_append]
      refine ⟨allowed_pass hrests hquiet, ?_⟩
      have hnext := ih hquiet.paced.passMilli.2 hquiet.passMilli
      rw [clock_passMilli] at hnext
      exact hnext

/-- A call on the station makes nothing late. -/
theorem allowed_call {act : Station.Act} (hcall : ¬act.IsStep) (hover : s.LeftOver) :
    Clock.machine.Allowed Prompt (callMoves d [act] s) (clock d s) := by
  rw [callMoves_singleton]
  rcases d.acts_onLane act s.station with hacts | ⟨a, hacts⟩
  · rw [hacts]
    trivial
  · have ha : ¬a.IsStep := fun hstep =>
      hcall (d.isStep_of_mem (hacts ▸ List.mem_singleton_self a) hstep)
    rw [hacts]
    -- A loop that is not in charge is over, and if none is then all are.
    refine ⟨⟨ha, fun _ hslot l hl => ?_⟩, trivial⟩
    obtain ⟨i, hi⟩ := List.mem_iff_getElem?.1 hl
    exact hover d i l hi (by simp [show (d.lane s.station).slot = none from hslot])

theorem allowed_step (h : s.Orderly) (act : Act) :
    Clock.machine.Allowed Prompt ((onClock d).acts act s) (clock d s) := by
  cases act with
  | call act hcall => exact allowed_call hcall h.leftOver
  | shutdown =>
    have hbegun := h.timely.beginShutdown
    have hcall : ¬(Lane.Act.detach : Lane.Act d.Item).IsStep := fun hstep => by cases hstep
    refine ⟨⟨hcall, fun hstart => by cases hstart⟩, ?_⟩
    rw [← clock_beginShutdown, Machine.allowed_append, ← clock_settle]
    exact ⟨allowed_settle hbegun.paced, allowed_run hbegun.paced.settle.2 hbegun.settle _⟩
  | settle => exact allowed_settle h.timely.paced
  | advance n =>
    show Clock.machine.Allowed Prompt (settleMoves d s ++ runMoves d n s.settle) _
    rw [Machine.allowed_append, ← clock_settle]
    exact ⟨allowed_settle h.timely.paced, allowed_run h.timely.paced.settle.2 h.timely.settle n⟩
  | connect plan =>
    have hcall : ¬(Station.Act.sent .subscribe).IsStep := fun hstep => by cases hstep
    exact allowed_call hcall h.leftOver
  | handle c =>
    show Clock.machine.Allowed Prompt (handleMoves d c s) _
    cases c with
    | closeBridge =>
      rw [handleMoves]
      split
      · trivial
      · exact allowed_relay _ _
    | _ => trivial

/-- If all loops have a wait, and every shutdown is waited for, nothing is ever late. -/
theorem allowed_log (h : s.Orderly) {acts : List Act}
    (hwaited : ∀ hcall, .call .beginShutdown hcall ∉ acts) (hpaced : (machine.run acts s).Paced) :
    Clock.machine.Allowed Prompt (machine.log (onClock d).acts acts s) (clock d s) := by
  induction acts generalizing s with
  | nil => trivial
  | cons act acts ih =>
    have hstep : (machine.step act s).Orderly :=
      h.step (fun hcall heq => hwaited hcall (heq ▸ List.mem_cons_self)) (paced_of_run hpaced)
    have hrest := ih hstep (fun hcall hmem => hwaited hcall (List.mem_cons_of_mem act hmem)) hpaced
    rw [Machine.log_cons, Machine.allowed_append]
    refine ⟨allowed_step h act, ?_⟩
    have hview : clock d (machine.step act s) = _ := (onClock d).view_step act s
    rw [hview] at hrest
    exact hrest

end Allowed

/-! ### What the beats of a run tell -/

open Lane (Clock Tick)

/-- How the loops of a way keep pace in a run. -/
structure KeepsPace (c : Cadence) (acts : List Act) (d : Station.Way) : Prop where
  /-- A tick publishes what becomes of the item that it takes, if it takes one, and nothing else is
      published. -/
  publishes (m : Lane.Move d.Item) (a : Clock d.Item d.Event) :
    (Clock.machine.step m a).lane.worker.events =
      ((Clock.ticks m a).filterMap (Tick.event? d.work)).foldl (fun p e => p.publish e)
        (Clock.called m a.lane.worker.events)
  /-- The item with the number `k` is taken by the first tick after it was queued and after the item
      before it was taken. -/
  order (k n : Nat) (x : d.Item) :
    let bs := (machine.log (beats d) acts (create c)).map Prod.snd
    IsNth Lane.Beat.served? bs k n x ↔
      (bs.filterMap Lane.Beat.queued?)[k]? = some x ∧ IsLeast (Lane.turns bs k) n
  next {wait : Nat} (hwait : 1 ≤ wait) (start now : Nat) :
    IsLeast {t | ∃ j, 1 ≤ j ∧ t = start + j * wait ∧ now < t} (nextTick start wait now)
  /-- As long as a loop that was started is not asked to stop, and no other one is, items are taken
      at its first ticks after they were queued and after the item before them was taken. -/
  departs {before after : List Act} {act : Station.Act} {hcall : ¬act.IsStep}
    (hacts : acts = before ++ .call act hcall :: after) {i : Nat}
    (hstart : d.note act (machine.run before (create c)).station = [.started i])
    {l : PollLoop} (hl : (d.lane (machine.run acts (create c)).station).loops[i]? = some l)
    (halone : (d.lane (machine.run acts (create c)).station).loops.length = i + 1)
    (hstop : l.stopping = false) :
    let s := machine.step (.call act hcall) (machine.run before (create c))
    (machine.log (beats d) after s).filterMap Clock.departed? =
      (departures s.now l.wait s.now
        ((d.lane s.station).worker.queue.items.map (fun _ => s.now) ++
          (machine.log (beats d) after s).filterMap Clock.arrived?)).takeWhile
            (· ≤ (machine.run acts (create c)).now)
  /-- A tick comes no earlier than the wait of its loop after any tick before. -/
  apart : ((machine.log (beats d) acts (create c)).filterMap Clock.tick?).Pairwise fun t u =>
    ∃ l, (d.lane (machine.run acts (create c)).station).loops[u.2.loop]? = some l ∧
      t.1 + l.wait ≤ u.1

/-- What a loop that is started takes while it works alone. -/
theorem Orderly.departed_run (h : s.Orderly) {act : Station.Act} {hcall : ¬act.IsStep} {i : Nat}
    (hstart : d.note act s.station = [.started i]) {after : List Act} {t : Session}
    (ht : machine.step (.call act hcall) s = t)
    (hms : Clock.machine.Allowed Prompt (machine.log (onClock d).acts after t) (clock d t))
    (hpaced : (machine.run after t).Paced) {l : PollLoop}
    (hl : (d.lane (machine.run after t).station).loops[i]? = some l)
    (halone : (d.lane (machine.run after t).station).loops.length = i + 1)
    (hstop : l.stopping = false) :
    (machine.log (beats d) after t).filterMap Clock.departed? =
      (departures t.now l.wait t.now
        ((d.lane t.station).worker.queue.items.map (fun _ => t.now) ++
          (machine.log (beats d) after t).filterMap Clock.arrived?)).takeWhile
            (· ≤ (machine.run after t).now) := by
  -- The call launched a loop, so that all others were over.
  obtain ⟨wait, hover, hlane, rfl⟩ := d.exists_launch hstart
  have hlane : d.lane t.station = (d.lane s.station).launch wait := by
    rw [← ht]
    exact hlane
  have hnew : (d.lane t.station).loops[(d.lane s.station).loops.length]? =
      some (.started wait) := by
    rw [hlane, Lane.launch, List.getElem?_concat_length]
  have hothers : ∀ j l', (d.lane t.station).loops[j]? = some l' →
      j ≠ (d.lane s.station).loops.length → l'.isOver = true := by
    intro j l' hl' hj
    rw [hlane] at hl'
    have hold := Lane.getElem?_launch (fun heq => hj (Option.some.inj heq).symm) hl'
    by_cases hslot : (d.lane s.station).slot = some j
    · exact hover l' (Lane.current_eq_some hslot hold)
    · exact h.leftOver d j l' hold hslot
  have hwait : l.wait = wait := by
    have hkept := Lane.getElem?_waits_of_append (waits_run after t d) (Lane.getElem?_waits hnew)
    exact Option.some.inj ((Lane.getElem?_waits hl).symm.trans hkept)
  have hpos : 0 < wait := hwait ▸ hpaced d l (List.mem_of_getElem? hl)
  have hdeparted := Clock.departed_run d.tick_eq hms hpos (by rw [clock, hlane]; simp [Lane.launch])
    hnew hothers (by rw [← clock_machine_run]; exact halone) fun l' hl' => by
      rw [← clock_machine_run] at hl'
      cases hl.symm.trans hl'
      exact hstop
  rw [← clock_machine_run, ← log_beats] at hdeparted
  rw [hwait]
  exact hdeparted

/-- Whatever happens in a session in which all loops have a wait and every shutdown is waited for,
    the loops of both ways keep pace. -/
theorem keeps_pace (c : Cadence) (acts : List Act)
    (hwait : ∀ d : Station.Way, ∀ l ∈ (d.lane (machine.run acts (create c)).station).loops,
      1 ≤ l.wait)
    (hwaited : ∀ hcall, .call .beginShutdown hcall ∉ acts) (d : Station.Way) :
    KeepsPace c acts d := by
  have hempty : clock d (create c) = ⟨0, { worker := {} }⟩ :=
    congrArg (Clock.mk 0) (d.lane_create c)
  have hms := allowed_log (d := d) (orderly_create c) hwaited hwait
  constructor
  case publishes => exact fun m a => Clock.events_step d.tick_eq m a
  case order =>
    intro k n x
    have hserves := Clock.serves_run d.tick_eq (machine.log (onClock d).acts acts (create c))
      (clock d (create c))
    rw [← Clock.log_timed_snd, ← log_beats, hempty] at hserves
    exact hserves.isNth_iff k n x
  case next => exact fun hwait start now => isLeast_nextTick hwait start now
  case departs =>
    rintro before after act hcall rfl i hstart l hl halone hstop
    rw [Machine.run_append, Machine.run_cons] at hwait hl halone ⊢
    have hbefore : (machine.run before (create c)).Orderly :=
      orderly_run (fun hcall hmem => hwaited hcall (List.mem_append_left _ hmem))
        (paced_of_step (paced_of_run hwait))
    have hstarted : (machine.step (.call act hcall) (machine.run before (create c))).Orderly :=
      hbefore.step
        (fun hcall' heq => hwaited hcall' (heq ▸ List.mem_append_right _ List.mem_cons_self))
        (paced_of_run hwait)
    exact hbefore.departed_run hstart rfl (allowed_log hstarted (fun hcall' hmem =>
      hwaited hcall' (List.mem_append_right _ (List.mem_cons_of_mem _ hmem))) hwait) hwait hl halone
      hstop
  case apart =>
    -- No loop is there when the run begins.
    have hspaced := Clock.spaced_run hms (by rw [hempty]; exact ⟨nofun, nofun⟩)
    rw [← clock_machine_run, ← log_beats] at hspaced
    refine hspaced.apart.imp fun {t u} ⟨wait, hwait, hle⟩ => ?_
    rw [Lane.waits, List.getElem?_map] at hwait
    obtain ⟨l, hl, rfl⟩ := Option.map_eq_some_iff.1 hwait
    exact ⟨l, hl, hle⟩

/-- A loop is asked to stop, and a slower one is started when it is over; messages are queued
    before, between and after. -/
theorem keeps_pace_restart :
    let acts : List Act := [
      .call (.enqueue .done) nofun,
      .call (.startOutbound 5) nofun,
      .advance 7,
      .call (.enqueue .done) nofun,
      .call .requestStopOutbound nofun,
      .advance 3,
      .call (.startOutbound 20) nofun,
      .call (.enqueue .done) nofun,
      .advance 21]
    (machine.log (beats .outbound) acts (create default)).filterMap Clock.departed? =
        [5, 10, 30] ∧
      KeepsPace default acts .outbound := by
  intro acts
  refine ⟨by decide +kernel, keeps_pace default acts (fun d => ?_) (fun _ => ?_) .outbound⟩
  · cases d <;> decide +kernel
  · simp [acts]

end Session

end GridRobot
