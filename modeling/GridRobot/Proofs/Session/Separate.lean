import GridRobot.Proofs.Lane.Still
import GridRobot.Proofs.Session.Clock

/-!
# The two ways of a session are separate

Without a bridge, nothing of what is done in one way can be noticed in the other
one. Take two runs in which time passes alike and the same is done in one way, at
the same points, whatever is done in the other: what comes of the calls, what is
found, which loop ticks when, and how the queue, the loops and their counters
stand, is the same in both (`Session.ways_apart`). All points of the runs may be
compared in this way, since a run up to a point is a run.

The ways meet only in time. A session settles in as many rounds as both ways
need together, and passes quiet time at once if it is quiet in both; but a lane
does not notice if it is told of more rounds, or of time in pieces
(`Session.alike_settle`, `Session.alike_run`).
-/

namespace GridRobot

namespace Station

namespace Way

/-- The call is one on this way alone. -/
def concerns : Way → Act → Bool
  | outbound, .enqueue _ => true
  | outbound, .sent _ => true
  | outbound, .startOutbound _ => true
  | outbound, .requestStopOutbound => true
  | inbound, .accept _ => true
  | inbound, .received _ => true
  | inbound, .startInbound _ => true
  | inbound, .requestStopInbound => true
  | _, _ => false

/-- The wait of the loop that a call starts in this way. -/
def startWait? : Way → Act → Option Nat
  | outbound, .startOutbound wait => some wait
  | inbound, .startInbound wait => some wait
  | _, _ => none

variable {d : Way} {act : Act}

/-- What such a call does in its lane depends on nothing else. -/
theorem acts_eq_of_concerns (h : d.concerns act = true) (s t : Station) :
    d.onLane.acts act s = d.onLane.acts act t := by
  cases d with
  | outbound =>
    cases act with
    | start => cases h
    | _ => rfl
  | inbound =>
    cases act with
    | start => cases h
    | _ => rfl

/-- A call on the other way alone does nothing in this one. -/
theorem acts_eq_nil_of_concerns (hone : (outbound.concerns act || inbound.concerns act) = true)
    (h : d.concerns act = false) (s : Station) : d.onLane.acts act s = [] := by
  cases d with
  | outbound =>
    cases act with
    | enqueue _ | sent _ | startOutbound _ | requestStopOutbound => cases h
    | start | beginShutdown | checkOutbound _ _ | tickOutbound _ =>
      cases (show false = true from hone)
    | _ => rfl
  | inbound =>
    cases act with
    | accept _ | received _ | startInbound _ | requestStopInbound => cases h
    | start | beginShutdown | checkInbound _ _ | tickInbound _ =>
      cases (show false = true from hone)
    | _ => rfl

theorem startWait?_eq_none (h : d.concerns act = false) : d.startWait? act = none := by
  cases d with
  | outbound =>
    cases act with
    | startOutbound wait => cases h
    | _ => rfl
  | inbound =>
    cases act with
    | startInbound wait => cases h
    | _ => rfl

/-- Whether a loop of a way can be started is decided in its lane. -/
theorem start_map (d : Way) (wait : Nat) (s : Station) :
    ((d.start wait s).map fun _ => ()) = ((d.lane s).start wait).map fun _ => () := by
  rw [d.start_eq]
  cases (d.lane s).start wait <;> rfl

end Way

end Station

namespace Session

open Lane

variable {d : Station.Way} {s t : Session}

/-! ### Sessions without a bridge -/

/-- The session has no connection. -/
def Unconnected (s : Session) : Prop := s.retired = [] ∧ s.current = none

theorem unconnected_create (c : Cadence) : (create c).Unconnected := ⟨rfl, rfl⟩

namespace Unconnected

theorem relay_eq (h : s.Unconnected) : s.relay = s := by
  obtain ⟨now, station, retired, current, nextLink⟩ := s
  obtain ⟨rfl, rfl⟩ := h
  rfl

theorem relayMoves (h : s.Unconnected) : relayMoves d s = [] := by
  have hacts : s.relayActs = [] := by
    rw [relayActs, h.1, h.2]
    rfl
  rw [Session.relayMoves, hacts]
  rfl

theorem update (h : s.Unconnected) (f : Station → Station) : (s.update f).Unconnected := h

theorem round (h : s.Unconnected) : s.round.Unconnected := by
  rw [Session.round, (h.update _).relay_eq]
  exact h

theorem rounds (h : s.Unconnected) (n : Nat) : (n.repeat Session.round s).Unconnected := by
  induction n with
  | zero => exact h
  | succ n ih => exact ih.round

theorem looked (h : s.Unconnected) : s.looked.Unconnected := by
  rw [Session.looked, (h.update _).relay_eq]
  exact h

theorem emptied (h : s.Unconnected) : s.emptied.Unconnected := h.looked.rounds _

theorem settle (h : s.Unconnected) : s.settle.Unconnected := h.emptied.rounds _

theorem passMilli (h : s.Unconnected) : s.passMilli.Unconnected := settle (s := s.fired) h

theorem run (h : s.Unconnected) (n : Nat) : (Session.run n s).Unconnected :=
  run_preserves (fun _ _ h => h) (fun _ h => h.passMilli) n h

theorem roundsMoves (h : s.Unconnected) (n : Nat) :
    roundsMoves d n s = List.replicate n .spin := by
  induction n with
  | zero => rfl
  | succ n ih =>
    have hround : roundMoves d (n.repeat Session.round s) = [.spin] :=
      congrArg (Move.spin :: ·) ((h.rounds n).update _).relayMoves
    rw [List.replicate_succ', ← ih, ← hround]
    rfl

theorem settleMoves (h : s.Unconnected) : settleMoves d s = .look :: List.replicate
    (s.looked.station.outbound.rounds + s.emptied.station.inbound.rounds) .spin := by
  rw [Session.settleMoves, (h.update _).relayMoves, h.looked.roundsMoves,
    h.emptied.roundsMoves, List.nil_append, List.replicate_append_replicate]

/-- The rounds in which a session settles are enough for both ways. -/
theorem still_settle (h : s.Unconnected) : (clock d s.settle).Still := by
  have hlooked : (clock d s.looked).Looked := by
    rw [Session.looked, (h.update _).relay_eq]
    rw [clock_checkAll]
    exact Clock.looked_look _
  have hmore : ∀ n (t : Session), t.Unconnected → clock d (n.repeat Session.round t) =
      Clock.machine.run (List.replicate n .spin) (clock d t) := by
    intro n t ht
    rw [clock_rounds, ht.roundsMoves]
  have hemptied : (clock d s.emptied).Cleared := by
    rw [Session.emptied, hmore _ _ h.looked]
    exact Clock.cleared_spins hlooked _
  have hsettle : s.settle = s.emptied.station.inbound.rounds.repeat Session.round s.emptied := rfl
  rw [hsettle, hmore _ _ h.emptied]
  cases d with
  | outbound =>
    -- The first rounds were for this way, so that it is still before the others.
    have hstill : (clock .outbound s.emptied).Still := by
      rw [Session.emptied, hmore _ _ h.looked, Lane.rounds, List.replicate_succ]
      refine Clock.still_spins Station.tick_outboundFeed (fun _ => rfl)
        (Clock.cleared_spin hlooked) ?_
      rw [Clock.waiting_spin Station.tick_outboundFeed]
      exact Nat.sub_le _ _
    rw [(hstill.alike_replicate _).run]
    exact hstill
  | inbound =>
    exact Clock.still_spins Station.tick_inboundFeed (fun _ => rfl) hemptied (Nat.le_succ _)

end Unconnected

/-! ### What a lane notices of time -/

/-- A lane does not notice how many rounds the other way needs. -/
theorem alike_settle (h : s.Unconnected) :
    Clock.Alike (settleMoves d s) (Clock.settling (clock d s)) (clock d s) := by
  have hstill : (clock d s.settle).Still := h.still_settle
  rw [clock_settle, h.settleMoves] at hstill
  rw [h.settleMoves]
  exact Clock.alike_settling d.tick_eq d.load_eq hstill

/-- A lane does not notice when something happens in the other way. -/
theorem alike_run (h : s.Unconnected) (hstill : (clock d s).Still) (n : Nat) :
    Clock.Alike (runMoves d n s) (Clock.millis n (clock d s)) (clock d s) := by
  fun_induction run n s with
  | case1 s =>
    rw [runMoves]
    exact .refl _ _
  | case2 s n quiet ih =>
    have hle : quiet ≤ n := s.station.quietFor_le s.now n
    -- The time is quiet in both ways, so it is in this one.
    obtain ⟨m, hquiet⟩ : ∃ m, quiet ≤ (clock d s).lane.quietFor (clock d s).now m := by
      cases d with
      | outbound => exact ⟨n, s.station.inbound.quietFor_le s.now _⟩
      | inbound => exact ⟨_, Nat.le_refl _⟩
    have hidle : Clock.Alike [.idle quiet] (Clock.millis quiet (clock d s)) (clock d s) :=
      (hstill.alike_millis fun l hl k hpos hk =>
        Clock.not_isDue_of_quietFor hquiet hl hpos hk).symm
    let s' : Session := { s with now := s.now + quiet }
    have hidled : clock d s' = Clock.machine.run [.idle quiet] (clock d s) := rfl
    have hmilli : Clock.Alike (passMoves d s') (Clock.milli (clock d s')) (clock d s') := by
      refine .cons .pass ?_
      rw [← clock_fired]
      exact alike_settle h
    have hrest := ih (Unconnected.passMilli h)
      (Unconnected.still_settle (s := s'.fired) h)
    have hsplit : n + 1 = quiet + (1 + (n - quiet)) := by omega
    have hmillis : Clock.millis (n + 1) (clock d s) = Clock.millis quiet (clock d s) ++
        (Clock.milli (clock d s') ++
          Clock.millis (n - quiet)
            (Clock.machine.run (Clock.milli (clock d s')) (clock d s'))) := by
      rw [hsplit, Clock.millis_add, ← hidle.run, ← hidled, Clock.millis_add]
      rfl
    rw [runMoves, hmillis]
    refine hidle.append (hmilli.append ?_)
    rw [← hmilli.run, ← clock_passMilli]
    exact hrest

/-! ### What concerns one way -/

/-- A call on one way of the station, or time passes. -/
def Act.isOneWay : Act → Bool
  | .call act _ => Station.Way.outbound.concerns act || Station.Way.inbound.concerns act
  | .settle => true
  | .advance _ => true
  | _ => false

/-- A call on this way of the station, or time passes. -/
def Act.concerns (d : Station.Way) : Act → Bool
  | .call act _ => d.concerns act
  | .settle => true
  | .advance _ => true
  | _ => false

/-- What comes of a call that starts a loop of a way. -/
def started (d : Station.Way) : Act → Session → List (Except LoopError Unit)
  | .call act _, s => (d.startWait? act).toList.map fun wait =>
      (d.start wait s.station).map fun _ => ()
  | _, _ => []

/-- The event that the `i`-th subscription of a way finds. -/
def found (d : Station.Way) (i : Nat) : Act → Session → List d.Event
  | .call act _, s => d.onLane.see (Lane.found i) act s.station
  | _, _ => []

/-- The events that ticks of a way publish, with their times. -/
def published (d : Station.Way) (acts : List Act) (s : Session) : List (Nat × d.Event) :=
  (machine.log (beats d) acts s).filterMap fun b =>
    (b.2.tick?.bind (Tick.event? d.work)).map (b.1, ·)

theorem unconnected_step {act : Act} (hact : act.isOneWay = true) (h : s.Unconnected) :
    (machine.step act s).Unconnected := by
  cases act with
  | call act hcall => exact h
  | settle => exact h.settle
  | advance n => exact h.settle.run n
  | _ => cases hact

/-- What happens to the lane of a way can be told from how it stood before. -/
theorem alike_acts {act : Act} (hact : act.concerns d = true) (hs : s.Unconnected)
    (ht : t.Unconnected) (hview : clock d s = clock d t) :
    Clock.Alike ((onClock d).acts act s) ((onClock d).acts act t) (clock d s) := by
  cases act with
  | call act hcall =>
    have hsame : callMoves d [act] s = callMoves d [act] t := by
      rw [callMoves_singleton, callMoves_singleton, Station.Way.acts_eq_of_concerns hact]
    show Clock.Alike (callMoves d [act] s) (callMoves d [act] t) _
    rw [hsame]
    exact .refl _ _
  | settle =>
    have hother := (alike_settle (d := d) ht).symm
    rw [← hview] at hother
    exact (alike_settle hs).trans hother
  | advance n =>
    have hadvance : ∀ {u : Session}, u.Unconnected →
        Clock.Alike (settleMoves d u ++ runMoves d n u.settle) (Clock.settling (clock d u) ++
          Clock.millis n (Clock.machine.run (Clock.settling (clock d u)) (clock d u)))
          (clock d u) := by
      intro u hu
      refine (alike_settle hu).append ?_
      rw [← (alike_settle hu).run, ← clock_settle]
      exact alike_run hu.settle hu.still_settle n
    have hother := (hadvance ht).symm
    rw [← hview] at hother
    exact (hadvance hs).trans hother
  | _ => cases hact

/-- Nothing happens to the lane of a way that a call does not concern. -/
theorem acts_eq_nil {act : Act} (hone : act.isOneWay = true) (h : act.concerns d = false) :
    (onClock d).acts act s = [] := by
  cases act with
  | call act hcall =>
    show callMoves d [act] s = []
    rw [callMoves_singleton, Station.Way.acts_eq_nil_of_concerns hone h, List.map_nil]
  | settle => cases h
  | advance n => cases h
  | _ => cases hone

/-- In a session without a bridge, the lane of a way tells what is observed of it if the calls on it
    are told by it. -/
theorem unwinding {β : Type} (see : Act → Session → List β)
    (hleaves : ∀ {act : Act} {s : Session}, act.isOneWay = true → act.concerns d = false →
      see act s = [])
    (htells : ∀ {act : Act} {s t : Session}, act.concerns d = true → s.Unconnected →
      t.Unconnected → clock d s = clock d t → see act s = see act t) :
    machine.Unwinding (fun act => act.isOneWay = true) Unconnected (Act.concerns d) (clock d)
      see where
  keeps ha hs := unconnected_step ha hs
  leaves {act s} ha _ h := by
    have hview : clock d (machine.step act s) = _ := (onClock d).view_step act s
    rw [hview, acts_eq_nil ha h]
    exact ⟨rfl, hleaves ha h⟩
  tells {act s t} _ hs ht h hview := by
    have hs' : clock d (machine.step act s) = _ := (onClock d).view_step act s
    have ht' : clock d (machine.step act t) = _ := (onClock d).view_step act t
    rw [hs', ht']
    have hrun := (alike_acts h hs ht hview).run
    exact ⟨hrun.trans (congrArg (Clock.machine.run _) hview), htells h hs ht hview⟩

theorem unwinding_beats (d : Station.Way) :
    machine.Unwinding (fun act => act.isOneWay = true) Unconnected (Act.concerns d) (clock d)
      (beats d) := by
  refine unwinding (beats d) (fun {act s} hone h => ?_) fun {act s t} h hs ht hview => ?_
  · rw [beats, Simulation.see, acts_eq_nil hone h]
    rfl
  · exact (alike_acts h hs ht hview).timed.trans (congrArg (Clock.machine.log _ _) hview)

theorem unwinding_started (d : Station.Way) :
    machine.Unwinding (fun act => act.isOneWay = true) Unconnected (Act.concerns d) (clock d)
      (started d) := by
  refine unwinding (started d) (fun {act s} _ h => ?_) fun {act s t} _ _ _ hview => ?_
  · cases act with
    | call act hcall =>
      rw [started, Station.Way.startWait?_eq_none h]
      rfl
    | _ => rfl
  · have hlane : d.lane s.station = d.lane t.station := congrArg Clock.lane hview
    cases act with
    | call act hcall => simp only [started, Station.Way.start_map, hlane]
    | _ => rfl

theorem unwinding_found (d : Station.Way) (i : Nat) :
    machine.Unwinding (fun act => act.isOneWay = true) Unconnected (Act.concerns d) (clock d)
      (found d i) := by
  refine unwinding (found d i) (fun {act s} hone h => ?_) fun {act s t} h _ _ hview => ?_
  · cases act with
    | call act hcall =>
      rw [found, Simulation.see, Station.Way.acts_eq_nil_of_concerns hone h]
      rfl
    | _ => rfl
  · have hlane : d.onLane.view s.station = d.onLane.view t.station := congrArg Clock.lane hview
    cases act with
    | call act hcall =>
      rw [found, Simulation.see, hlane, Station.Way.acts_eq_of_concerns h s.station t.station]
      rfl
    | _ => rfl

/-! ### Two runs -/

/-- What is the same in a way, in two runs. -/
structure SameWay (d : Station.Way) (c : Cadence) (acts acts' : List Act) : Prop where
  now : (machine.run acts (create c)).now = (machine.run acts' (create c)).now
  /-- The queue, the subscriptions, the loops with their counters, and which one is in charge. -/
  lane : d.lane (machine.run acts (create c)).station =
    d.lane (machine.run acts' (create c)).station
  started : machine.log (started d) acts (create c) = machine.log (started d) acts' (create c)
  found (i : Nat) : machine.log (found d i) acts (create c) =
    machine.log (found d i) acts' (create c)
  beats : machine.log (beats d) acts (create c) = machine.log (beats d) acts' (create c)
  published : published d acts (create c) = published d acts' (create c)

/-- If the same is done in a way, at the same points in time, then whatever is done in the other way
    cannot be noticed in this one. -/
theorem ways_apart (c : Cadence) {acts acts' : List Act}
    (hacts : ∀ act ∈ acts, act.isOneWay = true) (hacts' : ∀ act ∈ acts', act.isOneWay = true)
    (d : Station.Way) (h : acts.filter (Act.concerns d) = acts'.filter (Act.concerns d)) :
    SameWay d c acts acts' := by
  have hrest := unconnected_create c
  obtain ⟨hclock, hbeats⟩ := (unwinding_beats d).run_eq hacts hacts' h hrest
  exact {
    now := congrArg Clock.now hclock
    lane := congrArg Clock.lane hclock
    started := ((unwinding_started d).run_eq hacts hacts' h hrest).2
    found := fun i => ((unwinding_found d i).run_eq hacts hacts' h hrest).2
    beats := hbeats
    published := congrArg (List.filterMap _) hbeats }

/-- Beside the loop that classifies tokens, one without a wait empties the outbound queue, and
    another one is started when it is over. -/
theorem ways_apart_busy :
    let acts : List Act := [
      .call (.accept "D") nofun,
      .call (.startInbound 3) nofun,
      .advance 2,
      .call (.accept "?") nofun,
      .advance 4]
    let acts' : List Act := [
      .call (.startOutbound 0) nofun,
      .call (.accept "D") nofun,
      .call (.enqueue .done) nofun,
      .call (.startInbound 3) nofun,
      .advance 2,
      .call .requestStopOutbound nofun,
      .call (.sent .subscribe) nofun,
      .call (.accept "?") nofun,
      .advance 4,
      .call (.startOutbound 2) nofun]
    (published .inbound acts (create default)).map Prod.fst = [3, 6] ∧
      SameWay .inbound default acts acts' := by
  intro acts acts'
  have hacts : ∀ act ∈ acts, act.isOneWay = true := by decide
  have hacts' : ∀ act ∈ acts', act.isOneWay = true := by decide
  exact ⟨by decide +kernel, ways_apart default hacts hacts' .inbound rfl⟩

end Session

end GridRobot
