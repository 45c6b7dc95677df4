import GridRobot.Proofs.Lane.Counters
import GridRobot.Proofs.Station.Overlap

/-!
# The accounts of a station

Somebody attends a station: its loops may be started and shut down at any time,
but while the end of a shutdown is waited for, no loop is started and no other
shutdown is begun (`Station.Attended`). Each shutdown ends with a report.

Whatever happens, and in whatever order the loops take their steps:

* every loop is reported, was replaced when it was over, is in charge, or is
  waited for, and it is so once (`Station.Attended.InOrder`);
* what is reported of a loop is what it has counted in the end
  (`Station.Attended.InOrder.reported`).

So the reports, together with the loops replaced and the one in charge, account
for all items that were taken and for all events that were published
(`Station.Attended.accounts_balance`).
-/

namespace GridRobot

/-- The event tells of a message that was received. -/
def ReceivedEvent.isAccepted : ReceivedEvent → Bool
  | accepted _ => true
  | rejected _ _ => false

/-- A token that classifies is processed and accepted, and any other fails and is rejected. -/
theorem receiving_cases (token : String) :
    ((classify token).toBool = true ∧ (receiving token).1.isAccepted = true ∧
        (receiving token).2 = .processed) ∨
      (classify token).toBool = false ∧ (receiving token).1.isAccepted = false ∧
        (receiving token).2 = .failed := by
  rw [receiving]
  cases classify token with
  | ok m => exact .inl ⟨rfl, rfl, rfl⟩
  | error e => exact .inr ⟨rfl, rfl, rfl⟩

namespace Stats

/-- Where there is no loop, nothing is added. -/
theorem total_map_filterMap {β ι : Type} {f : Option ι → Stats} (hf : f none = {})
    (g : β → Option ι) (xs : List β) :
    total (xs.map fun x => f (g x)) = total ((xs.filterMap g).map fun i => f (some i)) := by
  induction xs with
  | nil => rfl
  | cons x xs ih =>
    rw [List.map_cons, total_cons, ih]
    cases hx : g x with
    | none =>
      rw [hf, List.filterMap_cons_none hx]
      ext <;> exact Nat.zero_add _
    | some i =>
      rw [List.filterMap_cons_some hx]
      rfl

end Stats

namespace Lane

variable {ω : Type} {a : Lane ω}

theorem statsOf_of_retired {i : Nat} {s : Stats} (h : a.Retired i s) : a.statsOf (some i) = s := by
  obtain ⟨l, hl, -, rfl⟩ := h
  rw [statsOf, Option.bind_some, hl]
  rfl

theorem counters_eq (a : Lane ω) :
    a.counters = (List.range a.loops.length).map fun i => a.statsOf (some i) := by
  refine List.ext_getElem? fun i => ?_
  rw [counters, List.getElem?_map, List.getElem?_map]
  by_cases hi : i < a.loops.length
  · simp [hi, statsOf]
  · simp [Nat.le_of_not_lt hi]

/-- What is told of a loop that was waited for: what it has counted, and nothing if there was no
    such loop. -/
def Tells (a : Lane ω) (i : Option Nat) (s : Stats) : Prop :=
  (i = none ∧ s = {}) ∨ ∃ j, i = some j ∧ a.Retired j s

theorem Tells.eq {i : Option Nat} {s : Stats} (h : a.Tells i s) : s = a.statsOf i := by
  rcases h with ⟨rfl, rfl⟩ | ⟨j, rfl, hj⟩
  · rfl
  · exact (statsOf_of_retired hj).symm

/-- A loop that did not break down is reported when it is over, and not before. -/
theorem report?_cases [Worker ω] (h : a.EndsOnRequest) {i : Option Nat}
    (hi : ∀ j, i = some j → j < a.loops.length) :
    a.report? i = none ∨ ∃ s, a.report? i = some (.ok s) ∧ a.Tells i s := by
  cases i with
  | none => exact .inr ⟨{}, rfl, .inl ⟨rfl, rfl⟩⟩
  | some j =>
    obtain ⟨l, hl⟩ : ∃ l, a.loops[j]? = some l := ⟨_, List.getElem?_eq_getElem (hi j rfl)⟩
    simp only [report?, Option.bind_some, hl]
    by_cases hover : l.isOver = true
    · refine .inr ⟨l.stats, ?_, .inr ⟨j, rfl, l, hl, hover, rfl⟩⟩
      rw [(h l (List.mem_of_getElem? hl) hover).1]
    · refine .inl ?_
      cases hphase : l.phase with
      | finished => exact absurd (by simp [PollLoop.isOver, hphase]) hover
      | crashed => exact absurd (by simp [PollLoop.isOver, hphase]) hover
      | _ => rfl

end Lane

namespace Station

namespace Way

/-- What is worked on is processed or fails. -/
theorem work_ne_idle (d : Way) (x : d.Item) : (d.work x).2 ≠ .idle := by
  cases d with
  | outbound => exact nofun
  | inbound =>
    show (receiving x).2 ≠ .idle
    rw [receiving]
    split <;> exact nofun

/-- The loop of a way whose end a shutdown waits for. -/
def awaited : Way → Shutdown → Option Nat
  | outbound => Shutdown.outbound
  | inbound => Shutdown.inbound

theorem awaited_beginShutdown (d : Way) (s : Station) :
    d.awaited s.beginShutdown.1 = (d.lane s).slot := by
  cases d <;> rfl

end Way

/-- A shutdown whose loops are over ends with a report of them. -/
theorem finishShutdown?_cases {p : Shutdown} {s : Station}
    (hends : ∀ d : Way, (d.lane s).EndsOnRequest)
    (hp : ∀ (d : Way) j, d.awaited p = some j → j < (d.lane s).loops.length) :
    s.finishShutdown? p = none ∨ ∃ r, s.finishShutdown? p = some (.ok r) ∧
      ∀ d : Way, (d.lane s).Tells (d.awaited p) (d.stats r) := by
  have hout : s.outbound.report? p.outbound = none ∨ ∃ x,
      s.outbound.report? p.outbound = some (.ok x) ∧ s.outbound.Tells p.outbound x :=
    Lane.report?_cases (hends .outbound) (hp .outbound)
  have hin : s.inbound.report? p.inbound = none ∨ ∃ y,
      s.inbound.report? p.inbound = some (.ok y) ∧ s.inbound.Tells p.inbound y :=
    Lane.report?_cases (hends .inbound) (hp .inbound)
  rw [finishShutdown?]
  rcases hout with hout | ⟨x, hout, hx⟩
  · rw [hout]
    exact .inl rfl
  · rcases hin with hin | ⟨y, hin, hy⟩
    · rw [hout, hin]
      exact .inl rfl
    · rw [hout, hin]
      refine .inr ⟨⟨x, y⟩, rfl, fun d => ?_⟩
      cases d with
      | outbound => exact hx
      | inbound => exact hy

/-! ### Calls that are made one at a time -/

/-- The call starts a loop, or begins a shutdown. -/
def Act.isExclusive : Act → Bool
  | startOutbound _ | startInbound _ | start | beginShutdown => true
  | _ => false

/-- The shutdown that a call begins. -/
def Act.shutdown? : Act → Station → Option Shutdown
  | beginShutdown, s => some s.beginShutdown.1
  | _, _ => none

namespace Way

variable (d : Way)

/-- What is noted of a call that starts a loop, if it does not fail. -/
theorem note_start (wait : Nat) (a : Lane (Feed d.Item d.Event)) :
    Lane.note (.start wait) a = [] ∨ ∃ i, Lane.note (.start wait) a = [.started i] := by
  rw [Lane.note]
  split
  · exact .inr ⟨_, rfl⟩
  · exact .inl rfl

/-- A call starts a loop of the way, or begins a shutdown, or nothing is noted of it. -/
theorem note_cases (act : Act) (s : Station) :
    (act.isExclusive = true ∧ act.shutdown? s = none ∧ ∃ i, d.note act s = [.started i]) ∨
      (act = .beginShutdown ∧ d.note act s = [.shutDown]) ∨
      (act.shutdown? s = none ∧ d.note act s = []) := by
  have hstart : ∀ act : Act, act.isExclusive = true → act.shutdown? s = none →
      (d.note act s = [] ∨ ∃ wait, d.note act s = Lane.note (.start wait) (d.lane s)) →
      (act.isExclusive = true ∧ act.shutdown? s = none ∧ ∃ i, d.note act s = [.started i]) ∨
        (act = .beginShutdown ∧ d.note act s = [.shutDown]) ∨
        (act.shutdown? s = none ∧ d.note act s = []) := by
    intro act hexclusive hshutdown hnote
    rcases hnote with hnote | ⟨wait, hnote⟩
    · exact .inr (.inr ⟨hshutdown, hnote⟩)
    · rcases d.note_start wait (d.lane s) with h | h
      · exact .inr (.inr ⟨hshutdown, hnote.trans h⟩)
      · exact .inl ⟨hexclusive, hshutdown, hnote ▸ h⟩
  cases act with
  | beginShutdown => exact .inr (.inl ⟨rfl, by cases d <;> rfl⟩)
  | startOutbound wait =>
    refine hstart _ rfl rfl ?_
    cases d with
    | outbound => exact .inr ⟨wait, List.append_nil _⟩
    | inbound => exact .inl rfl
  | startInbound wait =>
    refine hstart _ rfl rfl ?_
    cases d with
    | outbound => exact .inl rfl
    | inbound => exact .inr ⟨wait, List.append_nil _⟩
  | start =>
    refine hstart _ rfl rfl ?_
    rcases d.acts_onLane .start s with h | ⟨a, h⟩
    · exact .inl (by rw [note, Simulation.see, h, Machine.log_nil])
    · obtain ⟨wait, rfl⟩ := d.eq_start_of_mem (h ▸ List.mem_singleton_self a)
      refine .inr ⟨wait, ?_⟩
      rw [note, Simulation.see, h, Machine.log_cons, Machine.log_nil, List.append_nil]
      rfl
  | _ => exact .inr (.inr ⟨rfl, by cases d <;> rfl⟩)

/-- A call starts a loop of the way, or begins a shutdown, or the loops of the way go on. -/
theorem step_cases (act : Act) (s : Station) :
    (∃ wait, act.isExclusive = true ∧ act.shutdown? s = none ∧
        (∀ l, (d.lane s).current = some l → l.isOver = true) ∧
        d.lane (machine.step act s) = (d.lane s).launch wait ∧
        d.note act s = [.started (d.lane s).loops.length]) ∨
      (act = .beginShutdown ∧ d.note act s = [.shutDown]) ∨
      (act.shutdown? s = none ∧ (d.lane s).GoesOn (d.lane (machine.step act s)) ∧
        d.note act s = []) := by
  rcases d.note_cases act s with ⟨hexclusive, hshutdown, i, hnote⟩ | h | ⟨hshutdown, hnote⟩
  · obtain ⟨wait, hover, hlaunch, rfl⟩ := d.exists_launch hnote
    exact .inl ⟨wait, hexclusive, hshutdown, hover, hlaunch, hnote⟩
  · exact .inr (.inl h)
  · exact .inr (.inr ⟨hshutdown, d.goesOn_of_note_eq_nil hnote, hnote⟩)

/-- The loop in charge that a call replaces. -/
def replacedBy (act : Act) (s : Station) : List Nat :=
  if (d.note act s).any Lane.Note.isStart then (d.lane s).slot.toList else []

/-- The tick of a loop of the way that an action is, if it is one. -/
def ticks : Act → Station → List (Lane.Tick d.Item) := d.onLane.see Lane.ticks

end Way

/-! ### Stations that are attended -/

/-- A station, with what is known to somebody who makes one call at a time. -/
structure Attended where
  station : Station
  /-- The shutdown whose end is waited for. -/
  awaited : Option Shutdown := none
  /-- The reports of the shutdowns that have ended. -/
  reports : List (Shutdown × ShutdownReport) := []
  /-- The loops of a way that were in charge when the next one was started. -/
  replaced : Way → List Nat := fun _ => []

namespace Attended

/-- What can happen to a station that is attended. -/
inductive Act
  | station (act : Station.Act)
  /-- The shutdown that is waited for returns, if its loops are over. -/
  | finish

/-- While the end of a shutdown is waited for, no loop is started and no other shutdown is begun. -/
def admits (act : Station.Act) (s : Attended) : Bool := !act.isExclusive || s.awaited.isNone

/-- The station takes an action, and what is to be known of it is noted. -/
def perform (act : Station.Act) (s : Attended) : Attended :=
  { s with
    station := Station.machine.step act s.station
    awaited := (act.shutdown? s.station).or s.awaited
    replaced := fun d => s.replaced d ++ d.replacedBy act s.station }

/-- The shutdown that is waited for returns, if its loops are over. -/
def finish (s : Attended) : Attended :=
  match s.awaited with
  | none => s
  | some p =>
    match s.station.finishShutdown? p with
    | none => s
    | some (.ok r) => { s with awaited := none, reports := s.reports ++ [(p, r)] }
    | some (.error _) => { s with awaited := none }

/-- The machine of an attended station; what it does not admit changes nothing. -/
def machine : Machine Act Attended where
  step
    | .station act, s => if s.admits act then s.perform act else s
    | .finish, s => s.finish

theorem station_finish (s : Attended) : s.finish.station = s.station := by
  rw [finish]
  split
  · rfl
  · split <;> rfl

/-- What happens to the station. -/
def onStation : Simulation machine Station.machine where
  view := station
  acts
    | .station act, s => if s.admits act then [act] else []
    | .finish, _ => []
  view_step act s := by
    cases act with
    | station act =>
      show (if s.admits act then s.perform act else s).station =
        Station.machine.run (if s.admits act then [act] else []) s.station
      split <;> rfl
    | finish => exact s.station_finish

/-- Nothing is known yet. -/
def create (c : Cadence) : Attended := { station := .create c }

/-! ### The loops of a way -/

section Loops

variable (d : Way) (s : Attended)

/-- The loops that were reported. -/
def reported : List Nat := s.reports.filterMap fun report => d.awaited report.1

/-- The loop whose end is waited for. -/
def awaitedLoop : Option Nat := s.awaited.bind d.awaited

/-- The loops that were not reported, or not yet. -/
def unreported : List Nat :=
  s.replaced d ++ ((s.awaitedLoop d).toList ++ (d.lane s.station).slot.toList)

/-- The counters of all loops, as far as they are known. -/
def balance : Stats :=
  .total (s.reports.map (fun report => d.stats report.2) ++
    (s.unreported d).map fun i => (d.lane s.station).statsOf (some i))

/-- All loops of a way are known, each once, and what was reported of them is what they have
    counted. -/
structure InOrder : Prop where
  perm : (s.reported d ++ s.unreported d).Perm (List.range (d.lane s.station).loops.length)
  reported {p : Shutdown} {r : ShutdownReport} (h : (p, r) ∈ s.reports) :
    (d.lane s.station).Tells (d.awaited p) (d.stats r)
  replaced {i : Nat} (h : i ∈ s.replaced d) : ∃ counted, (d.lane s.station).Retired i counted
  endsOnRequest : (d.lane s.station).EndsOnRequest

end Loops

variable {d : Way} {s : Attended}

theorem InOrder.lt_of_mem (h : s.InOrder d) {i : Nat} (hi : i ∈ s.unreported d) :
    i < (d.lane s.station).loops.length :=
  List.mem_range.1 (h.perm.mem_iff.1 (List.mem_append_right _ hi))

theorem InOrder.slot_lt (h : s.InOrder d) {i : Nat} (hi : (d.lane s.station).slot = some i) :
    i < (d.lane s.station).loops.length :=
  h.lt_of_mem (List.mem_append_right _ (List.mem_append_right _ (by simp [hi])))

theorem InOrder.awaited_lt (h : s.InOrder d) {i : Nat} (hi : s.awaitedLoop d = some i) :
    i < (d.lane s.station).loops.length :=
  h.lt_of_mem (List.mem_append_right _ (List.mem_append_left _ (by simp [hi])))

/-- What does not concern the books of a way. -/
theorem InOrder.perform_of_perm (h : s.InOrder d) {act : Station.Act}
    (hperm : (s.reported d ++ (s.perform act).unreported d).Perm
      (List.range (d.lane (s.perform act).station).loops.length))
    (hreplaced : ∀ i ∈ d.replacedBy act s.station, ∃ counted,
      (d.lane s.station).Retired i counted) :
    (s.perform act).InOrder d := by
  -- A loop that is over counts no more, so what is known of it stays true.
  have hretired : ∀ {i : Nat} {counted : Stats}, (d.lane s.station).Retired i counted →
      (d.lane (s.perform act).station).Retired i counted := fun hi =>
    d.onLane.view_run_preserves (fun act _ hi => hi.step act) [act] hi
  refine ⟨hperm, fun {p r} hr => ?_, fun {i} hi => ?_, ?_⟩
  · rcases h.reported hr with hnone | ⟨j, hj, hretired'⟩
    · exact .inl hnone
    · exact .inr ⟨j, hj, hretired hretired'⟩
  · have hold : ∃ counted, (d.lane s.station).Retired i counted := by
      rcases List.mem_append.1 hi with hi | hi
      · exact h.replaced hi
      · exact hreplaced i hi
    obtain ⟨counted, hcounted⟩ := hold
    exact ⟨counted, hretired hcounted⟩
  · exact d.onLane.view_run_preserves (fun act _ => Lane.endsOnRequest_step d.tick_eq act) [act]
      h.endsOnRequest

theorem InOrder.perform (h : s.InOrder d) {act : Station.Act} (hact : s.admits act = true) :
    (s.perform act).InOrder d := by
  have hperm := h.perm
  rcases d.step_cases act s.station with ⟨wait, hexclusive, hshutdown, hover, hlaunch, hnote⟩ |
      ⟨rfl, hnote⟩ | ⟨hshutdown, hgoes, hnote⟩
  · -- The loop that was in charge is replaced by the new one, and no shutdown is under way.
    have hawaited : s.awaited = none := by simpa [admits, hexclusive] using hact
    have hreplacedBy : d.replacedBy act s.station = (d.lane s.station).slot.toList := by
      simp [Way.replacedBy, hnote, Lane.Note.isStart]
    refine h.perform_of_perm ?_ fun i hi => ?_
    · simp only [unreported, awaitedLoop, hawaited, Option.bind_none, Option.toList_none,
        List.nil_append] at hperm
      simp only [unreported, awaitedLoop, Attended.perform, hlaunch, hreplacedBy, hshutdown,
        hawaited, Option.or_none, Option.bind_none, Option.toList_none, List.nil_append,
        Lane.launch, Option.toList_some, List.length_append, List.length_singleton,
        List.range_succ]
      rw [← List.append_assoc]
      exact hperm.append_right _
    · rw [hreplacedBy, Option.mem_toList] at hi
      obtain ⟨l, hl⟩ : ∃ l, (d.lane s.station).loops[i]? = some l :=
        ⟨_, List.getElem?_eq_getElem (h.slot_lt hi)⟩
      exact ⟨l.stats, l, hl, hover l (Lane.current_eq_some hi hl), rfl⟩
  · -- The loop that was in charge is waited for.
    have hawaited : s.awaited = none := by simpa [admits, Act.isExclusive] using hact
    have hreplacedBy : d.replacedBy .beginShutdown s.station = [] := by
      simp [Way.replacedBy, hnote, Lane.Note.isStart]
    have hlane : d.lane (s.perform .beginShutdown).station = (d.lane s.station).detach :=
      d.lane_beginShutdown s.station
    have hlength : (d.lane s.station).detach.loops.length = (d.lane s.station).loops.length :=
      (d.lane s.station).goesOn_requestStop.length
    refine h.perform_of_perm ?_ (by simp [hreplacedBy])
    simp only [unreported, awaitedLoop, hawaited, Option.bind_none, Option.toList_none,
      List.nil_append] at hperm
    rw [hlane, hlength, unreported, awaitedLoop, hlane]
    simpa [Attended.perform, hreplacedBy, Act.shutdown?, Lane.detach, d.awaited_beginShutdown]
      using hperm
  · -- No loop of the way changes its place.
    have hreplacedBy : d.replacedBy act s.station = [] := by simp [Way.replacedBy, hnote]
    refine h.perform_of_perm ?_ (by simp [hreplacedBy])
    simp only [unreported, awaitedLoop, Attended.perform, hreplacedBy, hshutdown, Option.none_or,
      hgoes.slot, hgoes.length, List.append_nil]
    exact hperm

/-- A shutdown that returns reports the loops that it waited for. -/
theorem inOrder_finish (h : ∀ d, s.InOrder d) (d : Way) : s.finish.InOrder d := by
  rw [finish]
  cases hp : s.awaited with
  | none => exact h d
  | some p =>
    have hlt : ∀ (d : Way) j, d.awaited p = some j → j < (d.lane s.station).loops.length :=
      fun d j hj => (h d).awaited_lt (by rw [awaitedLoop, hp, Option.bind_some, hj])
    rcases finishShutdown?_cases (fun d => (h d).endsOnRequest) hlt with hr | ⟨r, hr, htells⟩
    · simp only [hr]
      exact h d
    · simp only [hr]
      refine ⟨?_, fun {p' r'} hmem => ?_, (h d).replaced, (h d).endsOnRequest⟩
      · -- The loop that was waited for is moved to the reported ones.
        have hperm := (h d).perm
        simp only [unreported, awaitedLoop, hp, Option.bind_some] at hperm
        refine .trans ?_ hperm
        simp only [Attended.reported, unreported, awaitedLoop, Option.bind_none, Option.toList_none,
          List.nil_append, List.filterMap_append]
        have hone : [(p, r)].filterMap (fun report => d.awaited report.1) =
            (d.awaited p).toList := by
          cases hd : d.awaited p <;> simp [hd]
        rw [hone, List.append_assoc]
        exact (List.perm_append_comm_assoc _ _ _).append_left _
      · rcases List.mem_append.1 hmem with hmem | hmem
        · exact (h d).reported hmem
        · cases List.mem_singleton.1 hmem
          exact htells d

theorem inOrder_step (h : ∀ d, s.InOrder d) (act : Act) (d : Way) :
    (machine.step act s).InOrder d := by
  cases act with
  | station act =>
    show (if s.admits act then s.perform act else s).InOrder d
    split
    · next hact => exact (h d).perform hact
    · exact h d
  | finish => exact inOrder_finish h d

/-- In every run, all loops of a way are known, each once, and what was reported of them is what
    they have counted. -/
theorem inOrder_run (c : Cadence) (acts : List Act) (d : Way) :
    (machine.run acts (create c)).InOrder d := by
  refine machine.run_preserves (P := fun s => ∀ d, s.InOrder d)
    (fun act s h => inOrder_step h act) acts (fun d => ?_) d
  have hlane : d.lane (create c).station = { worker := {} } := d.lane_create c
  refine ⟨?_, nofun, nofun, ?_⟩
  · rw [unreported, hlane]
    exact .refl _
  · rw [hlane]
    exact nofun

/-! ### What the loops have done -/

/-- The reports, together with the loops that were not reported, account for all loops. -/
theorem InOrder.balance_eq (h : s.InOrder d) :
    s.balance d = .total (d.lane s.station).counters := by
  have hreports : s.reports.map (fun report => d.stats report.2) =
      s.reports.map fun report => (d.lane s.station).statsOf (d.awaited report.1) :=
    List.map_congr_left fun report hmem => (h.reported hmem).eq
  rw [balance, hreports, Stats.total_append,
    Stats.total_map_filterMap (f := ((d.lane s.station).statsOf ·)) rfl, ← Stats.total_append,
    ← List.map_append, Lane.counters_eq]
  exact Stats.total_eq_of_perm (h.perm.map _)

/-- What happens to the lane of a way. -/
def onLane (d : Way) :
    Simulation machine (Lane.machine : Machine _ (Lane (Feed d.Item d.Event))) :=
  onStation.comp d.onLane

/-- The ticks of the loops of a way in a run. -/
def ticks (c : Cadence) (acts : List Act) (d : Way) : List (Lane.Tick d.Item) :=
  machine.log ((onLane d).see Lane.ticks) acts (create c)

variable (c : Cadence) (acts : List Act)

/-- Each loop has counted its ticks, and all together have counted all ticks. -/
theorem counts_run (d : Way) :
    (d.lane (machine.run acts (create c)).station).Counts d.work (ticks c acts d) ∧
      Stats.total (d.lane (machine.run acts (create c)).station).counters =
        .tally ((ticks c acts d).map (Lane.Tick.outcome d.work)) := by
  have hrest : ((onLane d).view (create c)).loops = [] := congrArg Lane.loops (d.lane_create c)
  have hlane : d.lane (machine.run acts (create c)).station = _ :=
    (onLane d).view_run acts (create c)
  rw [hlane, ticks, (onLane d).log_see]
  exact ⟨Lane.counters_run d.tick_eq _ hrest, Lane.total_counters_run d.tick_eq _ hrest⟩

/-- How the ticks of a way, the counters of its loops and the reports agree. -/
structure Accounts (d : Way) (ticks : List (Lane.Tick d.Item)) (s : Attended) : Prop where
  /-- A loop has ticked as often as it found nothing to do, processed an item or failed, and it has
      taken as many items as it processed or failed on. -/
  loop {i : Nat} {l : PollLoop} (hl : (d.lane s.station).loops[i]? = some l) :
    let own := ticks.filter (·.loop = i)
    l.stats.ticks = own.countP (·.item.isNone) + l.stats.processed + l.stats.errors ∧
      l.stats.processed + l.stats.errors = (own.filterMap Lane.Tick.item).length
  /-- A report tells what the loop has counted in the end. -/
  told {p : Shutdown} {r : ShutdownReport} (h : (p, r) ∈ s.reports) :
    d.stats r = (d.lane s.station).statsOf (d.awaited p)
  /-- No loop is in two reports, nor in a report and elsewhere. -/
  once : (s.reported d ++ s.unreported d).Nodup
  /-- A loop that is in no report is in charge or waited for, or was replaced when it was over. -/
  missing {i : Nat} (hi : i < (d.lane s.station).loops.length) (h : i ∉ s.reported d) :
    (d.lane s.station).slot = some i ∨ s.awaitedLoop d = some i ∨
      i ∈ s.replaced d ∧ ∃ l, (d.lane s.station).loops[i]? = some l ∧ l.phase = .finished

theorem accounts_run (d : Way) : (machine.run acts (create c)).Accounts d (ticks c acts d) := by
  have horder := inOrder_run c acts d
  constructor
  case loop =>
    intro i l hl own
    have hcount := (counts_run c acts d).1.counters (Lane.getElem?_counters hl)
    have htaken := countP_processed_add d.work_ne_idle (own.filterMap Lane.Tick.item)
    rw [Lane.Tick.tally_outcome] at hcount
    rw [hcount, Nat.add_assoc]
    refine ⟨?_, htaken⟩
    show own.length = _ + (_ + _)
    rw [htaken, Lane.Tick.length_eq]
  case told => exact fun h => (horder.reported h).eq
  case once => exact horder.perm.nodup_iff.2 List.nodup_range
  case missing =>
    intro i hi hnot
    have hmem := horder.perm.mem_iff.2 (List.mem_range.2 hi)
    rcases List.mem_append.1 ((List.mem_append.1 hmem).resolve_left hnot) with hmem | hmem
    · obtain ⟨counted, l, hl, hover, -⟩ := horder.replaced hmem
      exact .inr (.inr ⟨hmem, l, hl, (horder.endsOnRequest l (List.mem_of_getElem? hl) hover).1⟩)
    · rcases List.mem_append.1 hmem with hmem | hmem
      · exact .inr (.inl (Option.mem_toList.1 hmem))
      · exact .inl (Option.mem_toList.1 hmem)

/-- Of the items of a way that were queued, those that ticks took come first, and the others are
    still queued. -/
theorem queue_run (d : Way) :
    machine.log ((onLane d).see fun act _ => act.pushed?.toList) acts (create c) =
      (ticks c acts d).filterMap Lane.Tick.item ++
        (d.lane (machine.run acts (create c)).station).worker.queue.items := by
  have hqueue := Feed.queue_seen ((onLane d).comp (Lane.feed d.tick_eq)) acts (create c)
  have hrest : (d.lane (create c).station).worker.queue.items = [] := by
    rw [show d.lane (create c).station = { worker := {} } from d.lane_create c]
  have htaken : machine.log ((onLane d).see Lane.taken) acts (create c) =
      (ticks c acts d).filterMap Lane.Tick.item := by
    rw [ticks, (onLane d).log_see, (onLane d).log_see, ← Machine.log_filterMap]
    congr 1
    funext act a
    exact Lane.taken_eq act a
  rw [Simulation.comp_see, Simulation.comp_see, Lane.see_pushed, Lane.see_taken, htaken] at hqueue
  refine .trans ?_ hqueue
  show _ = (d.lane (create c).station).worker.queue.items ++ _
  rw [hrest, List.nil_append]

/-- The events of a way that were published in a run. -/
def published (d : Way) : List d.Event :=
  (ticks c acts d).filterMap (Lane.Tick.event? d.work)

theorem published_eq (d : Way) : published c acts d =
    ((ticks c acts d).filterMap Lane.Tick.item).map fun x => (d.work x).1 := by
  rw [published, List.map_filterMap]
  rfl

theorem balance_run (d : Way) : (machine.run acts (create c)).balance d =
    ⟨(ticks c acts d).length,
      ((ticks c acts d).filterMap Lane.Tick.item).countP fun x => (d.work x).2 = .processed,
      ((ticks c acts d).filterMap Lane.Tick.item).countP fun x => (d.work x).2 = .failed⟩ := by
  rw [(inOrder_run c acts d).balance_eq, (counts_run c acts d).2, Lane.Tick.tally_outcome]

/-- A message that is taken is processed, and published as sent. -/
theorem balance_outbound : (machine.run acts (create c)).balance .outbound =
    ⟨(ticks c acts .outbound).length, (published c acts .outbound).length, 0⟩ := by
  rw [balance_run, published_eq, List.length_map]
  congr 1
  · exact List.countP_eq_length.2 fun _ _ => rfl
  · exact List.countP_eq_zero.2 fun _ _ => nofun

/-- A token that is taken is processed if it classifies, and fails if not. -/
theorem balance_inbound : (machine.run acts (create c)).balance .inbound =
    ⟨(ticks c acts .inbound).length,
      ((ticks c acts .inbound).filterMap Lane.Tick.item).countP fun token => (classify token).toBool,
      ((ticks c acts .inbound).filterMap Lane.Tick.item).countP fun token =>
        !(classify token).toBool⟩ := by
  rw [balance_run]
  congr 1
  all_goals
    refine List.countP_congr fun token _ => ?_
    rcases receiving_cases token with ⟨hclassify, -, hwork⟩ | ⟨hclassify, -, hwork⟩
    all_goals simp [Way.work, hclassify, hwork]

/-- Accordingly it is published as accepted, or as rejected. -/
theorem countP_published_inbound :
    (published c acts .inbound).countP ReceivedEvent.isAccepted =
        ((ticks c acts .inbound).filterMap Lane.Tick.item).countP (fun token =>
          (classify token).toBool) ∧
      (published c acts .inbound).countP (!·.isAccepted) =
        ((ticks c acts .inbound).filterMap Lane.Tick.item).countP fun token =>
          !(classify token).toBool := by
  rw [published_eq, List.countP_map, List.countP_map]
  refine ⟨List.countP_congr fun token _ => ?_, List.countP_congr fun token _ => ?_⟩
  all_goals
    rcases receiving_cases token with ⟨hclassify, hevent, -⟩ | ⟨hclassify, hevent, -⟩
    all_goals simp [Way.work, hclassify, hevent]

/-- What the counters and reports of a run tell of the items taken and the events published. -/
structure Balanced : Prop where
  accounts (d : Way) : (machine.run acts (create c)).Accounts d (ticks c acts d)
  /-- The items that ticks took are gone from the queue, and no others. -/
  drained (d : Way) : machine.log ((onLane d).see fun act _ => act.pushed?.toList) acts (create c) =
    (ticks c acts d).filterMap Lane.Tick.item ++
      (d.lane (machine.run acts (create c)).station).worker.queue.items
  /-- A tick publishes what becomes of the item that it took. -/
  publishes (d : Way) (i : Nat) (t : Station) :
    (d.lane (Station.machine.step (d.tickAct i) t)).worker.events =
      ((Lane.ticks (.tick i) (d.lane t)).filterMap (Lane.Tick.event? d.work)).foldl
        (fun p e => p.publish e) (d.lane t).worker.events
  sent : ((machine.run acts (create c)).balance .outbound).processed =
      (published c acts .outbound).length ∧
    ((machine.run acts (create c)).balance .outbound).errors = 0
  accepted : ((machine.run acts (create c)).balance .inbound).processed =
      (published c acts .inbound).countP ReceivedEvent.isAccepted ∧
    ((machine.run acts (create c)).balance .inbound).processed =
      ((ticks c acts .inbound).filterMap Lane.Tick.item).countP fun token =>
        (classify token).toBool
  rejected : ((machine.run acts (create c)).balance .inbound).errors =
      (published c acts .inbound).countP (!·.isAccepted) ∧
    ((machine.run acts (create c)).balance .inbound).errors =
      ((ticks c acts .inbound).filterMap Lane.Tick.item).countP fun token =>
        !(classify token).toBool

/-- Whatever happens to a station that is attended, the counters of each loop account for its
    ticks; and the reports, with the loops that are in none, account for all events: every message
    that was taken is sent, and a token is accepted if it classifies and rejected if not. -/
theorem accounts_balance : Balanced c acts := by
  obtain ⟨haccepted, hrejected⟩ := countP_published_inbound c acts
  constructor
  case accounts => exact accounts_run c acts
  case drained => exact queue_run c acts
  case publishes =>
    intro d i t
    rw [d.lane_tick]
    exact Lane.events_tickAt d.tick_eq i (d.lane t)
  case sent =>
    rw [balance_outbound]
    exact ⟨rfl, rfl⟩
  case accepted =>
    rw [balance_inbound]
    exact ⟨haccepted.symm, rfl⟩
  case rejected =>
    rw [balance_inbound]
    exact ⟨hrejected.symm, rfl⟩

end Attended

end Station

end GridRobot
