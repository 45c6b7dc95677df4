import GridRobot.Proofs.Station.Run
import GridRobot.Station.Bridge

/-!
# Runs of a station with bridges

A junction is a station with all bridges ever made between it and links. The
tasks of the bridges take their steps one at a time and in any order, among the
steps of the station; the links may be of any sort, and anything may happen to
them meanwhile.

The station of a junction sees the run as a run of its own
(`Junction.onStation`): a writer looks for events, a reader queues the tokens
that it takes.
-/

namespace GridRobot

namespace Bridge

variable {σ : Type} [Link σ]

/-- What the writer does, in its next step, with its subscription. -/
def writerCalls (b : Bridge σ) (s : Station) : List Publisher.Call :=
  if b.writer.isRunning then
    match (s.outbound.worker.events.poll b.feed).1 with
    | .ready e =>
      match (Link.send (Utf8.encode e.wire.toList) b.link).1 with
      | .ok () => [.poll b.feed]
      | .error _ => [.poll b.feed, .drop b.feed]
    | .ended => [.drop b.feed]
    | .pending => if b.stopping then [.drop b.feed] else []
  else []

/-- The token that the reader takes in its next step. -/
def readerToken? (b : Bridge σ) : Option Token :=
  if b.reader.isRunning then
    match (Link.receive b.link).1 with
    | .token t => some t
    | _ => none
  else none

theorem writerStep_snd (b : Bridge σ) (s : Station) :
    (b.writerStep s).2 = Station.machine.run ((b.writerCalls s).map .sent) s := by
  rw [writerStep, writerCalls]
  split
  · rcases hpoll : s.outbound.worker.events.poll b.feed with ⟨e | _ | _, events⟩
    · -- The event is taken out of the mailbox even if the link then refuses it.
      have hcall : s.callSent (.poll b.feed) = s.updateOutbound fun f => { f with events } := by
        rw [Station.callSent, Station.updateOutbound, Station.updateOutbound, Publisher.perform,
          hpoll]
      dsimp only
      rw [← hcall]
      rcases Link.send (Utf8.encode e.wire.toList) b.link with ⟨_ | _, link⟩
      · rfl
      · rfl
    · rfl
    · dsimp only
      split
      · rfl
      · rfl
  · rfl

theorem readerStep_snd (b : Bridge σ) (s : Station) :
    (b.readerStep s).2 =
      Station.machine.run (b.readerToken?.map fun t => .accept (tokenOfBytes t)).toList s := by
  rw [readerStep, readerToken?]
  split
  · rcases Link.receive b.link with ⟨_ | _ | _ | _ | _, link⟩ <;> rfl
  · rfl

end Bridge

/-- A station and the bridges made for it. -/
structure Junction (σ : Type) where
  station : Station
  bridges : List (Bridge σ) := []

namespace Junction

variable {σ : Type}

/-- What can happen to a junction. -/
inductive Act (σ : Type)
  | station (act : Station.Act)
  /-- A bridge is made. -/
  | spawn (link : σ)
  /-- The writer of the `j`-th bridge takes a step. -/
  | write (j : Nat)
  /-- The reader of the `j`-th bridge takes a step. -/
  | read (j : Nat)
  | requestClose (j : Nat)
  | close (j : Nat)
  | abandon (j : Nat)
  | release (j : Nat)
  /-- Something happens to the link of the `j`-th bridge. -/
  | link (j : Nat) (f : σ → σ)

/-- Does `f` with the `j`-th bridge. -/
def update (j : Nat) (f : Bridge σ → Bridge σ) (s : Junction σ) : Junction σ :=
  { s with bridges := s.bridges.modify j f }

/-- Does a step of the `j`-th bridge. -/
def stepBridge (j : Nat) (f : Bridge σ → Station → Bridge σ × Station) (s : Junction σ) :
    Junction σ :=
  match s.bridges[j]? with
  | some b => { station := (f b s.station).2, bridges := s.bridges.set j (f b s.station).1 }
  | none => s

/-- The junction after a bridge was made. -/
def spawn (link : σ) (s : Junction σ) : Junction σ :=
  { station := (Bridge.spawn link s.station).2
    bridges := s.bridges ++ [(Bridge.spawn link s.station).1] }

variable [Link σ]

/-- The machine of a station with any number of bridges, each of them taking its own steps. -/
def machine : Machine (Act σ) (Junction σ) where
  step
    | .station act, s => { s with station := Station.machine.step act s.station }
    | .spawn link, s => s.spawn link
    | .write j, s => s.stepBridge j Bridge.writerStep
    | .read j, s => s.stepBridge j Bridge.readerStep
    | .requestClose j, s => s.update j Bridge.requestClose
    | .close j, s => s.update j fun b => b.close.2
    | .abandon j, s => s.update j Bridge.abandon
    | .release j, s => s.update j Bridge.releaseUnused
    | .link j f, s => s.update j fun b => { b with link := f b.link }

/-- What the writer of the `j`-th bridge does, in its next step, with its subscription. -/
def calls (j : Nat) (s : Junction σ) : List Publisher.Call :=
  match s.bridges[j]? with
  | some b => b.writerCalls s.station
  | none => []

/-- The token that the reader of the `j`-th bridge takes in its next step. -/
def token? (j : Nat) (s : Junction σ) : Option Token := s.bridges[j]?.bind Bridge.readerToken?

/-- What happens to the station of a junction. -/
def onStation : Simulation (machine : Machine (Act σ) (Junction σ)) Station.machine where
  view := Junction.station
  acts
    | .station act, _ => [act]
    | .spawn _, _ => [.sent .subscribe]
    | .write j, s => (s.calls j).map .sent
    | .read j, s => ((s.token? j).map fun t => .accept (tokenOfBytes t)).toList
    | _, _ => []
  view_step act s := by
    cases act with
    | write j =>
      show (s.stepBridge j Bridge.writerStep).station =
        Station.machine.run ((s.calls j).map .sent) s.station
      rw [stepBridge, calls]
      cases s.bridges[j]? with
      | none => rfl
      | some b => exact b.writerStep_snd s.station
    | read j =>
      show (s.stepBridge j Bridge.readerStep).station =
        Station.machine.run ((s.token? j).map fun t => .accept (tokenOfBytes t)).toList s.station
      rw [stepBridge, token?]
      cases s.bridges[j]? with
      | none => rfl
      | some b => exact b.readerStep_snd s.station
    | _ => rfl

/-- What bridges do to a station is that they look for events and queue tokens. -/
theorem eq_station_of_mem {act : Act σ} {act' : Station.Act} {s : Junction σ}
    (h : act' ∈ onStation.acts act s) :
    act = .station act' ∨ (∃ c, act' = .sent c) ∨ ∃ token, act' = .accept token := by
  cases act with
  | station act =>
    cases List.mem_singleton.1 h
    exact .inl rfl
  | spawn link =>
    cases List.mem_singleton.1 h
    exact .inr (.inl ⟨_, rfl⟩)
  | write j =>
    obtain ⟨c, -, rfl⟩ := List.mem_map.1 h
    exact .inr (.inl ⟨c, rfl⟩)
  | read j =>
    obtain ⟨t, -, rfl⟩ := Option.map_eq_some_iff.1 (Option.mem_toList.1 h)
    exact .inr (.inr ⟨_, rfl⟩)
  | _ => cases h

end Junction

end GridRobot
