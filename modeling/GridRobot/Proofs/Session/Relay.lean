import GridRobot.Proofs.Lane.Slot
import GridRobot.Proofs.Station.Lifecycle
import GridRobot.Proofs.Station.Junction
import GridRobot.Session.Basic

/-!
# What connections do to a station

When the connections of a session pass everything on, all that the station sees
of it is that bridges look for events and queue tokens (`Session.relayed`). So
the loops and slots of both ways stay as they are, the outbound queue too, and
the tokens that arrive are queued behind those that wait
(`Station.Relayed.queue`).
-/

namespace GridRobot

namespace Station

/-- What bridges do to a station. -/
inductive Act.IsRelay : Act → Prop
  | sent (c : Publisher.Call) : IsRelay (.sent c)
  | accept (token : String) : IsRelay (.accept token)

/-- The second station comes of the first by what bridges do. -/
abbrev Relayed : Station → Station → Prop := machine.Reaches Act.IsRelay

namespace Relayed

variable {s t : Station}

theorem loops (h : s.Relayed t) (d : Way) : (d.lane t).loops = (d.lane s).loops := by
  refine h.preserves (I := fun u => (d.lane u).loops = (d.lane s).loops) ?_ rfl
  rintro _ u (c | token) hu
  · exact .trans (by cases d <;> rfl) hu
  · exact .trans (by cases d <;> rfl) hu

theorem slot (h : s.Relayed t) (d : Way) : (d.lane t).slot = (d.lane s).slot := by
  refine h.preserves (I := fun u => (d.lane u).slot = (d.lane s).slot) ?_ rfl
  rintro _ u (c | token) hu
  · exact .trans (by cases d <;> rfl) hu
  · exact .trans (by cases d <;> rfl) hu

/-- Tokens arrive behind those that wait, and messages to be sent do not. -/
theorem queue (h : s.Relayed t) (d : Way) : ∃ arrived,
    (d.lane t).worker.queue.items = (d.lane s).worker.queue.items ++ arrived ∧
      (d = .outbound → arrived = []) := by
  refine h.preserves (I := fun u => ∃ arrived,
    (d.lane u).worker.queue.items = (d.lane s).worker.queue.items ++ arrived ∧
      (d = .outbound → arrived = [])) ?_ ⟨[], (List.append_nil _).symm, fun _ => rfl⟩
  rintro _ u (c | token) ⟨arrived, hitems, hnone⟩
  · exact ⟨arrived, .trans (by cases d <;> rfl) hitems, hnone⟩
  · cases d with
    | outbound => exact ⟨arrived, hitems, hnone⟩
    | inbound =>
      refine ⟨arrived ++ [token], ?_, nofun⟩
      rw [← List.append_assoc]
      exact congrArg (· ++ [token]) hitems

end Relayed

end Station

namespace Bridge

variable {σ : Type} [Link σ]

/-- What the writer does to the station until it has to wait or is over. -/
def writerActs (b : Bridge σ) (s : Station) : List Station.Act :=
  Machine.repeatActs (fun p : Bridge σ × Station => p.1.writerStep p.2)
    (fun p => (p.1.writerCalls p.2).map .sent)
    ((s.outbound.worker.events.pending b.feed).length + 1) (b, s)

/-- What the reader does to the station until it has to wait or is over. -/
def readerActs (b : Bridge σ) (s : Station) : List Station.Act :=
  Machine.repeatActs (fun p : Bridge σ × Station => p.1.readerStep p.2)
    (fun p => (p.1.readerToken?.map fun t => .accept (tokenOfBytes t)).toList)
    (Link.backlog b.link) (b, s)

theorem runWriter_snd (b : Bridge σ) (s : Station) :
    (b.runWriter s).2 = Station.machine.run (b.writerActs s) s :=
  Station.machine.run_repeatActs Prod.snd (fun p => p.1.writerStep_snd p.2) _ (b, s)

theorem runReader_snd (b : Bridge σ) (s : Station) :
    (b.runReader s).2 = Station.machine.run (b.readerActs s) s :=
  Station.machine.run_repeatActs Prod.snd (fun p => p.1.readerStep_snd p.2) _ (b, s)

theorem isRelay_of_mem_writerActs {b : Bridge σ} {s : Station} {act : Station.Act}
    (h : act ∈ b.writerActs s) : act.IsRelay := by
  obtain ⟨p, hp⟩ := Machine.exists_of_mem_repeatActs h
  obtain ⟨call, -, rfl⟩ := List.mem_map.1 hp
  exact .sent call

theorem isRelay_of_mem_readerActs {b : Bridge σ} {s : Station} {act : Station.Act}
    (h : act ∈ b.readerActs s) : act.IsRelay := by
  obtain ⟨p, hp⟩ := Machine.exists_of_mem_repeatActs h
  obtain ⟨t, -, rfl⟩ := Option.map_eq_some_iff.1 (Option.mem_toList.1 hp)
  exact .accept _

end Bridge

namespace Connection

/-- What a connection does to the station when all goes on that can. -/
def relayActs (c : Connection) (s : Station) : List Station.Act :=
  c.bridge.writerActs s ++
    (c.stepBridge Bridge.runWriter s).1.runRobot.bridge.readerActs (c.bridge.runWriter s).2

theorem relay_snd (c : Connection) (s : Station) :
    (c.relay s).2 = Station.machine.run (c.relayActs s) s := by
  rw [relayActs, Station.machine.run_append, ← Bridge.runWriter_snd, ← Bridge.runReader_snd]
  rfl

theorem isRelay_of_mem_relayActs {c : Connection} {s : Station} {act : Station.Act}
    (h : act ∈ c.relayActs s) : act.IsRelay :=
  (List.mem_append.1 h).elim Bridge.isRelay_of_mem_writerActs Bridge.isRelay_of_mem_readerActs

theorem relayed_establish (n : Nat) (plan : LinkPlan) (s : Station) :
    s.Relayed (establish n plan s).2 :=
  Machine.Reaches.single (Station.Act.IsRelay.sent .subscribe) s

end Connection

namespace Session

/-- What connections do to the station, one after the other. -/
def relayEachActs : List Connection → Station → List Station.Act
  | [], _ => []
  | c :: cs, s => c.relayActs s ++ relayEachActs cs (c.relay s).2

/-- What all connections do to the station. -/
def relayActs (s : Session) : List Station.Act :=
  relayEachActs (s.retired ++ s.current.toList) s.station

theorem relayEach_snd (cs : List Connection) (s : Station) :
    (relayEach cs s).2 = Station.machine.run (relayEachActs cs s) s := by
  induction cs generalizing s with
  | nil => rfl
  | cons c cs ih =>
    rw [relayEachActs, Station.machine.run_append, ← Connection.relay_snd, ← ih]
    rfl

theorem relayEachActs_append (cs cs' : List Connection) (s : Station) :
    relayEachActs (cs ++ cs') s =
      relayEachActs cs s ++ relayEachActs cs' (relayEach cs s).2 := by
  induction cs generalizing s with
  | nil => rfl
  | cons c cs ih =>
    rw [List.cons_append, relayEachActs, ih, relayEachActs, List.append_assoc]
    rfl

theorem station_relay (s : Session) :
    s.relay.station = Station.machine.run s.relayActs s.station := by
  rw [relay, relayActs, relayEachActs_append, Station.machine.run_append, ← relayEach_snd]
  cases s.current with
  | none => rfl
  | some c =>
    rw [← relayEach_snd]
    rfl

theorem isRelay_of_mem_relayActs {s : Session} {act : Station.Act} (h : act ∈ s.relayActs) :
    act.IsRelay := by
  rw [relayActs] at h
  generalize s.retired ++ s.current.toList = cs, s.station = t at h
  induction cs generalizing t with
  | nil => cases h
  | cons c cs ih => exact (List.mem_append.1 h).elim Connection.isRelay_of_mem_relayActs (ih _)

theorem relayed (s : Session) : s.station.Relayed s.relay.station :=
  ⟨s.relayActs, fun _ => isRelay_of_mem_relayActs, s.station_relay.symm⟩

end Session

end GridRobot
