import GridRobot.Proofs.Lane.Slot

/-!
# What the loops of a lane have done

A loop counts its ticks by what came of them. So at any time in a run

* the counters of a loop are the tally of the ticks that it has done
  (`Lane.counters_run`);
* the counters of all loops together are the tally of all ticks, whichever loop
  did them (`Lane.total_counters_run`);
* the counters of a loop that is over do not change any more
  (`Lane.Retired.step`).
-/

namespace GridRobot

namespace Stats

/-! ### Adding up -/

/-- The counters of a loop whose ticks came out so. -/
def tally (os : List Outcome) : Stats := os.foldl record {}

theorem tally_concat (os : List Outcome) (o : Outcome) : tally (os ++ [o]) = (tally os).record o :=
  List.foldl_append

theorem foldl_record (os : List Outcome) (s : Stats) :
    os.foldl record s =
      ⟨s.ticks + os.length, s.processed + os.count .processed, s.errors + os.count .failed⟩ := by
  induction os generalizing s with
  | nil => rfl
  | cons o os ih =>
    rw [List.foldl_cons, ih]
    cases o <;> simp [record, Nat.add_right_comm, Nat.add_assoc]

theorem tally_eq (os : List Outcome) :
    tally os = ⟨os.length, os.count .processed, os.count .failed⟩ := by
  rw [tally, foldl_record]
  simp

/-- The counters of two loops together. -/
def plus (s t : Stats) : Stats :=
  ⟨s.ticks + t.ticks, s.processed + t.processed, s.errors + t.errors⟩

/-- The counters of several loops together. -/
def total (ss : List Stats) : Stats := ss.foldr plus {}

theorem total_cons (s : Stats) (ss : List Stats) : total (s :: ss) = s.plus (total ss) := rfl

theorem plus_record (s t : Stats) (o : Outcome) : s.plus (t.record o) = (s.plus t).record o := by
  cases o <;> rfl

theorem plus_comm (s t : Stats) : s.plus t = t.plus s := by
  ext <;> exact Nat.add_comm _ _

theorem plus_left_comm (s t u : Stats) : s.plus (t.plus u) = t.plus (s.plus u) := by
  ext <;> exact Nat.add_left_comm _ _ _

theorem total_append (ss ts : List Stats) : total (ss ++ ts) = (total ss).plus (total ts) := by
  induction ss with
  | nil => ext <;> simp [total, plus]
  | cons s ss ih =>
    rw [List.cons_append, total_cons, total_cons, ih]
    ext <;> exact (Nat.add_assoc _ _ _).symm

theorem total_eq_of_perm {ss ts : List Stats} (h : ss.Perm ts) : total ss = total ts := by
  induction h with
  | nil => rfl
  | cons s _ ih => rw [total_cons, total_cons, ih]
  | swap s t ss => exact plus_left_comm t s (total ss)
  | trans _ _ ih ih' => exact ih.trans ih'

/-- One more tick of one of the loops is one more tick of all together. -/
theorem total_set_record {ss : List Stats} {i : Nat} {s : Stats} (h : ss[i]? = some s)
    (o : Outcome) : total (ss.set i (s.record o)) = (total ss).record o := by
  induction ss generalizing i with
  | nil => cases h
  | cons t ss ih =>
    cases i with
    | zero =>
      cases Option.some.inj h
      rw [List.set_cons_zero, total_cons, total_cons, plus_comm, plus_record, plus_comm]
    | succ i => rw [List.set_cons_succ, total_cons, total_cons, ih h, plus_record]

end Stats

/-- What is worked on is processed or fails. -/
theorem countP_processed_add {α ε : Type} {work : α → ε × Outcome}
    (hwork : ∀ x, (work x).2 ≠ .idle) (xs : List α) :
    xs.countP (fun x => (work x).2 = .processed) +
      xs.countP (fun x => (work x).2 = .failed) = xs.length := by
  induction xs with
  | nil => rfl
  | cons x xs ih =>
    rw [List.countP_cons, List.countP_cons, List.length_cons, ← ih]
    cases hx : (work x).2 with
    | idle => exact absurd hx (hwork x)
    | processed => simp [Nat.add_right_comm]
    | failed => simp [Nat.add_assoc]

namespace PollLoop

theorem stats_check (now : Nat) (l : PollLoop) : (l.check now).stats = l.stats := by
  rw [check]
  split <;> rfl

end PollLoop

namespace Feed

variable {α ε : Type} (work : α → ε × Outcome) (f : Feed α ε)

/-- What comes of a tick that takes this item, or none. -/
def outcome (item : Option α) : Outcome := (item.map fun x => (work x).2).getD .idle

theorem fst_tick : (f.tick work).1 = outcome work f.queue.items.head? := by
  rcases f.tick_cases work with ⟨hempty, htick⟩ | ⟨x, queue, hitems, htick⟩
  · rw [htick, hempty]
    rfl
  · rw [htick, hitems]
    rfl

/-- A tick publishes what becomes of the item that it takes, and nothing if it takes none. -/
theorem events_tick : (f.tick work).2.events =
    ((f.queue.items.head?.map fun x => (work x).1).toList).foldl (fun p e => p.publish e)
      f.events := by
  rcases f.tick_cases work with ⟨hempty, htick⟩ | ⟨x, queue, hitems, htick⟩
  · rw [htick, hempty]
    rfl
  · rw [htick, hitems]
    rfl

end Feed

namespace Lane

/-- A tick of a loop. -/
structure Tick (α : Type) where
  /-- The number of the loop. -/
  loop : Nat
  /-- What the loop took off the queue. -/
  item : Option α

namespace Tick

variable {α ε : Type} (work : α → ε × Outcome)

/-- What came of the tick. -/
def outcome (t : Tick α) : Outcome := Feed.outcome work t.item

/-- What was published of the item that was taken. -/
def event? (t : Tick α) : Option ε := t.item.map fun x => (work x).1

theorem length_eq (ts : List (Tick α)) :
    ts.length = ts.countP (·.item.isNone) + (ts.filterMap item).length := by
  induction ts with
  | nil => rfl
  | cons t ts ih =>
    cases hitem : t.item with
    | none => simp [hitem, ih, Nat.add_right_comm]
    | some x => simp [hitem, ih, Nat.add_assoc]

/-- Ticks that take an item come out as the work on it does. -/
theorem count_outcome {o : Outcome} (ho : o ≠ .idle) (ts : List (Tick α)) :
    (ts.map (outcome work)).count o = (ts.filterMap item).countP fun x => (work x).2 = o := by
  induction ts with
  | nil => rfl
  | cons t ts ih =>
    rw [List.map_cons, List.count_cons, ih, outcome, Feed.outcome]
    cases hitem : t.item with
    | none => simp [hitem, Ne.symm ho]
    | some x => simp [hitem, List.countP_cons]

/-- The tally of ticks: how many there were, and how many items were processed or failed. -/
theorem tally_outcome (ts : List (Tick α)) :
    Stats.tally (ts.map (outcome work)) =
      ⟨ts.length, (ts.filterMap item).countP fun x => (work x).2 = .processed,
        (ts.filterMap item).countP fun x => (work x).2 = .failed⟩ := by
  have hprocessed := count_outcome work (o := .processed) nofun ts
  have hfailed := count_outcome work (o := .failed) nofun ts
  rw [Stats.tally_eq, List.length_map, hprocessed, hfailed]

end Tick

section

variable {ω : Type}

/-- What the loops of a lane have counted. -/
def counters (a : Lane ω) : List Stats := a.loops.map PollLoop.stats

/-- What a loop of the lane has done; without a loop, nothing was done. -/
def statsOf (i : Option Nat) (a : Lane ω) : Stats :=
  ((i.bind (a.loops[·]?)).map PollLoop.stats).getD {}

theorem getElem?_counters {a : Lane ω} {i : Nat} {l : PollLoop} (h : a.loops[i]? = some l) :
    a.counters[i]? = some l.stats := by
  rw [counters, List.getElem?_map, h]
  rfl

end

variable {α ε : Type} [Worker (Feed α ε)]

/-- The tick that an action is, if it is one. -/
def ticks : Act α → Lane (Feed α ε) → List (Tick α)
  | .tick i, a => if a.isWaiting i then [⟨i, a.worker.queue.items.head?⟩] else []
  | _, _ => []

omit [Worker (Feed α ε)] in
theorem taken_eq (act : Act α) (a : Lane (Feed α ε)) :
    taken act a = (ticks act a).filterMap Tick.item := by
  cases act with
  | tick i =>
    rw [taken, ticks]
    split
    · cases a.worker.queue.items <;> rfl
    · rfl
  | _ => rfl

variable {work : α → ε × Outcome}
  (hwork : ∀ f : Feed α ε, Worker.tick f = (f.tick work).map some id)

include hwork

/-- A tick of a loop publishes what becomes of the item that it takes, and nothing else. -/
theorem events_tickAt (i : Nat) (a : Lane (Feed α ε)) : (a.tickAt i).worker.events =
    ((ticks (.tick i) a).filterMap (Tick.event? work)).foldl (fun p e => p.publish e)
      a.worker.events := by
  rw [ticks]
  rcases a.tickAt_cases i with ⟨hw, h⟩ | ⟨hw, l, -, h⟩
  · rw [h, hw]
    rfl
  · rw [h, hw, if_pos rfl, PollLoop.fire, hwork]
    refine (Feed.events_tick work a.worker).trans ?_
    cases a.worker.queue.items <;> rfl

/-- A step is a tick, which one loop counts; or it is none, and at most a loop is started, which
    has counted nothing. -/
theorem counters_step (act : Act α) (a : Lane (Feed α ε)) :
    (∃ t s, ticks act a = [t] ∧ a.counters[t.loop]? = some s ∧
        (machine.step act a).counters = a.counters.set t.loop (s.record (t.outcome work))) ∨
      ticks act a = [] ∧ ((machine.step act a).counters = a.counters ∨
        (machine.step act a).counters = a.counters ++ [.tally []]) := by
  cases act with
  | start wait =>
    refine .inr ⟨rfl, ?_⟩
    show (a.tryStart wait).counters = _ ∨ (a.tryStart wait).counters = _
    rcases a.tryStart_cases wait with h | h
    · exact .inl (congrArg counters h)
    · refine .inr ?_
      rw [h, counters, List.map_append]
      rfl
  | requestStop => exact .inr ⟨rfl, .inl (a.map_requestStop fun _ => rfl)⟩
  | detach => exact .inr ⟨rfl, .inl (a.map_requestStop fun _ => rfl)⟩
  | check now i => exact .inr ⟨rfl, .inl (map_update (PollLoop.stats_check now) i a)⟩
  | tick i =>
    show _ ∨ _ ∧ ((a.tickAt i).counters = _ ∨ _)
    rcases a.tickAt_cases i with ⟨hw, h⟩ | ⟨hw, l, hl, h⟩
    · rw [ticks, hw, h]
      exact .inr ⟨rfl, .inl rfl⟩
    · refine .inl ⟨⟨i, a.worker.queue.items.head?⟩, l.stats, ?_, getElem?_counters hl, ?_⟩
      · rw [ticks, hw]
        rfl
      · show (a.tickAt i).counters = _
        rw [isWaiting, hl, Option.any_some] at hw
        rw [h, counters, counters, List.map_set, PollLoop.fire, hwork]
        show a.counters.set i (l.ticked (some (a.worker.tick work).1)).stats = _
        rw [PollLoop.ticked_of_isWaiting hw, Feed.fst_tick]
        rfl
  | _ => exact .inr ⟨rfl, .inl rfl⟩

/-! ### Loops that are over -/

omit hwork

/-- The loop with this number is over, and these are its counters. -/
def Retired {ω : Type} (i : Nat) (s : Stats) (a : Lane ω) : Prop :=
  ∃ l, a.loops[i]? = some l ∧ l.isOver = true ∧ l.stats = s

theorem Retired.update {ω : Type} {a : Lane ω} {i : Nat} {s : Stats} (h : a.Retired i s)
    {f : PollLoop → PollLoop} (hlater : ∀ l : PollLoop, l.Later (f l))
    (hstats : ∀ l, (f l).stats = l.stats) (j : Nat) : (a.update j f).Retired i s := by
  obtain ⟨l, hl, hover, rfl⟩ := h
  refine ⟨if j = i then f l else l, ?_, ?_, ?_⟩
  · rw [Lane.update, List.getElem?_modify, hl]
    split <;> rfl
  · split
    · exact (hlater l).isOver hover
    · exact hover
  · split
    · exact hstats l
    · rfl

theorem Retired.requestStop {ω : Type} {a : Lane ω} {i : Nat} {s : Stats} (h : a.Retired i s) :
    a.requestStop.Retired i s := by
  rw [Lane.requestStop]
  split
  · exact h.update PollLoop.later_requestStop (fun _ => rfl) _
  · exact h

/-- The counters of a loop that is over do not change any more. -/
theorem Retired.step {a : Lane (Feed α ε)} {i : Nat} {s : Stats} (h : a.Retired i s)
    (act : Act α) : (machine.step act a).Retired i s := by
  cases act with
  | start wait =>
    show (a.tryStart wait).Retired i s
    rcases a.tryStart_cases wait with hstart | hstart
    · rwa [hstart]
    · obtain ⟨l, hl, hl'⟩ := h
      have hlt := (List.getElem?_eq_some_iff.1 hl).1
      exact ⟨l, by rw [hstart, List.getElem?_append_left hlt, hl], hl'⟩
  | requestStop => exact h.requestStop
  | detach => exact h.requestStop
  | check now j => exact h.update (PollLoop.later_check now) (PollLoop.stats_check now) j
  | tick j =>
    show (a.tickAt j).Retired i s
    rcases a.tickAt_cases j with ⟨-, htick⟩ | ⟨hw, l', -, htick⟩
    · rwa [htick]
    · obtain ⟨l, hl, hover, hstats⟩ := h
      -- A loop that is about to tick is not over.
      have hij : j ≠ i := by
        rintro rfl
        rw [isWaiting, hl, Option.any_some, PollLoop.isWaiting_of_isOver hover] at hw
        cases hw
      exact ⟨l, by rw [htick, List.getElem?_set_ne hij, hl], hover, hstats⟩
  | _ => exact h

include hwork

/-! ### Every loop -/

/-- Each loop has counted its ticks, and no others. -/
structure Counts (work : α → ε × Outcome) (ts : List (Tick α)) (a : Lane (Feed α ε)) : Prop where
  loop_lt {t : Tick α} (ht : t ∈ ts) : t.loop < a.counters.length
  counters {i : Nat} {s : Stats} (hs : a.counters[i]? = some s) :
    s = .tally ((ts.filter (·.loop = i)).map (Tick.outcome work))

theorem Counts.step {ts : List (Tick α)} {a : Lane (Feed α ε)} (h : a.Counts work ts)
    (act : Act α) : (machine.step act a).Counts work (ts ++ ticks act a) := by
  rcases counters_step hwork act a with ⟨t, s, hticks, hs, hstep⟩ | ⟨hticks, hstep | hstep⟩
  · rw [hticks]
    constructor
    · intro u hu
      rw [hstep, List.length_set]
      rcases List.mem_append.1 hu with hu | hu
      · exact h.loop_lt hu
      · cases List.mem_singleton.1 hu
        exact (List.getElem?_eq_some_iff.1 hs).1
    · intro i s' hs'
      rw [hstep] at hs'
      by_cases hi : t.loop = i
      · subst hi
        rw [List.getElem?_set_self (List.getElem?_eq_some_iff.1 hs).1] at hs'
        have hown : [t].filter (·.loop = t.loop) = [t] := by simp
        rw [← Option.some.inj hs', h.counters hs, List.filter_append, hown, List.map_append]
        exact (Stats.tally_concat _ _).symm
      · rw [List.getElem?_set_ne hi] at hs'
        rw [List.filter_append, List.filter_cons_of_neg (by simpa using hi), List.filter_nil,
          List.append_nil]
        exact h.counters hs'
  · rw [hticks, List.append_nil]
    exact ⟨fun ht => hstep ▸ h.loop_lt ht, fun hs => h.counters (hstep ▸ hs)⟩
  · rw [hticks, List.append_nil]
    constructor
    · intro t ht
      rw [hstep, List.length_append]
      exact Nat.lt_add_right _ (h.loop_lt ht)
    · intro i s hs
      rw [hstep] at hs
      by_cases hi : i < a.counters.length
      · rw [List.getElem?_append_left hi] at hs
        exact h.counters hs
      · -- The loop was started just now, so that none of the ticks is its own.
        have hnone : ts.filter (·.loop = i) = [] := by
          rw [List.filter_eq_nil_iff]
          intro t ht heq
          exact hi (of_decide_eq_true heq ▸ h.loop_lt ht)
        rw [hnone]
        rw [List.getElem?_append_right (Nat.le_of_not_lt hi)] at hs
        exact (List.mem_singleton.1 (List.mem_of_getElem? hs))

/-- In a run that begins without loops, each loop has counted its ticks. -/
theorem counters_run (acts : List (Act α)) {a : Lane (Feed α ε)} (h : a.loops = []) :
    (machine.run acts a).Counts work (machine.log ticks acts a) :=
  machine.run_log_preserves (P := fun ts a => a.Counts work ts)
    (fun _ act _ h => h.step hwork act) acts (l := [])
    ⟨nofun, fun hs => by simp [counters, h] at hs⟩

/-! ### All loops together -/

/-- In a run that begins without loops, the loops have together counted all ticks. -/
theorem total_counters_run (acts : List (Act α)) {a : Lane (Feed α ε)} (h : a.loops = []) :
    Stats.total (machine.run acts a).counters =
      .tally ((machine.log ticks acts a).map (Tick.outcome work)) := by
  refine machine.run_log_preserves
    (P := fun ts a => Stats.total a.counters = .tally (ts.map (Tick.outcome work)))
    ?_ acts (l := []) (by rw [counters, h]; rfl)
  intro ts act a h
  rcases counters_step hwork act a with ⟨t, s, hticks, hs, hstep⟩ | ⟨hticks, hstep | hstep⟩
  · rw [hticks, hstep, Stats.total_set_record hs, h, List.map_append]
    exact (Stats.tally_concat _ _).symm
  · rw [hticks, hstep, List.append_nil, h]
  · rw [hticks, hstep, List.append_nil, Stats.total_append, ← h]
    rfl

end Lane

end GridRobot
