import GridRobot.Loop.Worker
import GridRobot.Proofs.Machine
import GridRobot.Proofs.Publisher

/-!
# Runs of a feed

What happens to a feed is that an item is queued, that something is done with
the subscriptions to its events, and that it ticks. Whatever happens and in
whatever order:

* `Feed.queue_run`: the items taken by ticks, then those still queued, are the
  items that were queued, in their order;
* `Feed.received_run`: what a live subscription has found, then what waits in
  its mailbox, is what became of the items taken meanwhile, in their order, and
  so it is for one that is made before the first tick
  (`Feed.received_run_of_kept`);
* `Feed.delivered_of_subscribe`: both together, for a subscription that is made
  before the first tick, wherever a feed is seen.
-/

namespace GridRobot

namespace Feed

variable {α ε : Type}

/-- What can happen to a feed. -/
inductive Op (α : Type)
  | push (a : α)
  | events (c : Publisher.Call)
  | tick

/-- A feed whose ticks do `work`. -/
def machine (work : α → ε × Outcome) : Machine (Op α) (Feed α ε) where
  step
    | .push a, f => f.push a
    | .events c, f => { f with events := f.events.perform c }
    | .tick, f => (f.tick work).2

/-! ### What is observed -/

/-- The item that is queued. -/
def pushed : Op α → Feed α ε → List α
  | .push a, _ => [a]
  | _, _ => []

/-- The item that is taken by a tick. -/
def taken : Op α → Feed α ε → List α
  | .tick, f => f.queue.items.take 1
  | _, _ => []

/-- The event that the `i`-th subscription finds. -/
def found (i : Nat) : Op α → Feed α ε → List ε
  | .events c, f => Publisher.found i c f.events
  | _, _ => []

/-! ### The queue -/

variable (work : α → ε × Outcome)

theorem tick_cases (f : Feed α ε) :
    (f.queue.items = [] ∧ f.tick work = (.idle, f)) ∨
      ∃ a queue, f.queue.items = a :: queue.items ∧
        f.tick work = ((work a).2, { queue, events := f.events.publish (work a).1 }) := by
  rw [tick]
  split
  · next h => exact .inl ⟨Queue.pop?_eq_none.1 h, rfl⟩
  · next a queue h => exact .inr ⟨a, queue, Queue.items_of_pop? h, rfl⟩

theorem queue_step (o : Op α) (f : Feed α ε) :
    f.queue.items ++ pushed o f = taken o f ++ ((machine work).step o f).queue.items := by
  cases o with
  | push a => rfl
  | events c => exact List.append_nil _
  | tick =>
    rcases tick_cases work f with ⟨hempty, htick⟩ | ⟨a, queue, hitems, htick⟩
    · simp [machine, pushed, taken, htick, hempty]
    · simp [machine, pushed, taken, htick, hitems]

/-- The items of a feed are taken in the order in which they were queued; none is lost. -/
theorem queue_run (ops : List (Op α)) (f : Feed α ε) :
    f.queue.items ++ (machine work).log pushed ops f =
      (machine work).log taken ops f ++ ((machine work).run ops f).queue.items := by
  induction ops generalizing f with
  | nil => exact List.append_nil _
  | cons o ops ih =>
    calc f.queue.items ++ (pushed o f ++ (machine work).log pushed ops ((machine work).step o f))
        = taken o f ++ (((machine work).step o f).queue.items ++
            (machine work).log pushed ops ((machine work).step o f)) := by
          rw [← List.append_assoc, queue_step work o f, List.append_assoc]
      _ = taken o f ++ ((machine work).log taken ops ((machine work).step o f) ++
            ((machine work).run ops ((machine work).step o f)).queue.items) := by
          rw [ih]
      _ = _ := by
          rw [← List.append_assoc]
          rfl

/-! ### The events -/

/-- No action lets go of a handle of the publisher. -/
theorem handles_step (o : Op α) (f : Feed α ε) :
    ((machine work).step o f).events.handles = f.events.handles := by
  cases o with
  | push a => rfl
  | events c => exact f.events.handles_perform c
  | tick =>
    show (f.tick work).2.events.handles = f.events.handles
    rcases tick_cases work f with ⟨-, htick⟩ | ⟨a, queue, -, htick⟩
    · rw [htick]
    · rw [htick]
      rfl

variable {i : Nat}

theorem live_step {o : Op α} {f : Feed α ε} (ho : o ≠ .events (.drop i))
    (hlive : f.events.Live i) : ((machine work).step o f).events.Live i := by
  cases o with
  | push a => exact hlive
  | events c => exact hlive.perform fun h => ho (by rw [h])
  | tick =>
    show (f.tick work).2.events.Live i
    rcases tick_cases work f with ⟨-, htick⟩ | ⟨a, queue, -, htick⟩
    · rw [htick]
      exact hlive
    · rw [htick]
      exact hlive.publish _

theorem live_run {ops : List (Op α)} {f : Feed α ε} (hops : .events (.drop i) ∉ ops)
    (hlive : f.events.Live i) : ((machine work).run ops f).events.Live i := by
  induction ops generalizing f with
  | nil => exact hlive
  | cons o ops ih =>
    have ho : o ≠ .events (.drop i) := fun h => hops (h ▸ List.mem_cons_self)
    exact ih (fun h => hops (List.mem_cons_of_mem _ h)) (live_step work ho hlive)

theorem received_step {o : Op α} {f : Feed α ε} (ho : o ≠ .events (.drop i))
    (hlive : f.events.Live i) :
    found i o f ++ ((machine work).step o f).events.pending i =
      f.events.pending i ++ (taken o f).map fun a => (work a).1 := by
  cases o with
  | push a => exact (List.append_nil _).symm
  | events c =>
    exact (hlive.found_append_pending fun h => ho (by rw [h])).trans (List.append_nil _).symm
  | tick =>
    rcases tick_cases work f with ⟨hempty, htick⟩ | ⟨a, queue, hitems, htick⟩
    · simp [machine, found, taken, htick, hempty]
    · simp [machine, found, taken, htick, hitems, hlive.pending_publish]

theorem received_step_of_kept {o : Op α} {f : Feed α ε} (ho : o ≠ .events (.drop i))
    (hkept : f.events.Kept i) (htick : o = .tick → f.events.Live i) :
    ((machine work).step o f).events.Kept i ∧
      found i o f ++ ((machine work).step o f).events.pending i =
        f.events.pending i ++ (taken o f).map fun a => (work a).1 := by
  cases o with
  | push a => exact ⟨hkept, (List.append_nil _).symm⟩
  | events c =>
    have hc : c ≠ .drop i := fun h => ho (by rw [h])
    obtain ⟨hkept', hpending⟩ := hkept.perform hc
    exact ⟨hkept', hpending.trans (List.append_nil _).symm⟩
  | tick => exact ⟨.inl (live_step work ho (htick rfl)), received_step work ho (htick rfl)⟩

/-- A subscription that is made before the first tick, and kept, receives what becomes of the items
    taken: every event once, in the order of the items. -/
theorem received_run_of_kept {ops : List (Op α)} {f : Feed α ε} (hops : .events (.drop i) ∉ ops)
    (hkept : f.events.Kept i) (htick : .tick ∈ ops → f.events.Live i) :
    ((machine work).run ops f).events.Kept i ∧
      (machine work).log (found i) ops f ++ ((machine work).run ops f).events.pending i =
        f.events.pending i ++ ((machine work).log taken ops f).map fun a => (work a).1 := by
  induction ops generalizing f with
  | nil => exact ⟨hkept, (List.append_nil _).symm⟩
  | cons o ops ih =>
    have ho : o ≠ .events (.drop i) := fun h => hops (h ▸ List.mem_cons_self)
    obtain ⟨hkept', hstep⟩ :=
      received_step_of_kept work ho hkept fun h => htick (h ▸ List.mem_cons_self)
    obtain ⟨hkept'', hrun⟩ := ih (fun h => hops (List.mem_cons_of_mem _ h)) hkept' fun h =>
      live_step work ho (htick (List.mem_cons_of_mem _ h))
    -- What is found in the rest of the run, then what waits at its end, is what waits after the
    -- first step and becomes of the rest of the items; the first step accounts for the former.
    refine ⟨hkept'', ?_⟩
    rw [Machine.log_cons, Machine.log_cons, Machine.run_cons, List.map_append, List.append_assoc,
      hrun, ← List.append_assoc, hstep, List.append_assoc]

/-- A live subscription receives what becomes of the items taken while it is live. -/
theorem received_run {ops : List (Op α)} {f : Feed α ε} (hops : .events (.drop i) ∉ ops)
    (hlive : f.events.Live i) :
    (machine work).log (found i) ops f ++ ((machine work).run ops f).events.pending i =
      f.events.pending i ++ ((machine work).log taken ops f).map fun a => (work a).1 :=
  (received_run_of_kept work hops (.inl hlive) fun _ => hlive).2

/-! ### Where a feed is seen -/

section Seen

variable {A S : Type} {M : Machine A S} {work : α → ε × Outcome}
  (sim : Simulation M (machine work))

theorem queue_seen (as : List A) (s : S) :
    (sim.view s).queue.items ++ M.log (sim.see pushed) as s =
      M.log (sim.see taken) as s ++ (sim.view (M.run as s)).queue.items := by
  rw [sim.log_see, sim.log_see, queue_run work, sim.view_run]

/-- The events that are delivered to the `i`-th subscription: those that it finds in a run, then
    those that wait for it. -/
def delivered (i : Nat) (as : List A) (s : S) : List ε :=
  M.log (sim.see (found i)) as s ++ (sim.view (M.run as s)).events.pending i

/-- A subscription made before the first tick receives what becomes of all items that are taken;
    the other ones are queued. -/
theorem delivered_of_subscribe {before after : List A} {s t : S} {i : Nat}
    (hs : (sim.view s).queue.items = []) (hbefore : ∀ a ∈ before, ∀ u, .tick ∉ sim.acts a u)
    (hi : (sim.view (M.run before s)).events.next = i)
    (ht : sim.view t = (sim.view (M.run before s)).subscribe)
    (hafter : ∀ a ∈ after, ∀ u, .events (.drop i) ∉ sim.acts a u) :
    ∃ drained, M.log (sim.see pushed) before s ++ M.log (sim.see pushed) after t =
        drained ++ (sim.view (M.run after t)).queue.items ∧
      delivered sim i after t = drained.map fun a => (work a).1 := by
  -- Before its first tick, a feed takes nothing.
  have htaken : (machine work).log taken (M.log sim.acts before s) (sim.view s) = [] := by
    refine Machine.log_eq_nil _ (fun o ho f => ?_) _
    obtain ⟨a, ha, u, hu⟩ := M.exists_of_mem_log ho
    cases o with
    | tick => exact absurd hu (hbefore a ha u)
    | _ => rfl
  have hdrops : .events (.drop i) ∉ M.log sim.acts after t := fun ho => by
    obtain ⟨a, ha, u, hu⟩ := M.exists_of_mem_log ho
    exact hafter a ha u hu
  have hlive : (sim.view t).events.Live i := by
    rw [ht, ← hi]
    exact Publisher.live_subscribe_next _
  have hnone : (sim.view t).events.pending i = [] := by
    rw [ht, ← hi]
    exact Publisher.pending_subscribe_next _
  refine ⟨(machine work).log taken (M.log sim.acts after t) (sim.view t), ?_, ?_⟩
  · -- The subscription leaves the queue as it is.
    have hsame : (sim.view t).queue = (sim.view (M.run before s)).queue := by
      rw [ht]
      rfl
    have hqueue := queue_run work (M.log sim.acts before s) (sim.view s)
    rw [hs, htaken, List.nil_append, List.nil_append, ← sim.view_run, ← hsame] at hqueue
    rw [sim.log_see, sim.log_see, hqueue, queue_run work, sim.view_run]
  · rw [delivered, sim.log_see, sim.view_run, received_run work hdrops hlive, hnone,
      List.nil_append]

end Seen

end Feed

end GridRobot
