/-!
# Machines and their runs

A machine takes one step for each action; an action that cannot be taken leaves
the state as it is, so that every list of actions is a run. What is observed of
the actions along a run, one after the other, is a log of it. What is reached by
actions of some kind keeps all that such actions preserve
(`Machine.Reaches.preserves`).

A machine can be seen as another one (`Simulation`): a view of its states, and
for each action the actions that the other machine takes meanwhile. Then a run
is seen as a run (`Simulation.view_run`), and a log of the run that is seen is a
log of the run (`Simulation.log_see`).
-/

namespace GridRobot

/-- What each action makes of a state. -/
structure Machine (A S : Type) where
  step : A → S → S

namespace Machine

variable {A S β : Type} (M : Machine A S)

/-- The state after a run. -/
def run (as : List A) (s : S) : S := as.foldl (fun s a => M.step a s) s

/-- What is observed along a run, if `see` is what is observed of one action. -/
def log (see : A → S → List β) : List A → S → List β
  | [], _ => []
  | a :: as, s => see a s ++ log see as (M.step a s)

@[simp] theorem run_nil (s : S) : M.run [] s = s := rfl

@[simp] theorem run_cons (a : A) (as : List A) (s : S) :
    M.run (a :: as) s = M.run as (M.step a s) := rfl

theorem run_append (as bs : List A) (s : S) : M.run (as ++ bs) s = M.run bs (M.run as s) :=
  List.foldl_append

variable {see : A → S → List β}

@[simp] theorem log_nil (s : S) : M.log see [] s = [] := rfl

@[simp] theorem log_cons (a : A) (as : List A) (s : S) :
    M.log see (a :: as) s = see a s ++ M.log see as (M.step a s) := rfl

theorem log_append (as bs : List A) (s : S) :
    M.log see (as ++ bs) s = M.log see as s ++ M.log see bs (M.run as s) := by
  induction as generalizing s with
  | nil => rfl
  | cons a as ih => rw [List.cons_append, log_cons, ih, ← List.append_assoc, log_cons, run_cons]

theorem run_concat (as : List A) (a : A) (s : S) :
    M.run (as ++ [a]) s = M.step a (M.run as s) :=
  M.run_append as [a] s

theorem log_concat (as : List A) (a : A) (s : S) :
    M.log see (as ++ [a]) s = M.log see as s ++ see a (M.run as s) := by
  rw [log_append, log_cons, log_nil, List.append_nil]

/-- What stands in a log was observed of some action of the run. -/
theorem exists_of_mem_log {as : List A} {s : S} {b : β} (h : b ∈ M.log see as s) :
    ∃ a ∈ as, ∃ t, b ∈ see a t := by
  induction as generalizing s with
  | nil => cases h
  | cons a as ih =>
    rcases List.mem_append.1 h with h | h
    · exact ⟨a, List.mem_cons_self, s, h⟩
    · obtain ⟨a', ha', t, ht⟩ := ih h
      exact ⟨a', List.mem_cons_of_mem _ ha', t, ht⟩

theorem log_eq_nil {as : List A} (h : ∀ a ∈ as, ∀ s, see a s = []) (s : S) :
    M.log see as s = [] := by
  refine List.eq_nil_iff_forall_not_mem.2 fun b hb => ?_
  obtain ⟨a, ha, t, ht⟩ := M.exists_of_mem_log hb
  rw [h a ha t] at ht
  cases ht

/-- The log of what is observed of the actions alone. -/
theorem log_eq_filterMap {f : A → Option β} (h : ∀ a s, see a s = (f a).toList) (as : List A)
    (s : S) : M.log see as s = as.filterMap f := by
  induction as generalizing s with
  | nil => rfl
  | cons a as ih =>
    rw [log_cons, ih, h]
    cases hf : f a with
    | none => rw [List.filterMap_cons_none hf, Option.toList_none, List.nil_append]
    | some b => rw [List.filterMap_cons_some hf, Option.toList_some, List.singleton_append]

theorem log_map {γ : Type} (f : β → γ) (as : List A) (s : S) :
    M.log (fun a s => (see a s).map f) as s = (M.log see as s).map f := by
  induction as generalizing s with
  | nil => rfl
  | cons a as ih => rw [log_cons, ih, log_cons, List.map_append]

theorem log_filterMap {γ : Type} (f : β → Option γ) (as : List A) (s : S) :
    M.log (fun a s => (see a s).filterMap f) as s = (M.log see as s).filterMap f := by
  induction as generalizing s with
  | nil => rfl
  | cons a as ih => rw [log_cons, ih, log_cons, List.filterMap_append]

/-- A log in which less is observed of each action is shorter. -/
theorem length_log_le {γ : Type} {see' : A → S → List γ}
    (h : ∀ a s, (see a s).length ≤ (see' a s).length) (as : List A) (s : S) :
    (M.log see as s).length ≤ (M.log see' as s).length := by
  induction as generalizing s with
  | nil => exact Nat.le_refl 0
  | cons a as ih =>
    rw [log_cons, log_cons, List.length_append, List.length_append]
    exact Nat.add_le_add (h a s) (ih _)

/-- What every step preserves, a run preserves. -/
theorem run_preserves {P : S → Prop} (hstep : ∀ a s, P s → P (M.step a s)) (as : List A) {s : S}
    (h : P s) : P (M.run as s) := by
  induction as generalizing s with
  | nil => exact h
  | cons a as ih => exact ih (hstep a s h)

/-- What every step preserves that is noted in a log, a run preserves. -/
theorem run_log_preserves {P : List β → S → Prop}
    (hstep : ∀ l a s, P l s → P (l ++ see a s) (M.step a s)) (as : List A) {l : List β} {s : S}
    (h : P l s) : P (l ++ M.log see as s) (M.run as s) := by
  induction as generalizing l s with
  | nil => exact (List.append_nil l).symm ▸ h
  | cons a as ih =>
    have hrest := ih (hstep l a s h)
    rwa [List.append_assoc] at hrest

/-- Each action of a run is taken in a state in which `P` allows it. -/
def Allowed (P : A → S → Prop) : List A → S → Prop
  | [], _ => True
  | a :: as, s => P a s ∧ Allowed P as (M.step a s)

instance decidableAllowed {P : A → S → Prop} [∀ a s, Decidable (P a s)] :
    (as : List A) → (s : S) → Decidable (M.Allowed P as s)
  | [], _ => .isTrue trivial
  | a :: as, s =>
    have : Decidable (M.Allowed P as (M.step a s)) := decidableAllowed as (M.step a s)
    inferInstanceAs (Decidable (P a s ∧ M.Allowed P as (M.step a s)))

theorem allowed_append {P : A → S → Prop} (as bs : List A) (s : S) :
    M.Allowed P (as ++ bs) s ↔ M.Allowed P as s ∧ M.Allowed P bs (M.run as s) := by
  induction as generalizing s with
  | nil => rw [List.nil_append, Allowed, true_and, run_nil]
  | cons a as ih => rw [List.cons_append, Allowed, Allowed, ih, run_cons, and_assoc]

/-- What every step that is allowed preserves, a run preserves in which every step is. -/
theorem run_preserves_of_allowed {P : A → S → Prop} {I : S → Prop}
    (hstep : ∀ a s, P a s → I s → I (M.step a s)) {as : List A} {s : S} (has : M.Allowed P as s)
    (h : I s) : I (M.run as s) := by
  induction as generalizing s with
  | nil => exact h
  | cons a as ih => exact ih has.2 (hstep a s has.1 h)

/-- What every step that is allowed preserves that is noted in a log, a run preserves in which every
    step is. -/
theorem run_log_preserves_of_allowed {P : A → S → Prop} {I : List β → S → Prop}
    (hstep : ∀ l a s, P a s → I l s → I (l ++ see a s) (M.step a s)) {as : List A}
    {l : List β} {s : S} (has : M.Allowed P as s) (h : I l s) :
    I (l ++ M.log see as s) (M.run as s) := by
  induction as generalizing l s with
  | nil => exact (List.append_nil l).symm ▸ h
  | cons a as ih =>
    have hrest := ih has.2 (hstep l a s has.1 h)
    rwa [List.append_assoc] at hrest

/-- A run of a machine that is found in `M`, action by action, is found there as a run. -/
theorem exists_run_of_forall {B T : Type} {N : Machine B T} {P : A → Prop} (f : T → S) {bs : List B}
    (h : ∀ b ∈ bs, ∀ t, ∃ a, P a ∧ M.step a (f t) = f (N.step b t)) (t : T) :
    ∃ as, (∀ a ∈ as, P a) ∧ M.run as (f t) = f (N.run bs t) := by
  induction bs generalizing t with
  | nil => exact ⟨[], List.forall_mem_nil _, rfl⟩
  | cons b bs ih =>
    obtain ⟨a, ha, hstep⟩ := h b List.mem_cons_self t
    obtain ⟨as, has, hrun⟩ := ih (fun b' hb' => h b' (List.mem_cons_of_mem _ hb')) (N.step b t)
    refine ⟨a :: as, List.forall_mem_cons.2 ⟨ha, has⟩, ?_⟩
    rw [run_cons, hstep, hrun, run_cons]

/-- The actions taken while `f` is repeated, if `acts` are those taken while it is done once. -/
def repeatActs {T : Type} (f : T → T) (acts : T → List A) : Nat → T → List A
  | 0, _ => []
  | n + 1, t => repeatActs f acts n t ++ acts (n.repeat f t)

theorem exists_of_mem_repeatActs {T : Type} {f : T → T} {acts : T → List A} {n : Nat} {t : T}
    {a : A} (h : a ∈ repeatActs f acts n t) : ∃ u, a ∈ acts u := by
  induction n with
  | zero => cases h
  | succ n ih => exact (List.mem_append.1 h).elim ih fun h => ⟨_, h⟩

theorem run_repeatActs {T : Type} {f : T → T} {acts : T → List A} (view : T → S)
    (h : ∀ t, view (f t) = M.run (acts t) (view t)) (n : Nat) (t : T) :
    view (n.repeat f t) = M.run (repeatActs f acts n t) (view t) := by
  induction n with
  | zero => rfl
  | succ n ih => rw [Nat.repeat, h, ih, repeatActs, run_append]

theorem repeatActs_add {T : Type} (f : T → T) (acts : T → List A) (m n : Nat) (t : T) :
    repeatActs f acts (m + n) t =
      repeatActs f acts m t ++ repeatActs f acts n (m.repeat f t) := by
  have hrepeat : ∀ n : Nat, (m + n).repeat f t = n.repeat f (m.repeat f t) := by
    intro n
    induction n with
    | zero => rfl
    | succ n ih => exact congrArg f ih
  induction n with
  | zero => exact (List.append_nil _).symm
  | succ n ih => rw [← Nat.add_assoc, repeatActs, ih, hrepeat, List.append_assoc, repeatActs]

/-- Of the actions that `Q` admits, those that do not concern a view leave it as it is, and nothing
    is observed of them. What comes of the others, and what is observed of them, is told by the
    view. The states are those in which `I` holds. -/
structure Unwinding {T : Type} (Q : A → Prop) (I : S → Prop) (concerns : A → Bool) (view : S → T)
    (see : A → S → List β) : Prop where
  keeps {a : A} {s : S} (ha : Q a) (hs : I s) : I (M.step a s)
  leaves {a : A} {s : S} (ha : Q a) (hs : I s) (h : concerns a = false) :
    view (M.step a s) = view s ∧ see a s = []
  tells {a : A} {s t : S} (ha : Q a) (hs : I s) (ht : I t) (h : concerns a = true)
    (hview : view s = view t) : view (M.step a s) = view (M.step a t) ∧ see a s = see a t

namespace Unwinding

variable {M} {T : Type} {Q : A → Prop} {I : S → Prop} {concerns : A → Bool} {view : S → T}

/-- The actions that do not concern the view may as well be left out. -/
theorem run_filter (h : M.Unwinding Q I concerns view see) {as : List A} (has : ∀ a ∈ as, Q a)
    {s t : S} (hs : I s) (ht : I t) (hview : view s = view t) :
    view (M.run as s) = view (M.run (as.filter concerns) t) ∧
      M.log see as s = M.log see (as.filter concerns) t := by
  induction as generalizing s t with
  | nil => exact ⟨hview, rfl⟩
  | cons a as ih =>
    rw [List.forall_mem_cons] at has
    cases ha : concerns a with
    | false =>
      obtain ⟨hstep, hsee⟩ := h.leaves has.1 hs ha
      rw [List.filter_cons_of_neg (Bool.eq_false_iff.1 ha), log_cons, hsee, List.nil_append]
      exact ih has.2 (h.keeps has.1 hs) ht (hstep.trans hview)
    | true =>
      obtain ⟨hstep, hsee⟩ := h.tells has.1 hs ht ha hview
      obtain ⟨hrun, hlog⟩ := ih has.2 (h.keeps has.1 hs) (h.keeps has.1 ht) hstep
      rw [List.filter_cons_of_pos ha, log_cons, log_cons, hsee, hlog]
      exact ⟨hrun, rfl⟩

/-- Two runs with the same actions that concern the view cannot be told apart there. -/
theorem run_eq (h : M.Unwinding Q I concerns view see) {as as' : List A} (has : ∀ a ∈ as, Q a)
    (has' : ∀ a ∈ as', Q a) (heq : as.filter concerns = as'.filter concerns) {s : S} (hs : I s) :
    view (M.run as s) = view (M.run as' s) ∧ M.log see as s = M.log see as' s := by
  obtain ⟨hrun, hlog⟩ := h.run_filter has hs hs rfl
  obtain ⟨hrun', hlog'⟩ := h.run_filter has' hs hs rfl
  rw [hrun, hlog, heq, hrun', hlog']
  exact ⟨rfl, rfl⟩

end Unwinding

/-- The second state comes of the first by actions that `P` admits. -/
def Reaches (P : A → Prop) (s t : S) : Prop := ∃ as, (∀ a ∈ as, P a) ∧ M.run as s = t

namespace Reaches

variable {M} {P Q : A → Prop} {s t u : S}

theorem refl (s : S) : M.Reaches P s s := ⟨[], List.forall_mem_nil _, rfl⟩

theorem trans (hst : M.Reaches P s t) (htu : M.Reaches P t u) : M.Reaches P s u := by
  obtain ⟨as, has, rfl⟩ := hst
  obtain ⟨bs, hbs, rfl⟩ := htu
  exact ⟨as ++ bs, List.forall_mem_append.2 ⟨has, hbs⟩, M.run_append as bs s⟩

theorem single {a : A} (h : P a) (s : S) : M.Reaches P s (M.step a s) :=
  ⟨[a], List.forall_mem_singleton.2 h, rfl⟩

theorem mono (h : M.Reaches P s t) (hPQ : ∀ a, P a → Q a) : M.Reaches Q s t := by
  obtain ⟨as, has, hrun⟩ := h
  exact ⟨as, fun a ha => hPQ a (has a ha), hrun⟩

/-- What every action that `P` admits preserves is preserved. -/
theorem preserves (h : M.Reaches P s t) {I : S → Prop}
    (hstep : ∀ a s, P a → I s → I (M.step a s)) (hs : I s) : I t := by
  obtain ⟨as, has, rfl⟩ := h
  induction as generalizing s with
  | nil => exact hs
  | cons a as ih =>
    rw [List.forall_mem_cons] at has
    exact ih (hstep a s has.1 hs) has.2

end Reaches

end Machine

/-- A way to see the machine `M` as the machine `N`. -/
structure Simulation {A S B T : Type} (M : Machine A S) (N : Machine B T) where
  view : S → T
  /-- What `N` does while `M` takes an action. -/
  acts : A → S → List B
  view_step : ∀ a s, view (M.step a s) = N.run (acts a s) (view s)

namespace Simulation

variable {A S B T β : Type} {M : Machine A S} {N : Machine B T} (sim : Simulation M N)

/-- What is observed of an action of `M` by observing `N`. -/
def see (seen : B → T → List β) (a : A) (s : S) : List β := N.log seen (sim.acts a s) (sim.view s)

/-- A run of `M` is seen as a run of `N`. -/
theorem view_run (as : List A) (s : S) :
    sim.view (M.run as s) = N.run (M.log sim.acts as s) (sim.view s) := by
  induction as generalizing s with
  | nil => rfl
  | cons a as ih => rw [Machine.run_cons, ih, sim.view_step, Machine.log_cons, Machine.run_append]

/-- What every step of `N` preserves is preserved where `N` is seen. -/
theorem view_run_preserves {P : T → Prop} (hstep : ∀ b t, P t → P (N.step b t)) (as : List A)
    {s : S} (h : P (sim.view s)) : P (sim.view (M.run as s)) := by
  rw [sim.view_run]
  exact N.run_preserves hstep _ h

/-- A log of the run of `N` that is seen is a log of the run of `M`. -/
theorem log_see (seen : B → T → List β) (as : List A) (s : S) :
    M.log (sim.see seen) as s = N.log seen (M.log sim.acts as s) (sim.view s) := by
  induction as generalizing s with
  | nil => rfl
  | cons a as ih =>
    -- Meanwhile `N` may take any number of actions, and the rest of its run goes on from there.
    rw [Machine.log_cons, ih, sim.view_step, Machine.log_cons, Machine.log_append, see]

/-- To see what is seen. -/
def comp {C U : Type} {K : Machine C U} (sim' : Simulation N K) : Simulation M K where
  view s := sim'.view (sim.view s)
  acts := sim.see sim'.acts
  view_step a s := by rw [sim.view_step, sim'.view_run, see]

theorem comp_see {C U : Type} {K : Machine C U} (sim' : Simulation N K) (seen : C → U → List β) :
    (sim.comp sim').see seen = sim.see (sim'.see seen) := by
  funext a s
  exact (sim'.log_see seen (sim.acts a s) (sim.view s)).symm

end Simulation

end GridRobot
