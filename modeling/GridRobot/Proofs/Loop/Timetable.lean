import GridRobot.Proofs.Loop.Solo

/-!
# Timetables

A loop that has a wait ticks whenever a multiple of its wait has passed since it
first looked whether it should stop; when that is, and what comes of it, makes
its timetable (`Timetable`). It keeps to it, whatever happens to it
(`Timetable.Kept.run`), until a tick breaks it or until the first tick after it
was asked to stop (`Timetable.Stage`). So the number of its ticks, and when it
is over, can be told from its timetable:

* `Timetable.Kept.going`, if it was not asked to stop;
* `Timetable.Kept.stopped`, if none of its ticks breaks it before it stops;
* `Timetable.Kept.crashed`, if one does.

What the ticks of a worker come to can be any sequence of outcomes
(`Reel.outcome_eq`).
-/

namespace GridRobot

namespace Worker

variable {ω : Type} [Worker ω] {w : ω} {k : Nat} {o : Outcome}

/-! ### The ticks of a worker -/

/-- The worker after its first `k` ticks. -/
def after (w : ω) : Nat → ω
  | 0 => w
  | k + 1 => (tick (after w k)).2

/-- What comes of the tick after the first `k`. -/
def outcome (w : ω) (k : Nat) : Option Outcome := (tick (after w k)).1

/-- The counters of a loop for which the first `k` ticks have been made. -/
def tally (w : ω) (k : Nat) : Stats where
  ticks := k
  processed := (List.range k).countP fun i => outcome w i = some .processed
  errors := (List.range k).countP fun i => outcome w i = some .failed

theorem tally_succ (h : outcome w k = some o) : tally w (k + 1) = (tally w k).record o := by
  simp only [tally, List.range_succ, List.countP_append, List.countP_singleton, h]
  cases o <;> simp [Stats.record]

end Worker

/-- A worker whose ticks come to the outcomes of an endless sequence. -/
structure Reel where
  outcomes : Nat → Option Outcome

instance : Worker Reel where
  name := "reel"
  tick r := (r.outcomes 0, ⟨fun k => r.outcomes (k + 1)⟩)
  load _ := 0

/-- Any sequence of outcomes is what the ticks of some worker come to. -/
theorem Reel.outcome_eq (r : Reel) (k : Nat) : Worker.outcome r k = r.outcomes k := by
  have hafter : Worker.after r k = ⟨fun i => r.outcomes (i + k)⟩ := by
    induction k with
    | zero => rfl
    | succ k ih =>
      rw [Worker.after, ih]
      simp only [Worker.tick, Nat.add_assoc, Nat.add_comm 1]
  rw [Worker.outcome, hafter]
  simp only [Worker.tick, Nat.zero_add]

/-- A loop that was ticked by hand and then started. -/
structure Timetable (ω : Type) where
  /-- What the loop works on, before its first tick. -/
  worker : ω
  wait : Nat
  /-- The number of ticks by hand. -/
  byHand : Nat
  /-- When the loop first looked whether it should stop. -/
  start : Nat

namespace Timetable

variable {ω : Type} (t : Timetable ω) {k now : Nat}

/-! ### Timetables -/

/-- When the `k`-th tick is due; those by hand do not count here. -/
def due (k : Nat) : Nat := t.start + k * t.wait

/-- The number of ticks that are due until `now`. -/
def dueBy (now : Nat) : Nat := (now - t.start) / t.wait

theorem due_succ (k : Nat) : t.due (k + 1) = t.due k + t.wait := by
  rw [due, due, Nat.succ_mul, Nat.add_assoc]

theorem due_mono {j k : Nat} (h : j ≤ k) : t.due j ≤ t.due k :=
  Nat.add_le_add_left (Nat.mul_le_mul_right t.wait h) t.start

theorem dueBy_mono {r now : Nat} (h : r ≤ now) : t.dueBy r ≤ t.dueBy now :=
  Nat.div_le_div_right (Nat.sub_le_sub_right h t.start)

variable {t}

theorem lt_dueBy_iff (hwait : 0 < t.wait) : k < t.dueBy now ↔ t.due (k + 1) ≤ now := by
  have hpos : 0 < (k + 1) * t.wait := Nat.mul_pos (Nat.succ_pos k) hwait
  rw [dueBy, Nat.lt_iff_add_one_le, Nat.le_div_iff_mul_le hwait, due]
  omega

theorem le_dueBy (hwait : 0 < t.wait) (h : t.due k ≤ now) : k ≤ t.dueBy now := by
  rw [dueBy, Nat.le_div_iff_mul_le hwait]
  exact Nat.le_sub_of_add_le (Nat.add_comm _ _ ▸ h)

theorem dueBy_eq (hwait : 0 < t.wait) (hle : t.due k ≤ now) (hlt : now < t.due (k + 1)) :
    t.dueBy now = k := by
  refine Nat.le_antisymm (Nat.le_of_not_lt fun h => ?_) (le_dueBy hwait hle)
  exact Nat.not_le_of_lt hlt ((lt_dueBy_iff hwait).1 h)

variable [Worker ω] (t)

/-- The worker after the `k`-th tick. -/
def after (k : Nat) : ω := Worker.after t.worker (t.byHand + k)

/-- What comes of the tick after the `k`-th. -/
def outcome (k : Nat) : Option Outcome := Worker.outcome t.worker (t.byHand + k)

/-- The counters after the `k`-th tick. -/
def tally (k : Nat) : Stats := Worker.tally t.worker (t.byHand + k)

/-- None of the first `k` ticks breaks the loop. -/
def Sound (k : Nat) : Prop := ∀ i < k, t.outcome i ≠ none

instance (k : Nat) : Decidable (t.Sound k) :=
  inferInstanceAs (Decidable (∀ i < k, t.outcome i ≠ none))

/-- The loop has made the first `k` of its ticks, whose counters are those after `counted`. -/
structure Made (k counted : Nat) (s : Solo ω) : Prop where
  worker : s.worker = t.after k
  stats : s.loop.stats = t.tally counted

/-- How far a loop has got that was asked to stop at the times `asked`. -/
inductive Stage (asked : List Nat) (s : Solo ω) : Prop
  | waiting (k : Nat) (sound : t.Sound k) (made : t.Made k k s)
    (phase : s.loop.phase = .waiting (t.due (k + 1))) (le_now : t.due k ≤ s.now)
    (now_lt : s.now < t.due (k + 1)) (stopping : s.loop.stopping = !asked.isEmpty)
    (within : ∀ r ∈ asked.head?, t.due k ≤ r ∧ r ≤ s.now)
  | finished (k : Nat) (sound : t.Sound (k + 1)) (made : t.Made (k + 1) (k + 1) s)
    (phase : s.loop.phase = .finished) (le_now : t.due (k + 1) ≤ s.now) (r : Nat)
    (first : asked.head? = some r) (le_first : t.due k ≤ r) (first_lt : r < t.due (k + 1))
  | crashed (k : Nat) (sound : t.Sound k) (outcome : t.outcome k = none) (made : t.Made (k + 1) k s)
    (phase : s.loop.phase = .crashed) (le_now : t.due (k + 1) ≤ s.now)
    (within : ∀ r ∈ asked.head?, t.due k ≤ r)

/-- The loop keeps to its timetable. -/
structure Kept (asked : List Nat) (s : Solo ω) : Prop where
  wait_eq : s.loop.wait = t.wait
  wait_pos : 0 < t.wait
  joined : s.joined = false
  stage : t.Stage asked s

variable {t} {asked : List Nat} {s : Solo ω}

namespace Kept

theorem rests (h : t.Kept asked s) : s.loop.Rests := by
  refine ⟨h.wait_eq ▸ h.wait_pos, ?_⟩
  rcases h.stage with ⟨k, -, -, phase⟩ | ⟨k, -, -, phase⟩ | ⟨k, -, -, -, phase⟩
  all_goals simp [phase]

theorem isStarted (h : t.Kept asked s) : s.isStarted = true := by
  rcases h.stage with ⟨k, -, -, phase⟩ | ⟨k, -, -, phase⟩ | ⟨k, -, -, -, phase⟩
  all_goals simp [Solo.isStarted, phase]

theorem isHeld (h : t.Kept asked s) : s.isHeld = true := by
  rw [Solo.isHeld, h.isStarted, h.joined]
  rfl

theorem waiting (h : t.Kept asked s) {due : Nat} (hphase : s.loop.phase = .waiting due) :
    s.now < due ∧ ∀ r ∈ asked.head?, r ≤ s.now := by
  rcases h.stage with ⟨k, -, -, phase, -, now_lt, -, within⟩ | ⟨k, -, -, phase⟩ |
    ⟨k, -, -, -, phase⟩
  · rw [phase] at hphase
    cases hphase
    exact ⟨now_lt, fun r hr => (within r hr).2⟩
  · simp [phase] at hphase
  · simp [phase] at hphase

/-! ### Time -/

/-- A loop whose next tick is not due stays as it is. -/
theorem later (h : t.Kept asked s) {now : Nat} (hnow : s.now ≤ now)
    (hdue : ∀ due, s.loop.phase = .waiting due → now < due) :
    t.Kept asked { s with now } := by
  refine { h with stage := ?_ }
  rcases h.stage with ⟨k, sound, made, phase, le_now, now_lt, stopping, within⟩ |
    ⟨k, sound, made, phase, le_now, r, first, le_first, first_lt⟩ |
    ⟨k, sound, outcome, made, phase, le_now, within⟩
  · exact .waiting k sound ⟨made.worker, made.stats⟩ phase (Nat.le_trans le_now hnow) (hdue _ phase)
      stopping fun r hr => ⟨(within r hr).1, Nat.le_trans (within r hr).2 hnow⟩
  · exact .finished k sound ⟨made.worker, made.stats⟩ phase (Nat.le_trans le_now hnow) r first
      le_first first_lt
  · exact .crashed k sound outcome ⟨made.worker, made.stats⟩ phase (Nat.le_trans le_now hnow) within

theorem quiet (h : t.Kept asked s) (n : Nat) :
    t.Kept asked { s with now := s.now + s.loop.quietFor s.now n } := by
  refine h.later (Nat.le_add_right _ _) fun due hphase => ?_
  have hlt : s.now < due := (h.waiting hphase).1
  rw [PollLoop.quietFor_of_waiting h.rests.wait_pos hphase]
  omega

/-- A tick that is due is made, and then the loop looks whether it should stop. -/
theorem passMilli_of_isDue (h : t.Kept asked s) (hdue : s.loop.isDue (s.now + 1) = true) :
    t.Kept asked s.passMilli := by
  rcases h.stage with ⟨k, sound, made, phase, le_now, now_lt, stopping, within⟩ |
    ⟨k, -, -, phase⟩ | ⟨k, -, -, -, phase⟩
  · have hnow : s.now + 1 = t.due (k + 1) := by
      rw [PollLoop.isDue_of_waiting h.rests.wait_pos phase] at hdue
      exact Nat.le_antisymm now_lt (of_decide_eq_true hdue)
    have hworker : (Worker.tick s.worker).2 = t.after (k + 1) := by
      rw [made.worker]
      rfl
    have houtcome : (Worker.tick s.worker).1 = t.outcome k := by
      rw [made.worker]
      rfl
    have hwithin : ∀ r ∈ asked.head?, t.due k ≤ r := fun r hr => (within r hr).1
    rw [Solo.passMilli_of_isDue hdue, hworker, houtcome, hnow]
    cases ho : t.outcome k with
    | none =>
      rw [PollLoop.check_crashed]
      exact ⟨h.wait_eq, h.wait_pos, h.joined,
        .crashed k sound ho ⟨rfl, made.stats⟩ rfl (Nat.le_refl _) hwithin⟩
    | some o =>
      have hsound : t.Sound (k + 1) := by
        intro i hi
        rcases Nat.lt_succ_iff_lt_or_eq.1 hi with hi | rfl
        · exact sound i hi
        · simp [ho]
      have hstats : s.loop.stats.record o = t.tally (k + 1) := by
        rw [made.stats]
        exact (Worker.tally_succ ho).symm
      have hw : s.loop.isWaiting = true := by simp [PollLoop.isWaiting, phase]
      rw [PollLoop.check_ticked hw, stopping, h.wait_eq, ← due_succ]
      refine ⟨rfl, h.wait_pos, h.joined, ?_⟩
      cases asked with
      | nil =>
        have hnext : t.due (k + 1) < t.due (k + 2) :=
          Nat.lt_of_lt_of_eq (Nat.lt_add_of_pos_right h.wait_pos) (t.due_succ (k + 1)).symm
        exact .waiting (k + 1) hsound ⟨rfl, hstats⟩ rfl (Nat.le_refl _) hnext rfl (by simp)
      | cons r rest =>
        exact .finished k hsound ⟨rfl, hstats⟩ rfl (Nat.le_refl _) r rfl (hwithin r rfl)
          (Nat.lt_of_le_of_lt (within r rfl).2 now_lt)
  · simp [PollLoop.isDue, phase] at hdue
  · simp [PollLoop.isDue, phase] at hdue

theorem passMilli (h : t.Kept asked s) : t.Kept asked s.passMilli := by
  by_cases hdue : s.loop.isDue (s.now + 1) = true
  · exact h.passMilli_of_isDue hdue
  · rw [Solo.passMilli_of_not_isDue h.rests (Bool.eq_false_iff.2 hdue)]
    refine h.later (Nat.le_succ s.now) fun due hphase => ?_
    rw [PollLoop.isDue_of_waiting h.rests.wait_pos hphase] at hdue
    simpa using hdue

theorem advance (h : t.Kept asked s) (n : Nat) : t.Kept asked (s.advance n) := by
  rw [Solo.advance, Solo.settle_of_rests h.rests]
  exact Solo.run_preserves (fun _ n h => h.quiet n) (fun _ h => h.passMilli) n h

/-! ### Calls -/

theorem requestStop (h : t.Kept asked s) : t.Kept (asked ++ [s.now]) s.requestStop := by
  refine ⟨h.wait_eq, h.wait_pos, h.joined, ?_⟩
  have hfirst : ∀ r ∈ (asked ++ [s.now]).head?, r ∈ asked.head? ∨ r = s.now := by
    cases asked with
    | nil => simp
    | cons r rest => simp
  rcases h.stage with ⟨k, sound, made, phase, le_now, now_lt, stopping, within⟩ |
    ⟨k, sound, made, phase, le_now, r, first, le_first, first_lt⟩ |
    ⟨k, sound, outcome, made, phase, le_now, within⟩
  · have hstopping : s.requestStop.loop.stopping = !(asked ++ [s.now]).isEmpty := by
      simp [Solo.requestStop, PollLoop.requestStop]
    refine .waiting k sound ⟨made.worker, made.stats⟩ phase le_now now_lt hstopping fun r hr => ?_
    rcases hfirst r hr with hr | rfl
    · exact within r hr
    · exact ⟨le_now, Nat.le_refl _⟩
  · refine .finished k sound ⟨made.worker, made.stats⟩ phase le_now r ?_ le_first first_lt
    rw [List.head?_append, first]
    rfl
  · refine .crashed k sound outcome ⟨made.worker, made.stats⟩ phase le_now fun r hr => ?_
    rcases hfirst r hr with hr | rfl
    · exact within r hr
    · exact Nat.le_trans (t.due_mono (Nat.le_succ k)) le_now

theorem step (h : t.Kept asked s) (act : Solo.Act) :
    t.Kept (asked ++ Solo.asked act s) (Solo.machine.step act s) := by
  cases act with
  | tick =>
    have hnone : s.tick = .error .started := if_pos h.isStarted
    simpa [Solo.machine, Solo.asked, hnone, Except.toOption] using h
  | start =>
    have hnone : s.start = .error .started := if_pos h.isStarted
    simpa [Solo.machine, Solo.asked, hnone, Except.toOption] using h
  | requestStop => exact h.requestStop
  | settle => simpa [Solo.machine, Solo.asked, Solo.settle_of_rests h.rests] using h
  | advance n => simpa [Solo.machine, Solo.asked] using h.advance n

/-- A loop that has looked once keeps to its timetable ever after. -/
theorem run (h : t.Kept asked s) (acts : List Solo.Act) :
    t.Kept (asked ++ Solo.machine.log Solo.asked acts s) (Solo.machine.run acts s) :=
  Solo.machine.run_log_preserves (fun _ act _ h => h.step act) acts h

/-! ### What becomes of the loop -/

/-- A loop that was not asked to stop has made all ticks that were due. -/
theorem going (h : t.Kept [] s) (hsound : t.Sound (t.dueBy s.now)) :
    t.Made (t.dueBy s.now) (t.dueBy s.now) s ∧
      s.loop.phase = .waiting (t.due (t.dueBy s.now + 1)) := by
  rcases h.stage with ⟨k, sound, made, phase, le_now, now_lt⟩ | ⟨k, -, -, -, -, r, first⟩ |
    ⟨k, -, outcome, -, -, le_now⟩
  · rw [dueBy_eq h.wait_pos le_now now_lt]
    exact ⟨made, phase⟩
  · cases first
  · exact absurd outcome (hsound k ((lt_dueBy_iff h.wait_pos).2 le_now))

/-- A loop that was asked to stop makes the next tick, which is its last one. -/
theorem stopped (h : t.Kept asked s) {r : Nat} (hfirst : asked.head? = some r)
    (hsound : t.Sound (t.dueBy r + 1)) :
    t.Made (min (t.dueBy s.now) (t.dueBy r + 1)) (min (t.dueBy s.now) (t.dueBy r + 1)) s ∧
      s.loop.phase =
        if t.due (t.dueBy r + 1) ≤ s.now then .finished else .waiting (t.due (t.dueBy r + 1)) := by
  rcases h.stage with ⟨k, sound, made, phase, le_now, now_lt, -, within⟩ |
    ⟨k, sound, made, phase, le_now, r', first, le_first, first_lt⟩ |
    ⟨k, -, outcome, -, -, -, within⟩
  · obtain ⟨hle, hnow⟩ := within r hfirst
    rw [dueBy_eq h.wait_pos le_now now_lt, dueBy_eq h.wait_pos hle (Nat.lt_of_le_of_lt hnow now_lt),
      Nat.min_eq_left (Nat.le_succ k), if_neg (Nat.not_le_of_lt now_lt)]
    exact ⟨made, phase⟩
  · cases hfirst.symm.trans first
    rw [dueBy_eq h.wait_pos le_first first_lt, if_pos le_now,
      Nat.min_eq_right (le_dueBy h.wait_pos le_now)]
    exact ⟨made, phase⟩
  · have hk : k ≤ t.dueBy r := le_dueBy h.wait_pos (within r hfirst)
    exact absurd outcome (hsound k (Nat.lt_succ_of_le hk))

/-- A loop breaks at the first tick that breaks it, unless an earlier one is its last. -/
theorem crashed (h : t.Kept asked s) {p : Nat} (hasked : ∀ r ∈ asked.head?, p ≤ t.dueBy r)
    (hsound : t.Sound p) (hbreaks : t.outcome p = none) :
    t.Made (min (t.dueBy s.now) (p + 1)) (min (t.dueBy s.now) p) s ∧
      s.loop.phase =
        if t.due (p + 1) ≤ s.now then .crashed else .waiting (t.due (t.dueBy s.now + 1)) := by
  rcases h.stage with ⟨k, sound, made, phase, le_now, now_lt⟩ |
    ⟨k, sound, -, -, -, r, first, le_first, first_lt⟩ | ⟨k, sound, outcome, made, phase, le_now⟩
  · have hk : k ≤ p := Nat.le_of_not_lt fun hp => sound p hp hbreaks
    have hlate : ¬t.due (p + 1) ≤ s.now := fun hp =>
      Nat.not_le_of_lt now_lt (Nat.le_trans (t.due_mono (Nat.succ_le_succ hk)) hp)
    rw [dueBy_eq h.wait_pos le_now now_lt, Nat.min_eq_left hk,
      Nat.min_eq_left (Nat.le_succ_of_le hk), if_neg hlate]
    exact ⟨made, phase⟩
  · have hp : p ≤ k := dueBy_eq h.wait_pos le_first first_lt ▸ hasked r first
    exact absurd hbreaks (sound p (Nat.lt_succ_of_le hp))
  · have hk : k = p := Nat.le_antisymm (Nat.le_of_not_lt fun hp => sound p hp hbreaks)
      (Nat.le_of_not_lt fun hk => hsound k hk outcome)
    have hdue : p < t.dueBy s.now := (lt_dueBy_iff h.wait_pos).2 (hk ▸ le_now)
    rw [← hk] at hdue ⊢
    rw [Nat.min_eq_right hdue, Nat.min_eq_right (Nat.le_of_lt hdue), if_pos le_now]
    exact ⟨made, phase⟩

/-! ### Waiting for the end -/

/-- A loop that is over or was asked to stop can be waited for, and keeps to its timetable
    meanwhile. -/
theorem endsAt (h : t.Kept asked s) (hend : s.loop.isOver = true ∨ asked ≠ []) {time : Nat}
    (htime : s.now + s.loop.timeLeft s.now = time) {result : Except LoopError Stats}
    (hresult : ∀ s', t.Kept asked s' → s'.now = time →
      (if s'.loop.phase = .crashed then .error (.crashed (Worker.name ω)) else .ok s'.loop.stats) =
        result) :
    s.EndsAt time result := by
  have hstop : s.loop.isOver = true ∨ s.loop.stopping = true := by
    refine hend.elim .inl fun hasked => ?_
    rcases h.stage with ⟨k, -, -, -, -, -, stopping⟩ | ⟨k, -, -, phase⟩ | ⟨k, -, -, -, phase⟩
    · exact .inr (by simpa [stopping] using hasked)
    · exact .inl (by simp [PollLoop.isOver, phase])
    · exact .inl (by simp [PollLoop.isOver, phase])
  have hnow := (s.now_advance _).trans htime
  refine ⟨{ s.advance (s.loop.timeLeft s.now) with joined := true }, ?_, hnow⟩
  rw [Solo.join_eq h.isHeld h.rests hstop, hresult _ (h.advance _) hnow]

theorem endsAt_of_stopped (h : t.Kept asked s) {r : Nat} (hfirst : asked.head? = some r)
    (hsound : t.Sound (t.dueBy r + 1)) :
    s.EndsAt (max s.now (t.due (t.dueBy r + 1))) (.ok (t.tally (t.dueBy r + 1))) := by
  have hasked : asked ≠ [] := fun hnil => by simp [hnil] at hfirst
  refine h.endsAt (.inr hasked) (PollLoop.add_timeLeft (.inl rfl) (h.stopped hfirst hsound).2)
    fun s' h' hnow => ?_
  obtain ⟨made, phase⟩ := h'.stopped hfirst hsound
  have hdue : t.due (t.dueBy r + 1) ≤ s'.now := hnow ▸ Nat.le_max_right _ _
  rw [if_pos hdue] at phase
  rw [phase, if_neg nofun, made.stats, Nat.min_eq_right ((lt_dueBy_iff h.wait_pos).2 hdue)]

theorem endsAt_of_crashed (h : t.Kept asked s) {p : Nat} (hasked : ∀ r ∈ asked.head?, p ≤ t.dueBy r)
    (hsound : t.Sound p) (hbreaks : t.outcome p = none)
    (hend : s.loop.isOver = true ∨ asked ≠ []) :
    s.EndsAt (max s.now (t.due (p + 1))) (.error (.crashed (Worker.name ω))) := by
  have hphase : s.loop.phase =
      if t.due (p + 1) ≤ s.now then .crashed else .waiting (t.due (p + 1)) := by
    have hphase := (h.crashed hasked hsound hbreaks).2
    split at hphase
    · next hdue => rw [hphase, if_pos hdue]
    · next hdue =>
      -- The loop goes on, so it was asked to stop, and not before the tick that will break it.
      have hgoes : ¬s.loop.isOver = true := by simp [PollLoop.isOver, hphase]
      obtain ⟨r, hr⟩ := Option.isSome_iff_exists.1
        (List.isSome_head?.2 (hend.resolve_left hgoes))
      have hp : p ≤ t.dueBy s.now :=
        Nat.le_trans (hasked r hr) (t.dueBy_mono ((h.waiting hphase).2 r hr))
      have heq : t.dueBy s.now = p :=
        Nat.le_antisymm (Nat.le_of_not_lt fun hlt => hdue ((lt_dueBy_iff h.wait_pos).1 hlt)) hp
      rw [hphase, if_neg hdue, heq]
  refine h.endsAt hend (PollLoop.add_timeLeft (.inr rfl) hphase) fun s' h' hnow => ?_
  have hdue : t.due (p + 1) ≤ s'.now := hnow ▸ Nat.le_max_right _ _
  rw [(h'.crashed hasked hsound hbreaks).2, if_pos hdue, if_pos rfl]

end Kept

end Timetable

end GridRobot
