import GridRobot.Json.Forms
import GridRobot.Proofs.Json.Decoder

/-!
# Members in any order

The members of a record are read one apart from the other (`Record.Apart`): what
one of them fills in leaves the others as they are. So the order in which they
stand in an object does not matter (`Record.ofMembers_perm`), members of other
names are passed over wherever they stand (`Record.ofValue_arranged`), and
no member is accepted twice (`Record.count_le_one`).
-/

namespace GridRobot.Json

variable {α β γ σ : Type} {a : α} {b : β} {c : γ}

/-- The members `own` in any order, among others that are not called any of `names`. -/
def Arranged (names : List String) (own ms : List (String × Value)) : Prop :=
  ∃ others, ms.Perm (own ++ others) ∧ ∀ x ∈ others, x.1 ∉ names

/-- A member called one of `names` stands there twice. -/
def Repeats (names : List String) (ms : List (String × Value)) : Prop :=
  ∃ name ∈ names, 2 ≤ (ms.map Prod.fst).count name

theorem Arranged.of_perm {names : List String} {own ms : List (String × Value)}
    (h : ms.Perm own) : Arranged names own ms :=
  ⟨[], by rwa [List.append_nil], List.forall_mem_nil _⟩

namespace Record

variable {r : Record σ α} {s s' s₁ s₂ : σ} {m : Member σ} {x y : String × Value}
  {ms ms' own : List (String × Value)} {name : String} {v : Value}

/-- The names of the members. -/
def names (r : Record σ α) : List String := r.members.map Member.name

theorem find?_eq_none (h : name ∉ r.names) : r.members.find? (·.name = name) = none := by
  rw [List.find?_eq_none]
  intro m hm hname
  exact h (of_decide_eq_true hname ▸ List.mem_map_of_mem hm)

theorem mem_of_find? (h : r.members.find? (·.name = name) = some m) :
    m ∈ r.members ∧ m.name = name := by
  have hname := List.find?_some h
  rw [decide_eq_true_iff] at hname
  exact ⟨List.mem_of_find?_eq_some h, hname⟩

theorem exists_find? (h : name ∈ r.names) :
    ∃ m, r.members.find? (·.name = name) = some m := by
  obtain ⟨m, hm, rfl⟩ := List.mem_map.1 h
  rw [← Option.isSome_iff_exists, List.find?_isSome]
  exact ⟨m, hm, decide_eq_true rfl⟩

/-- The members of a record are read one apart from the other: each makes itself known, and
    leaves what is known of the others as it is. -/
structure Apart (r : Record σ α) : Prop where
  known {m : Member σ} {v : Value} {f : σ → σ} (hm : m ∈ r.members)
    (h : m.fill.ofValue v = .ok f) (s : σ) : m.known (f s) = true
  others {m m' : Member σ} {v : Value} {f : σ → σ} (hm : m ∈ r.members) (hm' : m' ∈ r.members)
    (hne : m.name ≠ m'.name) (h : m.fill.ofValue v = .ok f) (s : σ) : m'.known (f s) = m'.known s
  comm {m m' : Member σ} {v v' : Value} {f f' : σ → σ} (hm : m ∈ r.members) (hm' : m' ∈ r.members)
    (hne : m.name ≠ m'.name) (h : m.fill.ofValue v = .ok f) (h' : m'.fill.ofValue v' = .ok f')
    (s : σ) : f (f' s) = f' (f s)

/-! ### Order -/

/-- Two members of an object can be read the other way round. -/
theorem Takes.comm (hr : r.Apart) (hx : r.Takes s x s₁) (hy : r.Takes s₁ y s₂) :
    ∃ s₁', r.Takes s y s₁' ∧ r.Takes s₁' x s₂ := by
  cases hx with
  | unknown hfind hopen => exact ⟨s₂, hy, .unknown hfind hopen⟩
  | @known name v m f hfind hnew hread =>
    cases hy with
    | unknown hfind' hopen' => exact ⟨s, .unknown hfind' hopen', .known hfind hnew hread⟩
    | @known name' v' m' f' hfind' hnew' hread' =>
      obtain ⟨hm, hname⟩ := mem_of_find? hfind
      obtain ⟨hm', hname'⟩ := mem_of_find? hfind'
      -- The same member would have been known after the first time.
      have hne : m.name ≠ m'.name := by
        intro heq
        have hsame : m = m' := by
          rw [← hname, heq, hname', hfind'] at hfind
          exact (Option.some.inj hfind).symm
        rw [← hsame, hr.known hm hread] at hnew'
        cases hnew'
      have hstill := hr.others hm hm' hne hread s
      have hstill' := hr.others hm' hm hne.symm hread' s
      refine ⟨f' s, .known hfind' (hstill.symm.trans hnew') hread', ?_⟩
      rw [← hr.comm hm hm' hne hread hread' s]
      exact .known hfind (hstill'.trans hnew) hread

/-- The order of the members of an object does not matter. -/
theorem ofMembers_perm (hr : r.Apart) (hperm : ms.Perm ms') (h : r.ofMembers s ms = .ok s') :
    r.ofMembers s ms' = .ok s' := by
  induction hperm generalizing s with
  | nil => exact h
  | cons x _ ih =>
    obtain ⟨s₁, hx, h⟩ := ofMembers_cons_eq_ok_iff.1 h
    exact ofMembers_cons_eq_ok_iff.2 ⟨s₁, hx, ih h⟩
  | swap x y ms =>
    obtain ⟨s₁, hy, h⟩ := ofMembers_cons_eq_ok_iff.1 h
    obtain ⟨s₂, hx, h⟩ := ofMembers_cons_eq_ok_iff.1 h
    obtain ⟨s₁', hx, hy⟩ := hy.comm hr hx
    exact ofMembers_cons_eq_ok_iff.2 ⟨s₁', hx, ofMembers_cons_eq_ok_iff.2 ⟨s₂, hy, h⟩⟩
  | trans _ _ ih ih' => exact ih' (ih h)

/-! ### Other members -/

/-- Members of other names change nothing. -/
theorem ofMembers_others (hopen : r.closed = false) (h : ∀ x ∈ ms, x.1 ∉ r.names) (s : σ) :
    r.ofMembers s ms = .ok s := by
  induction ms with
  | nil => rfl
  | cons x ms ih =>
    obtain ⟨hx, hms⟩ := List.forall_mem_cons.1 h
    exact ofMembers_cons_eq_ok_iff.2 ⟨s, .unknown (find?_eq_none hx) hopen, ih hms⟩

theorem ofMembers_append_eq_ok_iff :
    r.ofMembers s (ms ++ ms') = .ok s' ↔
      ∃ s₁, r.ofMembers s ms = .ok s₁ ∧ r.ofMembers s₁ ms' = .ok s' := by
  induction ms generalizing s with
  | nil =>
    constructor
    · exact fun h => ⟨s, rfl, h⟩
    · rintro ⟨s₁, h, h'⟩
      cases h
      exact h'
  | cons x ms ih =>
    simp only [List.cons_append, ofMembers_cons_eq_ok_iff, ih]
    constructor
    · rintro ⟨s₁, hx, s₂, hms, hms'⟩
      exact ⟨s₂, ⟨s₁, hx, hms⟩, hms'⟩
    · rintro ⟨s₂, ⟨s₁, hx, hms⟩, hms'⟩
      exact ⟨s₁, hx, s₂, hms, hms'⟩

/-- Members in any order and among others are read as they are by themselves. -/
theorem ofMembers_arranged (hr : r.Apart) (hopen : r.closed = false)
    (h : Arranged r.names own ms) :
    r.ofMembers s ms = .ok s' ↔ r.ofMembers s own = .ok s' := by
  obtain ⟨others, hperm, hothers⟩ := h
  constructor
  · intro h
    obtain ⟨s₁, hown, h⟩ := ofMembers_append_eq_ok_iff.1 (ofMembers_perm hr hperm h)
    rw [ofMembers_others hopen hothers, Except.ok.injEq] at h
    exact h ▸ hown
  · intro h
    refine ofMembers_perm hr hperm.symm (ofMembers_append_eq_ok_iff.2 ⟨s', h, ?_⟩)
    exact ofMembers_others hopen hothers s'

theorem ofValue_object_eq_ok_iff :
    r.decoder.ofValue (.object ms) = .ok a ↔
      ∃ s, r.ofMembers r.blank ms = .ok s ∧ r.complete s = .ok a :=
  outcome_bind_eq_ok_iff

theorem ofValue_arranged (hr : r.Apart) (hopen : r.closed = false)
    (h : Arranged r.names own ms) :
    r.decoder.ofValue (.object ms) = .ok a ↔ r.decoder.ofValue (.object own) = .ok a := by
  simp only [ofValue_object_eq_ok_iff, ofMembers_arranged hr hopen h]

/-! ### Repetition -/

/-- What is known of a record stays known. -/
theorem Takes.known_mono (hr : r.Apart) (h : r.Takes s x s₁) (hm : m ∈ r.members)
    (hknown : m.known s = true) (hfind : r.members.find? (·.name = m.name) = some m) :
    x.1 ≠ m.name ∧ m.known s₁ = true := by
  cases h with
  | unknown hfind' hopen =>
    refine ⟨?_, hknown⟩
    rintro rfl
    cases hfind'.symm.trans hfind
  | @known name v m' f hfind' hnew hread =>
    obtain ⟨hm', rfl⟩ := mem_of_find? hfind'
    have hne : m'.name ≠ m.name := by
      intro heq
      rw [heq] at hfind'
      cases hfind'.symm.trans hfind
      cases hnew.symm.trans hknown
    exact ⟨hne, (hr.others hm' hm hne hread s).trans hknown⟩

/-- Nothing is read again that is known already. -/
theorem notMem_of_known (hr : r.Apart) (hfind : r.members.find? (·.name = name) = some m)
    (hknown : m.known s = true) (h : r.ofMembers s ms = .ok s') : name ∉ ms.map Prod.fst := by
  obtain ⟨hm, rfl⟩ := mem_of_find? hfind
  induction ms generalizing s with
  | nil => exact List.not_mem_nil
  | cons x ms ih =>
    obtain ⟨s₁, hx, h⟩ := ofMembers_cons_eq_ok_iff.1 h
    obtain ⟨hne, hknown⟩ := hx.known_mono hr hm hknown hfind
    rw [List.map_cons, List.mem_cons, not_or]
    exact ⟨hne.symm, ih hknown h⟩

/-- No member of a record is read twice. -/
theorem not_repeats (hr : r.Apart) (h : r.ofMembers s ms = .ok s') : ¬Repeats r.names ms := by
  rintro ⟨name, hname, hcount⟩
  obtain ⟨m, hfind⟩ := exists_find? hname
  induction ms generalizing s with
  | nil => cases hcount
  | cons x ms ih =>
    obtain ⟨s₁, hx, h⟩ := ofMembers_cons_eq_ok_iff.1 h
    rw [List.map_cons] at hcount
    -- After the first member of this name it is known, so that it does not come again.
    by_cases heq : x.1 = name
    · subst heq
      cases hx with
      | unknown hfind' hopen => cases hfind'.symm.trans hfind
      | known hfind' hnew hread =>
        cases hfind'.symm.trans hfind
        have hknown := hr.known (mem_of_find? hfind).1 hread s
        have hnone := List.count_eq_zero_of_not_mem (notMem_of_known hr hfind hknown h)
        rw [List.count_cons_self, hnone] at hcount
        exact absurd hcount (by decide)
    · rw [List.count_cons_of_ne heq] at hcount
      exact ih h hcount

/-- A member that is known to the record is read by it. -/
theorem exists_ofValue_of_mem (h : r.ofMembers s ms = .ok s') (hx : (name, v) ∈ ms)
    (hfind : r.members.find? (·.name = name) = some m) : ∃ f, m.fill.ofValue v = .ok f := by
  induction ms generalizing s with
  | nil => cases hx
  | cons x ms ih =>
    obtain ⟨s₁, htakes, h⟩ := ofMembers_cons_eq_ok_iff.1 h
    rcases List.mem_cons.1 hx with rfl | hx
    · cases htakes with
      | unknown hfind' hopen => cases hfind'.symm.trans hfind
      | known hfind' hnew hread =>
        cases hfind'.symm.trans hfind
        exact ⟨_, hread⟩
    · exact ih h hx

end Record

/-! ### Records of one member and of two -/

theorem map_ofValue_eq_ok_iff {d : Decoder α} {f : α → β} {v : Value} :
    (d.map f).ofValue v = .ok b ↔ ∃ a, d.ofValue v = .ok a ∧ f a = b := by
  refine outcome_bind_eq_ok_iff.trans (exists_congr fun a => and_congr_right fun _ => ?_)
  rw [Except.ok.injEq]

theorem Record.takes_iff {r : Record σ α} {s s' : σ} {name : String} {v : Value} {m : Member σ}
    (hfind : r.members.find? (·.name = name) = some m) :
    r.Takes s (name, v) s' ↔ m.known s = false ∧ ∃ f, m.fill.ofValue v = .ok f ∧ f s = s' := by
  constructor
  · intro h
    cases h with
    | unknown hfind' hopen => cases hfind'.symm.trans hfind
    | known hfind' hnew hread =>
      cases hfind'.symm.trans hfind
      exact ⟨hnew, _, hread, rfl⟩
  · rintro ⟨hnew, f, hread, rfl⟩
    exact .known hfind hnew hread

theorem single_apart (title name : String) (d : Decoder α) (make : α → β) :
    (single title name d make).Apart where
  known hm h s := by
    cases List.mem_singleton.1 hm
    obtain ⟨a, -, rfl⟩ := map_ofValue_eq_ok_iff.1 h
    rfl
  others hm hm' hne h s := by
    cases List.mem_singleton.1 hm
    cases List.mem_singleton.1 hm'
    exact absurd rfl hne
  comm hm hm' hne h h' s := by
    cases List.mem_singleton.1 hm
    cases List.mem_singleton.1 hm'
    exact absurd rfl hne

/-- A record of one member is read from an object just if the member is. -/
theorem single_ofValue_eq_ok_iff {title name : String} {d : Decoder α} {make : α → β} {v : Value} :
    (single title name d make).decoder.ofValue (.object [(name, v)]) = .ok b ↔
      ∃ a, d.ofValue v = .ok a ∧ make a = b := by
  have hfind : (single title name d make).members.find? (·.name = name) =
      some ⟨name, Option.isSome, d.map fun a _ => some a, false⟩ :=
    List.find?_cons_of_pos (decide_eq_true rfl)
  simp only [Record.ofValue_object_eq_ok_iff, Record.ofMembers_cons_eq_ok_iff,
    Record.takes_iff hfind, map_ofValue_eq_ok_iff]
  constructor
  · rintro ⟨s, ⟨s₁, ⟨-, f, ⟨a, ha, rfl⟩, rfl⟩, h⟩, hcomplete⟩
    cases h
    exact ⟨a, ha, Except.ok.inj hcomplete⟩
  · rintro ⟨a, ha, rfl⟩
    exact ⟨some a, ⟨some a, ⟨rfl, _, ⟨a, ha, rfl⟩, rfl⟩, rfl⟩, rfl⟩

section Pair

variable {r : Record (Option α × Option β) γ} {name₁ name₂ : String} {d₁ : Decoder α}
  {d₂ : Decoder β} {optional : Bool} {v₁ v₂ : Value}

theorem pair_apart (hmembers : r.members = pairMembers name₁ d₁ name₂ d₂ optional) : r.Apart where
  known hm h s := by
    rw [hmembers, pairMembers, List.mem_pair] at hm
    rcases hm with rfl | rfl
    · obtain ⟨a, -, rfl⟩ := map_ofValue_eq_ok_iff.1 h
      rfl
    · obtain ⟨b, -, rfl⟩ := map_ofValue_eq_ok_iff.1 h
      rfl
  others hm hm' hne h s := by
    rw [hmembers, pairMembers, List.mem_pair] at hm hm'
    rcases hm with rfl | rfl
    · obtain ⟨a, -, rfl⟩ := map_ofValue_eq_ok_iff.1 h
      rcases hm' with rfl | rfl
      · exact absurd rfl hne
      · rfl
    · obtain ⟨b, -, rfl⟩ := map_ofValue_eq_ok_iff.1 h
      rcases hm' with rfl | rfl
      · rfl
      · exact absurd rfl hne
  comm hm hm' hne h h' s := by
    rw [hmembers, pairMembers, List.mem_pair] at hm hm'
    rcases hm with rfl | rfl
    · obtain ⟨a, -, rfl⟩ := map_ofValue_eq_ok_iff.1 h
      rcases hm' with rfl | rfl
      · exact absurd rfl hne
      · obtain ⟨b, -, rfl⟩ := map_ofValue_eq_ok_iff.1 h'
        rfl
    · obtain ⟨b, -, rfl⟩ := map_ofValue_eq_ok_iff.1 h
      rcases hm' with rfl | rfl
      · obtain ⟨a, -, rfl⟩ := map_ofValue_eq_ok_iff.1 h'
        rfl
      · exact absurd rfl hne

/-- The first member of a pair is read where it is not known yet. -/
theorem pair_takes_first_iff (hmembers : r.members = pairMembers name₁ d₁ name₂ d₂ optional)
    {s s' : Option α × Option β} :
    r.Takes s (name₁, v₁) s' ↔ s.1 = none ∧ ∃ a, d₁.ofValue v₁ = .ok a ∧ (some a, s.2) = s' := by
  have hfind : r.members.find? (·.name = name₁) =
      some ⟨name₁, fun s => s.1.isSome, d₁.map fun a s => (some a, s.2), optional⟩ := by
    rw [hmembers]
    exact List.find?_cons_of_pos (decide_eq_true rfl)
  rw [Record.takes_iff hfind]
  simp only [map_ofValue_eq_ok_iff, Option.isSome_eq_false_iff, Option.isNone_iff_eq_none]
  refine and_congr_right fun _ => ?_
  constructor
  · rintro ⟨f, ⟨a, ha, rfl⟩, h⟩
    exact ⟨a, ha, h⟩
  · rintro ⟨a, ha, h⟩
    exact ⟨_, ⟨a, ha, rfl⟩, h⟩

theorem pair_takes_second_iff (hmembers : r.members = pairMembers name₁ d₁ name₂ d₂ optional)
    (hname : name₁ ≠ name₂) {s s' : Option α × Option β} :
    r.Takes s (name₂, v₂) s' ↔ s.2 = none ∧ ∃ b, d₂.ofValue v₂ = .ok b ∧ (s.1, some b) = s' := by
  have hfind : r.members.find? (·.name = name₂) =
      some ⟨name₂, fun s => s.2.isSome, d₂.map fun b s => (s.1, some b), optional⟩ := by
    rw [hmembers]
    refine (List.find?_cons_of_neg ?_).trans (List.find?_cons_of_pos (decide_eq_true rfl))
    exact fun h => hname (of_decide_eq_true h)
  rw [Record.takes_iff hfind]
  simp only [map_ofValue_eq_ok_iff, Option.isSome_eq_false_iff, Option.isNone_iff_eq_none]
  refine and_congr_right fun _ => ?_
  constructor
  · rintro ⟨f, ⟨b, hb, rfl⟩, h⟩
    exact ⟨b, hb, h⟩
  · rintro ⟨b, hb, h⟩
    exact ⟨_, ⟨b, hb, rfl⟩, h⟩

/-- A record of two members is read from an object just if both are. -/
theorem pair_ofValue_eq_ok_iff (hmembers : r.members = pairMembers name₁ d₁ name₂ d₂ optional)
    (hblank : r.blank = (none, none)) (hname : name₁ ≠ name₂) :
    r.decoder.ofValue (.object [(name₁, v₁), (name₂, v₂)]) = .ok c ↔
      ∃ a b, d₁.ofValue v₁ = .ok a ∧ d₂.ofValue v₂ = .ok b ∧
        r.finish (some a, some b) = .ok c := by
  have hcomplete (a : α) (b : β) : r.complete (some a, some b) = r.finish (some a, some b) := by
    rw [Record.complete, Record.missing?, hmembers]
    rfl
  simp only [Record.ofValue_object_eq_ok_iff, Record.ofMembers_cons_eq_ok_iff, hblank,
    pair_takes_first_iff hmembers, pair_takes_second_iff hmembers hname]
  constructor
  · rintro ⟨s, ⟨s₁, ⟨-, a, ha, rfl⟩, s₂, ⟨-, b, hb, rfl⟩, h⟩, hfinish⟩
    cases h
    exact ⟨a, b, ha, hb, (hcomplete a b).symm.trans hfinish⟩
  · rintro ⟨a, b, ha, hb, hfinish⟩
    exact ⟨(some a, some b), ⟨(some a, none), ⟨trivial, a, ha, rfl⟩, (some a, some b),
      ⟨rfl, b, hb, rfl⟩, rfl⟩, (hcomplete a b).trans hfinish⟩

end Pair

end GridRobot.Json
