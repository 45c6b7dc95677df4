import GridRobot.Json.Decoder
import GridRobot.Proofs.Json.Trees

/-!
# What decoders read

A decoder reads a value straight from a text, and it reads the tree that was
made of a text. Both come to the same: what is read from a text is read from its
tree (`Decoder.Sound`), and what is read from a tree is read from every text of
it (`Decoder.Covers`). The former holds of all decoders. The latter does not hold
of a choice given as an object, where the tree takes an empty object for null;
it holds of names, and of objects whose members are covered
(`Record.decoder_covers`). In particular a value that is covered is read from
the text that is written of it, whatever blanks stand before it
(`Decoder.Reads`).
-/

namespace GridRobot.Json

variable {α β σ : Type} {text text' rest rest' : List UInt8} {v : Value} {a : α} {b : β}
  {depth : Nat}

/-- Whatever the decoder reads from a text, it reads from the tree of the text, and it leaves off
    where the text of the tree ends. -/
structure Decoder.Sound (d : Decoder α) : Prop where
  agree {depth : Nat} {text rest rest' : List UInt8} {v : Value} {a : α}
    (hv : value depth text = .ok (v, rest)) (h : d.read text = .ok (a, rest')) :
    d.ofValue v = .ok a ∧ rest' = rest

/-- Whatever the decoder reads from the tree, it reads from every text of the tree. -/
structure Decoder.Covers (d : Decoder α) (v : Value) : Prop where
  read_eq {depth : Nat} {text rest : List UInt8} {a : α} (hv : value depth text = .ok (v, rest))
    (h : d.ofValue v = .ok a) : d.read text = .ok (a, rest)

/-- The decoder reads the value as `a`. -/
structure Decoder.Reads (d : Decoder α) (v : Value) (a : α) : Prop where
  text : ∀ {before rest : List UInt8}, Blank before → Stops rest →
    d.read (before ++ (v.bytes ++ rest)) = .ok (a, rest)
  tree : d.ofValue v = .ok a

/-- A value that is covered is read from its own text. -/
theorem Decoder.Covers.reads {d : Decoder α} (h : d.Covers v) (hv : v.Within depth)
    (ha : d.ofValue v = .ok a) : d.Reads v a where
  text hbefore hrest := h.read_eq (hv.value_eq hbefore hrest) ha
  tree := ha

/-! ### Leaves -/

theorem refuse_eq_ok_iff {expected : String} :
    (refuse expected : Reader α) text = .ok (a, rest) ↔ False := by
  refine iff_false_intro fun h => ?_
  obtain ⟨b, text', -, h⟩ := bind_eq_ok_iff.1 h
  have hvalue (h : (value 1 >>= fun v => mismatch (.wrongType v.found expected) : Reader α) text' =
      .ok (a, rest)) : False := by
    obtain ⟨v, mid, -, h⟩ := bind_eq_ok_iff.1 h
    cases h
  generalize Start.of b = start at h
  cases start with
  | list => cases h
  | object => cases h
  | _ => exact hvalue h

namespace Decoder

variable {d : Decoder α}

/-- An integer is read from a text just if it is from the tree of the text. -/
theorem integer_read_iff {expected : String} {low high n : Int}
    (hv : value depth text = .ok (v, rest)) :
    (integer expected low high).read text = .ok (n, rest') ↔
      (integer expected low high).ofValue v = .ok n ∧ rest' = rest := by
  obtain ⟨fuel, b, text', htoken, hstands⟩ := stands_of_value hv
  have hnumber {k : Number} (h : number text' = .ok (k, rest)) :
      (number >>= fun k => settle (ranged expected low high k)) text' = .ok (n, rest') ↔
        ranged expected low high k = .ok n ∧ rest' = rest := by
    rw [bind_eq h, settle_eq_ok_iff, eq_comm (a := rest)]
  have hread : (integer expected low high).read text = _ := bind_eq htoken
  rw [hread]
  generalize Start.of b = start at hstands
  cases hstands with
  | minus h => exact hnumber h
  | digit h => exact hnumber h
  | _ =>
    refine refuse_eq_ok_iff.trans (iff_of_false id ?_)
    rintro ⟨h, -⟩
    cases h

theorem boolean_read_iff {b : Bool} (hv : value depth text = .ok (v, rest)) :
    boolean.read text = .ok (b, rest') ↔ boolean.ofValue v = .ok b ∧ rest' = rest := by
  obtain ⟨fuel, first, text', htoken, hstands⟩ := stands_of_value hv
  have hread : boolean.read text = _ := bind_eq htoken
  have hword {bytes : List UInt8} {b' : Bool} (h : word bytes text' = .ok ((), rest)) :
      (do word bytes; return b' : Reader Bool) text' = .ok (b, rest') ↔
        (.ok b' : Except Fault Bool) = .ok b ∧ rest' = rest := by
    rw [bind_eq h, pure_eq_ok_iff, Except.ok.injEq, eq_comm (a := rest)]
  rw [hread]
  generalize Start.of first = start at hstands
  cases hstands with
  | yes h => exact hword h
  | no h => exact hword h
  | _ =>
    refine refuse_eq_ok_iff.trans (iff_of_false id ?_)
    rintro ⟨h, -⟩
    cases h

theorem integer_sound (expected : String) (low high : Int) : (integer expected low high).Sound :=
  ⟨fun hv h => (integer_read_iff hv).1 h⟩

theorem integer_covers (expected : String) (low high : Int) (v : Value) :
    (integer expected low high).Covers v :=
  ⟨fun hv h => (integer_read_iff hv).2 ⟨h, rfl⟩⟩

theorem boolean_sound : boolean.Sound := ⟨fun hv h => (boolean_read_iff hv).1 h⟩

theorem boolean_covers (v : Value) : boolean.Covers v :=
  ⟨fun hv h => (boolean_read_iff hv).2 ⟨h, rfl⟩⟩

theorem Sound.check (hd : d.Sound) (f : α → Except Fault β) : (d.check f).Sound := by
  refine ⟨fun hv h => ?_⟩
  obtain ⟨a, mid, ha, hsettle⟩ := bind_eq_ok_iff.1 h
  obtain ⟨hvalue, rfl⟩ := hd.agree hv ha
  obtain ⟨hb, rfl⟩ := settle_eq_ok_iff.1 hsettle
  exact ⟨outcome_bind_eq_ok_iff.2 ⟨a, hvalue, hb⟩, rfl⟩

theorem Covers.check (hd : d.Covers v) (f : α → Except Fault β) : (d.check f).Covers v := by
  refine ⟨fun hv h => ?_⟩
  obtain ⟨a, ha, hb⟩ := outcome_bind_eq_ok_iff.1 h
  exact bind_eq_ok_iff.2 ⟨a, _, hd.read_eq hv ha, settle_eq_ok_iff.2 ⟨hb, rfl⟩⟩

theorem Sound.map (hd : d.Sound) (f : α → β) : (d.map f).Sound := hd.check _

theorem Covers.map (hd : d.Covers v) (f : α → β) : (d.map f).Covers v := hd.check _

theorem Reads.check {f : α → Except Fault β} (h : d.Reads v a) (hf : f a = .ok b) :
    (d.check f).Reads v b where
  text hbefore hrest := bind_eq_ok_iff.2 ⟨a, _, h.text hbefore hrest, settle_eq_ok_iff.2 ⟨hf, rfl⟩⟩
  tree := outcome_bind_eq_ok_iff.2 ⟨a, h.tree, hf⟩

theorem Reads.map (h : d.Reads v a) (f : α → β) : (d.map f).Reads v (f a) := h.check rfl

theorem integer_reads (expected : String) {low high n : Int} (hn : low ≤ n ∧ n ≤ high)
    (hword : FitsWord n) : (integer expected low high).Reads (.number (.integer n)) n :=
  (integer_covers expected low high _).reads (.integer 0 hword) (if_pos hn)

theorem boolean_reads (b : Bool) : boolean.Reads (.boolean b) b :=
  (boolean_covers _).reads (.boolean 0 b) rfl

end Decoder

/-! ### Choices -/

variable {choices : Choices α}

/-- A name out of choices is read just where the tree is such a name. -/
theorem choiceName_eq_ok_iff (hv : value depth text = .ok (v, rest)) :
    choiceName choices text = .ok (a, rest') ↔
      (∃ name, v = .text name ∧ choices.find name = .ok a) ∧ rest' = rest := by
  obtain ⟨fuel, b, text', htoken, hstands⟩ := stands_of_value hv
  rw [choiceName, bind_eq htoken]
  generalize Start.of b = start at hstands
  cases hstands with
  | @quote s h =>
    have htext : Json.text text' = .ok (s, rest) := h
    dsimp only
    rw [bind_eq htext, settle_eq_ok_iff]
    constructor
    · rintro ⟨hfind, rfl⟩
      exact ⟨⟨s, rfl, hfind⟩, rfl⟩
    · rintro ⟨⟨name, hname, hfind⟩, rfl⟩
      cases hname
      exact ⟨hfind, rfl⟩
  | _ =>
    refine refuse_eq_ok_iff.trans (iff_of_false id ?_)
    rintro ⟨⟨name, h, -⟩, -⟩
    cases h

theorem choiceName_eq_ok (h : choiceName choices text = .ok (a, rest)) :
    ∃ b text' name, token text = .ok (b, text') ∧ Start.of b = .quote ∧
      Json.text text' = .ok (name, rest) ∧ choices.find name = .ok a := by
  obtain ⟨b, text', htoken, h⟩ := bind_eq_ok_iff.1 h
  refine ⟨b, text', ?_⟩
  generalize Start.of b = start at h
  cases start with
  | quote =>
    obtain ⟨name, mid, hname, hsettle⟩ := bind_eq_ok_iff.1 h
    obtain ⟨hfind, rfl⟩ := settle_eq_ok_iff.1 hsettle
    exact ⟨name, htoken, rfl, hname, hfind⟩
  | _ => exact (refuse_eq_ok_iff.1 h).elim

theorem unit_eq_ok (hv : value depth text = .ok (v, rest)) (h : unit text = .ok ((), rest')) :
    v = .null ∧ rest' = rest := by
  obtain ⟨fuel, b, text', htoken, hstands⟩ := stands_of_value hv
  rw [unit, bind_eq htoken] at h
  generalize Start.of b = start at hstands h
  cases hstands with
  | null hword =>
    cases hword.symm.trans h
    exact ⟨rfl, rfl⟩
  | _ => exact (refuse_eq_ok_iff.1 h).elim

namespace Decoder

/-- The object that stands for a choice has one member, the null beside its name. -/
theorem choice_object {ms : List (String × Value)} (hof : MembersOf depth true text ms text')
    (h : (do let a ← choiceName choices; colon; unit; closeObject; return a : Reader α) text =
      .ok (a, rest)) :
    ∃ name, ms = [(name, .null)] ∧ choices.find name = .ok a ∧ rest = text'.drop 1 := by
  obtain ⟨a', text₁, hname, h⟩ := bind_eq_ok_iff.1 h
  obtain ⟨_, text₂, hcolon, h⟩ := bind_eq_ok_iff.1 h
  obtain ⟨_, text₃, hunit, h⟩ := bind_eq_ok_iff.1 h
  obtain ⟨_, text₄, hclose, h⟩ := bind_eq_ok_iff.1 h
  obtain ⟨rfl, rfl⟩ := pure_eq_ok_iff.1 h
  obtain ⟨b, text₀, name, htoken, hquote, htext, hfind⟩ := choiceName_eq_ok hname
  obtain ⟨mid, hmid, rfl⟩ := closeObject_eq_ok_iff.1 hclose
  -- Where the decoder finds the brace, the object has no further member.
  have hend := moreMembers_of_token hmid false
  cases hof with
  | nil hmore =>
    cases htoken.symm.trans (token_of_moreMembers hmore)
    cases hquote
  | cons hmore hname' hcolon' hvalue hof =>
    cases htoken.symm.trans (token_of_moreMembers hmore)
    cases htext.symm.trans hname'
    cases hcolon.symm.trans hcolon'
    obtain ⟨rfl, rfl⟩ := unit_eq_ok hvalue hunit
    cases hof with
    | nil hmore =>
      cases hmore.symm.trans hend
      exact ⟨name, rfl, hfind, rfl⟩
    | cons hmore => cases hmore.symm.trans hend

theorem choice_sound (choices : Choices α) : (choice choices).Sound := by
  refine ⟨fun {depth text rest rest' v a} hv h => ?_⟩
  obtain ⟨fuel, b, text', htoken, hstands⟩ := stands_of_value hv
  have hread : (choice choices).read text = _ := bind_eq htoken
  have hv' := value_of_token htoken hv
  rw [hread] at h
  generalize Start.of b = start at hstands h
  cases hstands with
  | quote _ =>
    obtain ⟨⟨name, hname, hfind⟩, rfl⟩ := (choiceName_eq_ok_iff hv').1 h
    cases hname
    exact ⟨hfind, rfl⟩
  | object hdepth hmembers =>
    obtain ⟨mid, hof, hend, rfl⟩ := membersOf_of_within hmembers
    obtain ⟨_, text₁, hskip, h⟩ := bind_eq_ok_iff.1 h
    cases skip_eq_ok_iff.1 hskip
    obtain ⟨name, rfl, hfind, rfl⟩ := choice_object hof h
    exact ⟨outcome_bind_eq_ok_iff.2 ⟨a, hfind, rfl⟩, rfl⟩
  | _ => cases h

theorem choice_covers (choices : Choices α) (name : String) :
    (choice choices).Covers (.text name) := by
  refine ⟨fun {depth text rest a} hv h => ?_⟩
  obtain ⟨fuel, b, text', htoken, hstands⟩ := stands_of_value hv
  have hread : (choice choices).read text = _ := bind_eq htoken
  have hv' := value_of_token htoken hv
  rw [hread]
  generalize Start.of b = start at hstands
  cases hstands with
  | quote _ => exact (choiceName_eq_ok_iff hv').2 ⟨⟨name, rfl, h⟩, rfl⟩

theorem choice_reads {choices : Choices α} {name : String} (h : choices.lookup name = some a) :
    (choice choices).Reads (.text name) a := by
  have hfind : choices.find name = .ok a := by rw [Choices.find, h]
  exact (choice_covers choices name).reads (.text 0 name) hfind

end Decoder

/-! ### Records -/

namespace Record

variable {r : Record σ α} {s s' s₁ : σ} {x : String × Value} {ms : List (String × Value)}
  {vs : List Value} {fuel count : Nat} {first : Bool}

/-- A member of an object takes what is known of a record from `s` to the last argument. -/
inductive Takes (r : Record σ α) (s : σ) : String × Value → σ → Prop
  | known {name : String} {v : Value} {m : Member σ} {f : σ → σ}
    (hfind : r.members.find? (·.name = name) = some m) (hnew : m.known s = false)
    (hread : m.fill.ofValue v = .ok f) : Takes r s (name, v) (f s)
  | unknown {name : String} {v : Value} (hfind : r.members.find? (·.name = name) = none)
    (hopen : r.closed = false) : Takes r s (name, v) s

theorem ofMembers_cons_eq_ok_iff :
    r.ofMembers s (x :: ms) = .ok s' ↔ ∃ s₁, r.Takes s x s₁ ∧ r.ofMembers s₁ ms = .ok s' := by
  obtain ⟨name, v⟩ := x
  rw [ofMembers]
  constructor
  · intro h
    cases hfind : r.members.find? (·.name = name) with
    | some m =>
      rw [hfind] at h
      cases hknown : m.known s with
      | true => cases (if_pos hknown).symm.trans h
      | false =>
        have h := (if_neg (ne_true_of_eq_false hknown)).symm.trans h
        obtain ⟨f, hread, h⟩ := outcome_bind_eq_ok_iff.1 h
        exact ⟨f s, .known hfind hknown hread, h⟩
    | none =>
      rw [hfind] at h
      cases hclosed : r.closed with
      | true => cases (if_pos hclosed).symm.trans h
      | false =>
        have h := (if_neg (ne_true_of_eq_false hclosed)).symm.trans h
        exact ⟨s, .unknown hfind hclosed, h⟩
  · rintro ⟨s₁, htakes, h⟩
    cases htakes with
    | known hfind hnew hread =>
      rw [hfind]
      refine (if_neg (ne_true_of_eq_false hnew)).trans ?_
      exact outcome_bind_eq_ok_iff.2 ⟨_, hread, h⟩
    | unknown hfind hopen =>
      rw [hfind]
      exact (if_neg (ne_true_of_eq_false hopen)).trans h

/-- After its name, a member of an object is read if it is not a known one again. -/
theorem readMembers_cons_eq_ok_iff {text₁ text₂ text₃ : List UInt8} {name : String}
    (hmore : moreMembers first text = .ok (true, text₁))
    (hname : Json.text text₁ = .ok (name, text₂)) (hcolon : colon text₂ = .ok ((), text₃)) :
    r.readMembers (fuel + 1) first s text = .ok (s', rest) ↔
      (∃ m f text₄, r.members.find? (·.name = name) = some m ∧ m.known s = false ∧
        m.fill.read text₃ = .ok (f, text₄) ∧
        r.readMembers fuel false (f s) text₄ = .ok (s', rest)) ∨
      ∃ text₄, r.members.find? (·.name = name) = none ∧ r.closed = false ∧
        skipValue text₃ = .ok ((), text₄) ∧
        r.readMembers fuel false s text₄ = .ok (s', rest) := by
  rw [readMembers, bind_eq hmore, if_pos rfl, bind_eq hname]
  cases r.members.find? (·.name = name) with
  | some m =>
    cases hknown : m.known s
    · simp [hknown, bind_eq hcolon, bind_eq_ok_iff]
    · simp [hknown, bind_eq_ok_iff, mismatch_eq_ok_iff]
  | none =>
    cases r.closed
    · simp only [Bool.false_eq_true, if_false, bind_eq hcolon, bind_eq_ok_iff, reduceCtorEq,
        false_and, exists_false, false_or, true_and]
      constructor
      · rintro ⟨_, mid, hskip, h⟩
        exact ⟨mid, hskip, h⟩
      · rintro ⟨mid, hskip, h⟩
        exact ⟨(), mid, hskip, h⟩
    · simp [bind_eq_ok_iff, mismatch_eq_ok_iff]

/-- What is read of the members of an object follows from their trees. -/
theorem readMembers_sound (hr : ∀ m ∈ r.members, m.fill.Sound)
    (hof : MembersOf depth first text ms text')
    (h : r.readMembers fuel first s text = .ok (s', rest)) :
    r.ofMembers s ms = .ok s' ∧ rest = text' := by
  induction hof generalizing fuel s with
  | nil hmore =>
    cases fuel with
    | zero => cases h
    | succ fuel =>
      rw [readMembers, bind_eq hmore] at h
      cases h
      exact ⟨rfl, rfl⟩
  | cons hmore hname hcolon hv hof ih =>
    cases fuel with
    | zero => cases h
    | succ fuel =>
      obtain ⟨m, f, text₄, hfind, hnew, hread, h⟩ | ⟨text₄, hfind, hopen, hskip, h⟩ :=
        (readMembers_cons_eq_ok_iff hmore hname hcolon).1 h
      · obtain ⟨htree, rfl⟩ := (hr m (List.mem_of_find?_eq_some hfind)).agree hv hread
        obtain ⟨hms, rfl⟩ := ih h
        exact ⟨ofMembers_cons_eq_ok_iff.2 ⟨_, .known hfind hnew htree, hms⟩, rfl⟩
      · cases hskip.symm.trans (skipValue_of_value hv)
        obtain ⟨hms, rfl⟩ := ih h
        exact ⟨ofMembers_cons_eq_ok_iff.2 ⟨_, .unknown hfind hopen, hms⟩, rfl⟩

/-- The members of the object that are known to the record are covered. -/
def CoversAll (r : Record σ α) (ms : List (String × Value)) : Prop :=
  ∀ x ∈ ms, ∀ m ∈ r.members, m.name = x.1 → m.fill.Covers x.2

/-- The members of an object are read if their trees are, and those that are known are covered. -/
theorem readMembers_covers (hof : MembersOf depth first text ms text')
    (hcovers : r.CoversAll ms) (hfuel : ms.length < fuel) (h : r.ofMembers s ms = .ok s') :
    r.readMembers fuel first s text = .ok (s', text') := by
  induction hof generalizing fuel s with
  | nil hmore =>
    obtain ⟨fuel, rfl⟩ := Nat.exists_eq_succ_of_ne_zero (Nat.ne_zero_of_lt hfuel)
    cases h
    rw [readMembers, bind_eq hmore]
    rfl
  | cons hmore hname hcolon hv hof ih =>
    obtain ⟨fuel, rfl⟩ := Nat.exists_eq_succ_of_ne_zero (Nat.ne_zero_of_lt hfuel)
    obtain ⟨hfirst, hothers⟩ := List.forall_mem_cons.1 hcovers
    obtain ⟨s₁, htakes, h⟩ := ofMembers_cons_eq_ok_iff.1 h
    have hrest := ih hothers (Nat.lt_of_succ_lt_succ hfuel) h
    refine (readMembers_cons_eq_ok_iff hmore hname hcolon).2 ?_
    cases htakes with
    | known hfind hnew hread =>
      have hmem := List.mem_of_find?_eq_some hfind
      have hm := List.find?_some hfind
      rw [decide_eq_true_iff] at hm
      exact .inl ⟨_, _, _, hfind, hnew, (hfirst _ hmem hm).read_eq hv hread, hrest⟩
    | unknown hfind hopen => exact .inr ⟨_, hfind, hopen, skipValue_of_value hv, hrest⟩

theorem moreItems_again (h : moreItems first text = .ok (false, rest)) (first' : Bool) :
    moreItems first' rest = .ok (false, rest) :=
  moreItems_of_token (token_of_head (by decide) (head_of_moreItems h)) first'

/-- What is read of the items of a list follows from their trees, if the list ends there. -/
theorem readItems_sound {members : List (Member σ)} {text₁ : List UInt8}
    (hr : ∀ m ∈ members, m.fill.Sound) (hof : ItemsOf depth first text vs text')
    (h : r.readItems count first s members text = .ok (s', text₁))
    (hclose : closeList text₁ = .ok ((), rest)) :
    (∀ count', r.ofItems count' s members vs = .ok s') ∧ rest = text'.drop 1 := by
  -- By the members that are still asked for: there may be fewer items than these, but not more.
  induction members generalizing count first s text vs with
  | nil =>
    cases h
    obtain ⟨mid, htoken, rfl⟩ := closeList_eq_ok_iff.1 hclose
    have hend := moreItems_of_token htoken first
    cases hof with
    | nil hmore =>
      cases hmore.symm.trans hend
      exact ⟨fun _ => rfl, rfl⟩
    | cons hmore => cases hmore.symm.trans hend
  | cons m members ih =>
    obtain ⟨hm, hothers⟩ := List.forall_mem_cons.1 hr
    cases hof with
    | nil hmore =>
      rw [readItems, bind_eq hmore, if_neg Bool.false_ne_true] at h
      obtain ⟨hoptional, h⟩ | ⟨-, h⟩ := ite_eq_ok_iff.1 h
      · obtain ⟨hvs, rfl⟩ := ih hothers (.nil (moreItems_again hmore first)) h
        exact ⟨fun count' => (if_pos hoptional).trans (hvs count'), rfl⟩
      · cases h
    | cons hmore hv hof =>
      rw [readItems, bind_eq hmore, if_pos rfl] at h
      obtain ⟨f, mid, hread, h⟩ := bind_eq_ok_iff.1 h
      obtain ⟨htree, rfl⟩ := hm.agree hv hread
      obtain ⟨hvs, rfl⟩ := ih hothers hof h
      exact ⟨fun count' => outcome_bind_eq_ok_iff.2 ⟨f, htree, hvs (count' + 1)⟩, rfl⟩

/-- A record is read from texts and from trees alike if its members are. -/
theorem decoder_sound (hr : ∀ m ∈ r.members, m.fill.Sound) : r.decoder.Sound := by
  refine ⟨fun {depth text rest rest' v a} hv h => ?_⟩
  obtain ⟨fuel, b, text', htoken, hstands⟩ := stands_of_value hv
  have hread : r.decoder.read text = _ := bind_eq htoken
  rw [hread] at h
  generalize Start.of b = start at hstands h
  cases hstands with
  | list hdepth hitems =>
    obtain ⟨mid, hof, hend, rfl⟩ := itemsOf_of_within hitems
    dsimp only at h
    rw [bind_eq (skip_eq text')] at h
    obtain ⟨s, text₁, hs, h⟩ := bind_eq_ok_iff.1 h
    obtain ⟨a', text₂, hsettle, h⟩ := bind_eq_ok_iff.1 h
    obtain ⟨hfinish, rfl⟩ := settle_eq_ok_iff.1 hsettle
    obtain ⟨_, text₃, hclose, h⟩ := bind_eq_ok_iff.1 h
    obtain ⟨rfl, rfl⟩ := pure_eq_ok_iff.1 h
    obtain ⟨hitems, rfl⟩ := readItems_sound hr hof hs hclose
    exact ⟨outcome_bind_eq_ok_iff.2 ⟨s, hitems 0, hfinish⟩, rfl⟩
  | object hdepth hmembers =>
    obtain ⟨mid, hof, hend, rfl⟩ := membersOf_of_within hmembers
    dsimp only at h
    rw [bind_eq (skip_eq text'), bind_eq (bound_eq _)] at h
    obtain ⟨s, text₁, hs, h⟩ := bind_eq_ok_iff.1 h
    obtain ⟨a', text₂, hsettle, h⟩ := bind_eq_ok_iff.1 h
    obtain ⟨hcomplete, rfl⟩ := settle_eq_ok_iff.1 hsettle
    obtain ⟨_, text₃, hclose, h⟩ := bind_eq_ok_iff.1 h
    obtain ⟨rfl, rfl⟩ := pure_eq_ok_iff.1 h
    obtain ⟨hms, rfl⟩ := readMembers_sound hr hof hs
    obtain ⟨mid', hmid, rfl⟩ := closeObject_eq_ok_iff.1 hclose
    cases hmid.symm.trans (token_of_head (by decide) hend)
    exact ⟨outcome_bind_eq_ok_iff.2 ⟨s, hms, hcomplete⟩, rfl⟩
  | _ => exact (refuse_eq_ok_iff.1 h).elim

/-- An object is read as a record from all its texts if the members that are known are covered. -/
theorem decoder_covers (hcovers : r.CoversAll ms) : r.decoder.Covers (.object ms) := by
  refine ⟨fun {depth text rest a} hv h => ?_⟩
  obtain ⟨b, text', mid, htoken, hstart, hof, hlength, hclose⟩ := object_of_value hv
  obtain ⟨s, hms, hcomplete⟩ := outcome_bind_eq_ok_iff.1 h
  have hread : r.decoder.read text = _ := bind_eq htoken
  rw [hread, hstart]
  refine (bind_eq (skip_eq text')).trans ((bind_eq (bound_eq _)).trans ?_)
  refine (bind_eq (readMembers_covers hof hcovers (Nat.lt_succ_of_lt hlength) hms)).trans ?_
  refine (bind_eq (settle_eq_ok_iff.2 ⟨hcomplete, rfl⟩)).trans ?_
  exact (bind_eq hclose).trans rfl

end Record

end GridRobot.Json
