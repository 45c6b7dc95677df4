import GridRobot.Json.Message
import GridRobot.Proofs.Json.Decoder

/-!
# Messages and their trees

A message is read from the text of an object just if, in the tree, one member
names its tag and the others are its payload (`Tagged`, `untagged`,
`message_eq_ok_iff`). Where the tag stands makes no difference: what comes before
it is kept until it is known what it should be.
-/

namespace GridRobot.Json

variable {text text' text₁ text₂ text₃ text₄ rest : List UInt8} {ms others : List (String × Value)}
  {tag : Tag} {tag? : Option Tag} {depth fuel : Nat} {first : Bool} {name : String} {v : Value}
  {m : Message}

/-- The members of an object apart from its tag. -/
def untagged (ms : List (String × Value)) : List (String × Value) := ms.filter (·.1 ≠ "type")

/-- The object has one member for its tag, which is the name of `tag`. -/
def Tagged (tag : Tag) (ms : List (String × Value)) : Prop :=
  ∃ name, ms.filter (·.1 = "type") = [("type", .text name)] ∧ tagChoices.find name = .ok tag

/-- An object has one tag at most. -/
theorem Tagged.unique {tag' : Tag} (h : Tagged tag ms) (h' : Tagged tag' ms) : tag = tag' := by
  obtain ⟨name, hname, hfind⟩ := h
  obtain ⟨name', hname', hfind'⟩ := h'
  cases hname.symm.trans hname'
  cases hfind.symm.trans hfind'
  rfl

/-- After its name, a member of a message is either its only tag or kept. -/
theorem taggedMembers_cons_eq_ok_iff (hmore : moreMembers first text = .ok (true, text₁))
    (hname : Json.text text₁ = .ok (name, text₂)) (hcolon : colon text₂ = .ok ((), text₃))
    (hv : value depth text₃ = .ok (v, text₄)) :
    taggedMembers (fuel + 1) first tag? text = .ok ((tag, others), rest) ↔
      (name = "type" ∧ tag? = none ∧ ∃ s t, v = .text s ∧ tagChoices.find s = .ok t ∧
        taggedMembers fuel false (some t) text₄ = .ok ((tag, others), rest)) ∨
      (name ≠ "type" ∧ value nesting text₃ = .ok (v, text₄) ∧ ∃ others',
        taggedMembers fuel false tag? text₄ = .ok ((tag, others'), rest) ∧
          others = (name, v) :: others') := by
  by_cases heq : name = "type"
  · cases tag? with
    | some t =>
      -- A second tag is refused before its value is looked at.
      rw [taggedMembers, bind_eq hmore, if_pos rfl, bind_eq hname, if_pos heq]
      simp [heq, mismatch_eq_ok_iff, bind_eq_ok_iff]
    | none =>
      rw [taggedMembers, bind_eq hmore, if_pos rfl, bind_eq hname, if_pos heq]
      refine (Eq.congr_left (bind_eq hcolon)).trans ?_
      simp only [bind_eq_ok_iff, choiceName_eq_ok_iff hv, heq, ne_eq, true_and, not_true,
        false_and, or_false]
      constructor
      · rintro ⟨t, mid, ⟨⟨s, hs, hfind⟩, rfl⟩, h⟩
        exact ⟨s, t, hs, hfind, h⟩
      · rintro ⟨s, t, hs, hfind, h⟩
        exact ⟨t, text₄, ⟨⟨s, hs, hfind⟩, rfl⟩, h⟩
  · have hkeep : taggedMembers (fuel + 1) first tag? text =
        (value nesting >>= fun v => taggedMembers fuel false tag? >>= fun r =>
          pure (r.1, (name, v) :: r.2)) text₃ := by
      cases tag? <;>
      · rw [taggedMembers, bind_eq hmore, if_pos rfl, bind_eq hname, if_neg heq]
        exact bind_eq hcolon
    rw [hkeep]
    simp only [bind_eq_ok_iff, heq, ne_eq, false_and, not_false_iff, true_and, false_or]
    constructor
    · rintro ⟨v', mid, hv', ⟨tag', others'⟩, mid', h, hreturn⟩
      obtain ⟨rfl, rfl⟩ := value_unique hv hv'
      cases hreturn
      exact ⟨hv', others', h, rfl⟩
    · rintro ⟨hv', others', h, rfl⟩
      exact ⟨v, text₄, hv', (tag, others'), rest, h, rfl⟩

theorem taggedMembers_nil_eq_ok_iff (hmore : moreMembers first text = .ok (false, text')) :
    taggedMembers (fuel + 1) first tag? text = .ok ((tag, others), rest) ↔
      tag? = some tag ∧ others = [] ∧ rest = text' := by
  cases tag? with
  | none =>
    rw [taggedMembers, bind_eq hmore]
    exact iff_of_false nofun nofun
  | some t =>
    rw [taggedMembers, bind_eq hmore, Option.some.injEq, eq_comm (a := others),
      eq_comm (a := rest)]
    refine pure_eq_ok_iff.trans ?_
    rw [Prod.mk.injEq, and_assoc]

/-- The tag of the members that are left is known before, or is among them. -/
def TagOf (tag? : Option Tag) (tag : Tag) (ms : List (String × Value)) : Prop :=
  match tag? with
  | some t => t = tag ∧ ∀ x ∈ ms, x.1 ≠ "type"
  | none => Tagged tag ms

theorem tagOf_cons_of_ne (hname : name ≠ "type") :
    TagOf tag? tag ((name, v) :: ms) ↔ TagOf tag? tag ms := by
  cases tag? with
  | some t => simp [TagOf, hname]
  | none => simp [TagOf, Tagged, hname]

theorem tagOf_cons_type :
    TagOf none tag (("type", v) :: ms) ↔
      (∃ s, v = .text s ∧ tagChoices.find s = .ok tag) ∧ TagOf (some tag) tag ms := by
  have hnone : ms.filter (·.1 = "type") = [] ↔ ∀ x ∈ ms, x.1 ≠ "type" := by
    simp [List.filter_eq_nil_iff]
  simp only [TagOf, Tagged, true_and, ← hnone]
  rw [List.filter_cons_of_pos (by simp)]
  constructor
  · rintro ⟨name, h, hfind⟩
    obtain ⟨h, hms⟩ := List.cons.inj h
    exact ⟨⟨name, (Prod.mk.inj h).2, hfind⟩, hms⟩
  · rintro ⟨⟨s, rfl, hfind⟩, hms⟩
    exact ⟨s, by rw [hms], hfind⟩

theorem untagged_cons_of_ne (hname : name ≠ "type") :
    untagged ((name, v) :: ms) = (name, v) :: untagged ms :=
  List.filter_cons_of_pos (decide_eq_true hname)

theorem untagged_cons_type : untagged (("type", v) :: ms) = untagged ms :=
  List.filter_cons_of_neg fun h => of_decide_eq_true h rfl

/-- The tag stands before a payload. -/
theorem tagged_cons {s : String} (hfind : tagChoices.find s = .ok tag)
    (hms : ∀ x ∈ ms, x.1 ≠ "type") :
    Tagged tag (("type", .text s) :: ms) ∧ untagged (("type", .text s) :: ms) = ms := by
  refine ⟨tagOf_cons_type.2 ⟨⟨s, rfl, hfind⟩, rfl, hms⟩, ?_⟩
  rw [untagged_cons_type]
  exact List.filter_eq_self.2 fun x hx => decide_eq_true (hms x hx)

/-- What is read of the members of a message follows from their trees. -/
theorem taggedMembers_sound (hof : MembersOf depth first text ms text')
    (h : taggedMembers fuel first tag? text = .ok ((tag, others), rest)) :
    TagOf tag? tag ms ∧ others = untagged ms ∧ rest = text' := by
  induction hof generalizing fuel tag? others with
  | nil hmore =>
    cases fuel with
    | zero => cases h
    | succ fuel =>
      obtain ⟨rfl, rfl, rfl⟩ := (taggedMembers_nil_eq_ok_iff hmore).1 h
      exact ⟨⟨rfl, List.forall_mem_nil _⟩, rfl, rfl⟩
  | cons hmore hname hcolon hv hof ih =>
    cases fuel with
    | zero => cases h
    | succ fuel =>
      obtain ⟨rfl, rfl, s, t, rfl, hfind, hread⟩ | ⟨hne, -, others', hread, rfl⟩ :=
        (taggedMembers_cons_eq_ok_iff hmore hname hcolon hv).1 h
      · obtain ⟨⟨rfl, hms⟩, rfl, rfl⟩ := ih hread
        exact ⟨tagOf_cons_type.2 ⟨⟨s, rfl, hfind⟩, rfl, hms⟩, untagged_cons_type.symm, rfl⟩
      · obtain ⟨htag, rfl, rfl⟩ := ih hread
        exact ⟨(tagOf_cons_of_ne hne).2 htag, (untagged_cons_of_ne hne).symm, rfl⟩

/-- The members of a message are read if their trees are. -/
theorem taggedMembers_covers (hof : MembersOf nesting first text ms text')
    (hfuel : ms.length < fuel) (h : TagOf tag? tag ms) :
    taggedMembers fuel first tag? text = .ok ((tag, untagged ms), text') := by
  induction hof generalizing fuel tag? with
  | nil hmore =>
    obtain ⟨fuel, rfl⟩ := Nat.exists_eq_succ_of_ne_zero (Nat.ne_zero_of_lt hfuel)
    refine (taggedMembers_nil_eq_ok_iff hmore).2 ⟨?_, rfl, rfl⟩
    -- Where no member is left, the tag has been found before.
    cases tag? with
    | some t => rw [h.1]
    | none =>
      obtain ⟨name, h, -⟩ := h
      cases h
  | @cons _ _ _ _ _ _ _ name v ms hmore hname hcolon hv hof ih =>
    obtain ⟨fuel, rfl⟩ := Nat.exists_eq_succ_of_ne_zero (Nat.ne_zero_of_lt hfuel)
    have hfuel' := Nat.lt_of_succ_lt_succ hfuel
    refine (taggedMembers_cons_eq_ok_iff hmore hname hcolon hv).2 ?_
    by_cases hne : name = "type"
    · subst hne
      cases tag? with
      | some t => exact absurd rfl (h.2 _ List.mem_cons_self)
      | none =>
        obtain ⟨⟨s, hs, hfind⟩, htag⟩ := tagOf_cons_type.1 h
        rw [untagged_cons_type]
        exact .inl ⟨rfl, rfl, s, tag, hs, hfind, ih hfuel' htag⟩
    · rw [untagged_cons_of_ne hne]
      exact .inr ⟨hne, hv, _, ih hfuel' ((tagOf_cons_of_ne hne).1 h), rfl⟩

/-- A message that is read from an object is the one of its tag and its other members. -/
theorem message_sound (hv : value depth text = .ok (.object ms, rest))
    (h : message text = .ok (m, text')) :
    ∃ tag, Tagged tag ms ∧ tag.message (.object (untagged ms)) = .ok m := by
  obtain ⟨b, text₁, mid, htoken, hstart, hof, hlength, hclose⟩ := object_of_value hv
  rw [message, bind_eq htoken, hstart] at h
  dsimp only at h
  rw [bind_eq (skip_eq _), bind_eq (bound_eq _)] at h
  obtain ⟨⟨tag, others⟩, text₂, hread, h⟩ := bind_eq_ok_iff.1 h
  obtain ⟨_, text₃, -, h⟩ := bind_eq_ok_iff.1 h
  obtain ⟨hm, rfl⟩ := settle_eq_ok_iff.1 h
  obtain ⟨htag, rfl, rfl⟩ := taggedMembers_sound hof hread
  exact ⟨tag, htag, hm⟩

/-- An object with a tag is read as the message of the tag and the other members. -/
theorem message_covers (hv : value (nesting + 1) text = .ok (.object ms, rest))
    (htag : Tagged tag ms) (hm : tag.message (.object (untagged ms)) = .ok m) :
    message text = .ok (m, rest) := by
  obtain ⟨b, text₁, mid, htoken, hstart, hof, hlength, hclose⟩ := object_of_value hv
  have htag' : TagOf none tag ms := htag
  rw [message, bind_eq htoken, hstart]
  refine (bind_eq (skip_eq _)).trans ((bind_eq (bound_eq _)).trans ?_)
  refine (bind_eq (taggedMembers_covers hof (Nat.lt_succ_of_lt hlength) htag')).trans ?_
  refine (bind_eq hclose).trans ?_
  rw [hm, settle_ok]

end GridRobot.Json
