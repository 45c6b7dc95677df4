import GridRobot.Proofs.Json.Skipping
import GridRobot.Proofs.Json.Value

/-!
# The tree of a text

A text that is read as a value has one tree (`value_unique`). The fuel and the
levels that a reader is given do not matter as long as they are enough
(`within_suffices`): fuel for twice the bytes of a value always is, and so are
as many levels as it has bytes. Hence a value that is kept can also be passed
over (`skipValue_of_value`), and the items of a list and the members of an object
are values of the text that follow one another (`ItemsOf`, `MembersOf`,
`object_of_value`).
-/

namespace GridRobot.Json

open Reader (Takes)

variable {α : Type} {text rest : List UInt8} {v : Value} {vs : List Value}
  {ms : List (String × Value)} {l : Leaves} {fuel depth : Nat} {first more : Bool}

/-! ### Between values -/

theorem moreItems_takes (first : Bool) : Takes 0 (moreItems first) := by
  refine token_takes.bind_left fun b => .ite (.pure _) (.ite (.pure _) (.ite ?_ (.throw _)))
  exact skip_takes.bind_left fun _ => token_takes.bind_left fun _ => .ite (.throw _) (.pure _)

theorem moreMembers_takes (first : Bool) : Takes 0 (moreMembers first) := by
  refine token_takes.bind_left fun b => .ite (.pure _) (.ite (.ite (.pure _) (.throw _)) ?_)
  refine .ite (skip_takes.bind_left fun _ => token_takes.bind_left fun _ => ?_) (.throw _)
  exact .ite (.pure _) (.throw _)

theorem colon_takes : Takes 0 colon := token_takes.bind_left fun _ => .ite skip_takes (.throw _)

/-- A list ends with a bracket. -/
theorem head_of_moreItems (h : moreItems first text = .ok (false, rest)) :
    rest.head? = some (byte ']') := by
  simp only [moreItems, bind_eq_ok_iff, ite_eq_ok_iff, pure_eq_ok_iff, throw_eq_ok_iff,
    Bool.true_eq_false, false_and, and_false, or_false, exists_const] at h
  obtain ⟨b, mid, htoken, rfl, -, rfl⟩ := h
  exact (token_eq_ok_iff.1 htoken).2

/-- An object ends with a brace. -/
theorem head_of_moreMembers (h : moreMembers first text = .ok (false, rest)) :
    rest.head? = some (byte '\x7d') := by
  simp only [moreMembers, bind_eq_ok_iff, ite_eq_ok_iff, pure_eq_ok_iff, throw_eq_ok_iff,
    Bool.true_eq_false, false_and, and_false, or_false, exists_const] at h
  obtain ⟨b, mid, htoken, rfl, -, rfl⟩ := h
  exact (token_eq_ok_iff.1 htoken).2

theorem moreItems_of_token (h : token text = .ok (byte ']', rest)) (first : Bool) :
    moreItems first text = .ok (false, rest) := by
  rw [moreItems, bind_eq h]
  rfl

theorem moreMembers_of_token (h : token text = .ok (byte '\x7d', rest)) (first : Bool) :
    moreMembers first text = .ok (false, rest) := by
  rw [moreMembers, bind_eq h]
  rfl

/-- Before the first member there is nothing but blanks. -/
theorem token_of_moreMembers (h : moreMembers true text = .ok (more, rest)) :
    token text = .ok (if more then byte '"' else byte '\x7d', rest) := by
  simp only [moreMembers, bind_eq_ok_iff, ite_eq_ok_iff, pure_eq_ok_iff, throw_eq_ok_iff,
    true_and, not_true, false_and, or_false, and_false] at h
  obtain ⟨b, mid, htoken, ⟨rfl, rfl, rfl⟩ | ⟨-, rfl, rfl, rfl⟩⟩ := h
  · exact htoken
  · exact htoken

theorem closeList_eq_ok_iff : closeList text = .ok ((), rest) ↔
    ∃ text', token text = .ok (byte ']', text') ∧ text'.drop 1 = rest := by
  simp only [closeList, bind_eq_ok_iff, ite_eq_ok_iff, skip_eq_ok_iff, throw_eq_ok_iff, and_false,
    or_false]
  constructor
  · rintro ⟨b, text', htoken, rfl, hrest⟩
    exact ⟨text', htoken, hrest⟩
  · rintro ⟨text', htoken, hrest⟩
    exact ⟨_, text', htoken, rfl, hrest⟩

theorem closeObject_eq_ok_iff : closeObject text = .ok ((), rest) ↔
    ∃ text', token text = .ok (byte '\x7d', text') ∧ text'.drop 1 = rest := by
  simp only [closeObject, bind_eq_ok_iff, ite_eq_ok_iff, skip_eq_ok_iff, throw_eq_ok_iff,
    and_false, or_false]
  constructor
  · rintro ⟨b, text', htoken, rfl, hrest⟩
    exact ⟨text', htoken, hrest⟩
  · rintro ⟨text', htoken, hrest⟩
    exact ⟨_, text', htoken, rfl, hrest⟩

/-! ### Values by their first byte -/

/-- How a value stands at the front of a text that begins with it, by its first byte. -/
inductive Stands (l : Leaves) (fuel depth : Nat) (text rest : List UInt8) : Start → Value → Prop
  | null (h : word [byte 'n', byte 'u', byte 'l', byte 'l'] text = .ok ((), rest)) :
    Stands l fuel depth text rest .null .null
  | yes (h : word [byte 't', byte 'r', byte 'u', byte 'e'] text = .ok ((), rest)) :
    Stands l fuel depth text rest .yes (.boolean true)
  | no (h : word [byte 'f', byte 'a', byte 'l', byte 's', byte 'e'] text = .ok ((), rest)) :
    Stands l fuel depth text rest .no (.boolean false)
  | minus {n : Number} (h : l.number text = .ok (n, rest)) :
    Stands l fuel depth text rest .minus (.number n)
  | digit {n : Number} (h : l.number text = .ok (n, rest)) :
    Stands l fuel depth text rest .digit (.number n)
  | quote {s : String} (h : l.text text = .ok (s, rest)) :
    Stands l fuel depth text rest .quote (.text s)
  | list {vs : List Value} (hdepth : 1 < depth)
    (h : itemsWithin l fuel (depth - 1) true (text.drop 1) = .ok (vs, rest)) :
    Stands l fuel depth text rest .list (.list vs)
  | object {ms : List (String × Value)} (hdepth : 1 < depth)
    (h : membersWithin l fuel (depth - 1) true (text.drop 1) = .ok (ms, rest)) :
    Stands l fuel depth text rest .object (.object ms)

theorem valueWithin_eq_ok_iff : valueWithin l (fuel + 1) depth text = .ok (v, rest) ↔
    ∃ b text', token text = .ok (b, text') ∧ Stands l fuel depth text' rest (Start.of b) v := by
  rw [valueWithin, bind_eq_ok_iff]
  refine exists_congr fun b => exists_congr fun text' => and_congr_right fun _ => ?_
  cases Start.of b <;>
  simp only [bind_eq_ok_iff, pure_eq_ok_iff, skip_eq_ok_iff, ite_eq_ok_iff, throw_eq_ok_iff,
    false_and, exists_false, and_false, false_or, Nat.not_le]
  all_goals grind [intro Stands, cases Stands]

theorem itemsWithin_eq_ok_iff : itemsWithin l (fuel + 1) depth first text = .ok (vs, rest) ↔
    (∃ text', moreItems first text = .ok (false, text') ∧ vs = [] ∧ rest = text'.drop 1) ∨
      ∃ text' v text'' vs', moreItems first text = .ok (true, text') ∧
        valueWithin l fuel depth text' = .ok (v, text'') ∧
        itemsWithin l fuel depth false text'' = .ok (vs', rest) ∧ vs = v :: vs' := by
  rw [itemsWithin]
  simp only [bind_eq_ok_iff, pure_eq_ok_iff, skip_eq_ok_iff, ite_eq_ok_iff]
  grind

theorem membersWithin_eq_ok_iff : membersWithin l (fuel + 1) depth first text = .ok (ms, rest) ↔
    (∃ text', moreMembers first text = .ok (false, text') ∧ ms = [] ∧ rest = text'.drop 1) ∨
      ∃ text₁ name text₂ text₃ v text₄ ms', moreMembers first text = .ok (true, text₁) ∧
        l.text text₁ = .ok (name, text₂) ∧ colon text₂ = .ok ((), text₃) ∧
        valueWithin l fuel depth text₃ = .ok (v, text₄) ∧
        membersWithin l fuel depth false text₄ = .ok (ms', rest) ∧ ms = (name, v) :: ms' := by
  rw [membersWithin]
  simp only [bind_eq_ok_iff, pure_eq_ok_iff, skip_eq_ok_iff, ite_eq_ok_iff]
  grind

/-! ### How much values take -/

theorem drop_one_of_head {b : UInt8} (h : text.head? = some b) :
    (text.drop 1).length + 1 = text.length := by
  obtain ⟨more, rfl⟩ := List.head?_eq_some_iff.1 h
  rfl

/-- A value that begins with a byte takes it if its items and its members take theirs. -/
theorem Stands.length_lt {start : Start} (h : Stands .kept fuel depth text rest start v)
    (hitems : ∀ depth first, Takes 1 (itemsWithin .kept fuel depth first))
    (hmembers : ∀ depth first {text ms rest},
      membersWithin .kept fuel depth first text = .ok (ms, rest) →
        ms.length + rest.length < text.length)
    (hdrop : (text.drop 1).length + 1 = text.length) : rest.length < text.length := by
  cases h with
  | null h => exact Nat.lt_of_add_right_lt ((word_takes _).length_le h)
  | yes h => exact Nat.lt_of_add_right_lt ((word_takes _).length_le h)
  | no h => exact Nat.lt_of_add_right_lt ((word_takes _).length_le h)
  | minus h => exact number_takes.length_le h
  | digit h => exact number_takes.length_le h
  | quote h => exact text_takes.length_le h
  | list hdepth h =>
    have hle := (hitems _ true).length_le h
    omega
  | object hdepth h =>
    have hlt := hmembers _ true h
    omega

/-- A value takes at least a byte, and so do the end of a list or of an object and each of its
    parts. -/
theorem within_takes (fuel : Nat) :
    (∀ depth, Takes 1 (valueWithin .kept fuel depth)) ∧
      (∀ depth first, Takes 1 (itemsWithin .kept fuel depth first)) ∧
      ∀ depth first {text ms rest}, membersWithin .kept fuel depth first text = .ok (ms, rest) →
        ms.length + rest.length < text.length := by
  -- One fuel serves all three readers, so they go through the induction together.
  induction fuel with
  | zero => exact ⟨fun depth => .throw _, fun depth first => .throw _, nofun⟩
  | succ fuel ih =>
    obtain ⟨ihvalue, ihitems, ihmembers⟩ := ih
    refine ⟨fun depth => ⟨fun {text rest v} h => ?_⟩,
      fun depth first => ⟨fun {text rest vs} h => ?_⟩, fun depth first {text ms rest} h => ?_⟩
    · obtain ⟨b, text', htoken, hstands⟩ := valueWithin_eq_ok_iff.1 h
      have hdrop := drop_one_of_head (token_eq_ok_iff.1 htoken).2
      exact Nat.lt_of_lt_of_le (hstands.length_lt ihitems ihmembers hdrop)
        (token_takes.length_le htoken)
    · obtain ⟨text', hmore, -, rfl⟩ | ⟨text', v, text'', vs', hmore, hv, hvs, -⟩ :=
        itemsWithin_eq_ok_iff.1 h
      · have hdrop := drop_one_of_head (head_of_moreItems hmore)
        have hmore := (moreItems_takes first).length_le hmore
        omega
      · have hmore := (moreItems_takes first).length_le hmore
        have hv := (ihvalue depth).length_le hv
        have hvs := (ihitems depth false).length_le hvs
        omega
    · obtain ⟨text', hmore, rfl, rfl⟩ | ⟨text₁, name, text₂, text₃, v, text₄, ms', hmore, hname,
        hcolon, hv, hms, rfl⟩ := membersWithin_eq_ok_iff.1 h
      · have hdrop := drop_one_of_head (head_of_moreMembers hmore)
        have hmore := (moreMembers_takes first).length_le hmore
        rw [List.length_nil]
        omega
      · have hmore := (moreMembers_takes first).length_le hmore
        have hname := text_takes.length_le hname
        have hcolon := colon_takes.length_le hcolon
        have hv := (ihvalue depth).length_le hv
        have hms := ihmembers depth false hms
        rw [List.length_cons]
        omega

/-! ### Fuel and levels -/

/-- Another reader reads what is read as `a`, up to the same place; as the same if `same`. -/
def Reader.Also (same : Prop) (read : Reader α) (text : List UInt8) (a : α) (rest : List UInt8) :
    Prop :=
  ∃ a', read text = .ok (a', rest) ∧ (same → a' = a)

/-- Where numbers and strings are kept, the leaves read them too. -/
structure Leaves.Follow (same : Prop) (l : Leaves) : Prop where
  number {text rest : List UInt8} {n : Number} (h : Json.number text = .ok (n, rest)) :
    l.number.Also same text n rest
  text {text rest : List UInt8} {s : String} (h : Json.text text = .ok (s, rest)) :
    l.text.Also same text s rest

theorem Leaves.kept_follow : Leaves.kept.Follow True where
  number h := ⟨_, h, fun _ => rfl⟩
  text h := ⟨_, h, fun _ => rfl⟩

theorem Leaves.skipped_follow : Leaves.skipped.Follow False where
  number h := ⟨_, (bind_eq (skipNumber_of_number h)).trans rfl, False.elim⟩
  text h := ⟨_, (bind_eq (skipText_of_text h)).trans rfl, False.elim⟩

variable {same : Prop}

/-- Where the reader `kept` takes some bytes within `depth` levels, the reader `read` takes them
    too: fuel for twice as many bytes is enough for it, less what is spared, and so are the levels
    that `kept` was allowed, or as many as there are bytes. -/
def Suffices (same : Prop) (spare depth : Nat) (kept : Reader α) (read : Nat → Nat → Reader α) :
    Prop :=
  ∀ {text rest a}, kept text = .ok (a, rest) → ∀ fuel depth',
    2 * (text.length - rest.length) ≤ fuel + spare →
    depth ≤ depth' ∨ text.length - rest.length ≤ depth' → (read fuel depth').Also same text a rest

/-- A value that begins with a byte is read again if its items and its members are. -/
theorem Stands.also {start : Start} (fuel' depth' : Nat) (hl : l.Follow same)
    (h : Stands .kept fuel depth text rest start v)
    (hitems : ∀ depth, Suffices same 1 depth (itemsWithin .kept fuel depth true)
      fun fuel' depth' => itemsWithin l fuel' depth' true)
    (hmembers : ∀ depth, Suffices same 1 depth (membersWithin .kept fuel depth true)
      fun fuel' depth' => membersWithin l fuel' depth' true)
    (hdrop : (text.drop 1).length + 1 = text.length)
    (hfuel : 2 * (text.length - rest.length) ≤ fuel' + 1)
    (hdepth : depth ≤ depth' ∨ text.length - rest.length ≤ depth') :
    ∃ v', Stands l fuel' depth' text rest start v' ∧ (same → v' = v) := by
  cases h with
  | null h => exact ⟨_, .null h, fun _ => rfl⟩
  | yes h => exact ⟨_, .yes h, fun _ => rfl⟩
  | no h => exact ⟨_, .no h, fun _ => rfl⟩
  | minus h =>
    obtain ⟨n, hn, heq⟩ := hl.number h
    exact ⟨_, .minus hn, fun hsame => congrArg Value.number (heq hsame)⟩
  | digit h =>
    obtain ⟨n, hn, heq⟩ := hl.number h
    exact ⟨_, .digit hn, fun hsame => congrArg Value.number (heq hsame)⟩
  | quote h =>
    obtain ⟨s, hs, heq⟩ := hl.text h
    exact ⟨_, .quote hs, fun hsame => congrArg Value.text (heq hsame)⟩
  | list hdepth₁ h =>
    have hlt := ((within_takes fuel).2.1 _ true).length_le h
    obtain ⟨vs, hvs, heq⟩ := hitems _ h fuel' (depth' - 1) (by omega) (by omega)
    exact ⟨_, .list (by omega) hvs, fun hsame => congrArg Value.list (heq hsame)⟩
  | object hdepth₁ h =>
    have hlt := (within_takes fuel).2.2 _ true h
    obtain ⟨ms, hms, heq⟩ := hmembers _ h fuel' (depth' - 1) (by omega) (by omega)
    exact ⟨_, .object (by omega) hms, fun hsame => congrArg Value.object (heq hsame)⟩

/-- Values, items and members that are kept are read again by any readers of leaves that follow,
    with fuel and levels that suffice. -/
theorem within_suffices (hl : l.Follow same) (fuel : Nat) :
    (∀ depth, Suffices same 0 depth (valueWithin .kept fuel depth) (valueWithin l)) ∧
      (∀ depth first, Suffices same 1 depth (itemsWithin .kept fuel depth first)
        fun fuel' depth' => itemsWithin l fuel' depth' first) ∧
      ∀ depth first, Suffices same 1 depth (membersWithin .kept fuel depth first)
        fun fuel' depth' => membersWithin l fuel' depth' first := by
  -- The induction is on the fuel of the reader that keeps; that of the other one may be any that
  -- suffices for the bytes, and what is taken before and behind a part leaves enough for it.
  induction fuel with
  | zero => exact ⟨fun depth => nofun, fun depth first => nofun, fun depth first => nofun⟩
  | succ fuel ih =>
    obtain ⟨ihvalue, ihitems, ihmembers⟩ := ih
    obtain ⟨hvalue, hitems, hmembers⟩ := within_takes fuel
    refine ⟨?_, ?_, ?_⟩
    · intro depth text rest v h fuel' depth' hfuel hdepth
      obtain ⟨b, text', htoken, hstands⟩ := valueWithin_eq_ok_iff.1 h
      have htext := token_takes.length_le htoken
      have hdrop := drop_one_of_head (token_eq_ok_iff.1 htoken).2
      have hlt := hstands.length_lt hitems hmembers hdrop
      obtain ⟨fuel', rfl⟩ : ∃ k, fuel' = k + 1 := Nat.exists_eq_succ_of_ne_zero (by omega)
      obtain ⟨v', hv', heq⟩ := hstands.also fuel' depth' hl (fun depth => ihitems depth true)
        (fun depth => ihmembers depth true) hdrop (by omega) (by omega)
      exact ⟨v', valueWithin_eq_ok_iff.2 ⟨b, text', htoken, hv'⟩, heq⟩
    · intro depth first text rest vs h fuel' depth' hfuel hdepth
      have hlt := ((within_takes (fuel + 1)).2.1 depth first).length_le h
      obtain ⟨fuel', rfl⟩ : ∃ k, fuel' = k + 1 := Nat.exists_eq_succ_of_ne_zero (by omega)
      obtain ⟨text', hmore, rfl, rfl⟩ | ⟨text', v, text'', vs', hmore, hv, hvs, rfl⟩ :=
        itemsWithin_eq_ok_iff.1 h
      · exact ⟨[], itemsWithin_eq_ok_iff.2 (.inl ⟨text', hmore, rfl, rfl⟩), fun _ => rfl⟩
      · have hmorelt := (moreItems_takes first).length_le hmore
        have hvlt := (hvalue depth).length_le hv
        have hvslt := (hitems depth false).length_le hvs
        obtain ⟨v', hv', heqv⟩ := ihvalue depth hv fuel' depth' (by omega) (by omega)
        obtain ⟨vs'', hvs'', heqvs⟩ := ihitems depth false hvs fuel' depth' (by omega) (by omega)
        refine ⟨v' :: vs'', itemsWithin_eq_ok_iff.2 (.inr ⟨text', v', text'', vs'', hmore, hv',
          hvs'', rfl⟩), fun hsame => ?_⟩
        rw [heqv hsame, heqvs hsame]
    · intro depth first text rest ms h fuel' depth' hfuel hdepth
      have hlt := (within_takes (fuel + 1)).2.2 depth first h
      obtain ⟨fuel', rfl⟩ : ∃ k, fuel' = k + 1 := Nat.exists_eq_succ_of_ne_zero (by omega)
      obtain ⟨text', hmore, rfl, rfl⟩ | ⟨text₁, name, text₂, text₃, v, text₄, ms', hmore, hname,
        hcolon, hv, hms, rfl⟩ := membersWithin_eq_ok_iff.1 h
      · exact ⟨[], membersWithin_eq_ok_iff.2 (.inl ⟨text', hmore, rfl, rfl⟩), fun _ => rfl⟩
      · have hmorelt := (moreMembers_takes first).length_le hmore
        have hnamelt := text_takes.length_le hname
        have hcolonlt := colon_takes.length_le hcolon
        have hvlt := (hvalue depth).length_le hv
        have hmslt := hmembers depth false hms
        obtain ⟨name', hname', heqname⟩ := hl.text hname
        obtain ⟨v', hv', heqv⟩ := ihvalue depth hv fuel' depth' (by omega) (by omega)
        obtain ⟨ms'', hms'', heqms⟩ := ihmembers depth false hms fuel' depth' (by omega) (by omega)
        refine ⟨(name', v') :: ms'', membersWithin_eq_ok_iff.2 (.inr ⟨text₁, name', text₂, text₃, v',
          text₄, ms'', hmore, hname', hcolon, hv', hms'', rfl⟩), fun hsame => ?_⟩
        rw [heqname hsame, heqv hsame, heqms hsame]

/-! ### Whole values -/

variable {depth' : Nat} {text' rest' : List UInt8} {v' : Value}

theorem value_eq (depth : Nat) (text : List UInt8) :
    value depth text = valueWithin .kept (2 * (text.length + 1)) depth text :=
  bind_eq (bound_eq text)

/-- The fuel for a value is enough whenever any is. -/
theorem value_of_within (h : valueWithin .kept fuel depth text = .ok (v, rest))
    (hdepth : depth ≤ depth') : value depth' text = .ok (v, rest) := by
  obtain ⟨v', hv', heq⟩ := (within_suffices Leaves.kept_follow fuel).1 depth h
    (2 * (text.length + 1)) depth' (by omega) (.inl hdepth)
  rw [value_eq, hv', heq trivial]

/-- Whatever is allowed more levels is read as before. -/
theorem value_mono (h : value depth text = .ok (v, rest)) (hdepth : depth ≤ depth') :
    value depth' text = .ok (v, rest) :=
  value_of_within ((value_eq depth text).symm.trans h) hdepth

/-- A text has one tree at most. -/
theorem value_unique (h : value depth text = .ok (v, rest))
    (h' : value depth' text = .ok (v', rest')) : v' = v ∧ rest' = rest := by
  have heq := (value_mono h (Nat.le_max_left depth depth')).symm.trans
    (value_mono h' (Nat.le_max_right depth depth'))
  cases heq
  exact ⟨rfl, rfl⟩

/-- A value that is kept can be passed over. -/
theorem skipValue_of_value (h : value depth text = .ok (v, rest)) :
    skipValue text = .ok ((), rest) := by
  rw [value_eq] at h
  obtain ⟨v', hv', -⟩ := (within_suffices Leaves.skipped_follow _).1 depth h
    (2 * (text.length + 1)) (text.length + 1 + 1) (by omega) (.inr (by omega))
  exact (bind_eq (bound_eq text)).trans ((bind_eq hv').trans rfl)

/-- A value begins with a byte that tells what it is. -/
theorem stands_of_value (h : value depth text = .ok (v, rest)) :
    ∃ fuel b text', token text = .ok (b, text') ∧ Stands .kept fuel depth text' rest (Start.of b) v
    := by
  rw [value_eq] at h
  exact ⟨_, valueWithin_eq_ok_iff.1 h⟩

/-- Blanks before a value are no part of it. -/
theorem value_of_token {b : UInt8} (htoken : token text = .ok (b, text'))
    (h : value depth text = .ok (v, rest)) : value depth text' = .ok (v, rest) := by
  obtain ⟨fuel, b', text'', htoken', hstands⟩ := stands_of_value h
  cases htoken.symm.trans htoken'
  have hwithin : valueWithin .kept (fuel + 1) depth text' = .ok (v, rest) :=
    valueWithin_eq_ok_iff.2 ⟨b, text', token_again htoken, hstands⟩
  exact value_of_within hwithin (Nat.le_refl depth)

/-- The items of a list follow one another in a text, up to where the list ends. -/
inductive ItemsOf (depth : Nat) : Bool → List UInt8 → List Value → List UInt8 → Prop
  | nil {first : Bool} {text rest : List UInt8} (h : moreItems first text = .ok (false, rest)) :
    ItemsOf depth first text [] rest
  | cons {first : Bool} {text text' text'' rest : List UInt8} {v : Value} {vs : List Value}
    (hmore : moreItems first text = .ok (true, text')) (hv : value depth text' = .ok (v, text''))
    (h : ItemsOf depth false text'' vs rest) : ItemsOf depth first text (v :: vs) rest

/-- The members of an object follow one another in a text, up to where the object ends. -/
inductive MembersOf (depth : Nat) :
    Bool → List UInt8 → List (String × Value) → List UInt8 → Prop
  | nil {first : Bool} {text rest : List UInt8} (h : moreMembers first text = .ok (false, rest)) :
    MembersOf depth first text [] rest
  | cons {first : Bool} {text text₁ text₂ text₃ text₄ rest : List UInt8} {name : String}
    {v : Value} {ms : List (String × Value)} (hmore : moreMembers first text = .ok (true, text₁))
    (hname : Json.text text₁ = .ok (name, text₂)) (hcolon : colon text₂ = .ok ((), text₃))
    (hv : value depth text₃ = .ok (v, text₄)) (h : MembersOf depth false text₄ ms rest) :
    MembersOf depth first text ((name, v) :: ms) rest

theorem itemsOf_of_within (h : itemsWithin .kept fuel depth first text = .ok (vs, rest)) :
    ∃ text', ItemsOf depth first text vs text' ∧ text'.head? = some (byte ']') ∧
      text'.drop 1 = rest := by
  induction fuel generalizing first text vs with
  | zero => cases h
  | succ fuel ih =>
    obtain ⟨text', hmore, rfl, rfl⟩ | ⟨text', v, text'', vs', hmore, hv, hvs, rfl⟩ :=
      itemsWithin_eq_ok_iff.1 h
    · exact ⟨text', .nil hmore, head_of_moreItems hmore, rfl⟩
    · obtain ⟨mid, hitems, hend⟩ := ih hvs
      exact ⟨mid, .cons hmore (value_of_within hv (Nat.le_refl depth)) hitems, hend⟩

theorem membersOf_of_within (h : membersWithin .kept fuel depth first text = .ok (ms, rest)) :
    ∃ text', MembersOf depth first text ms text' ∧ text'.head? = some (byte '\x7d') ∧
      text'.drop 1 = rest := by
  induction fuel generalizing first text ms with
  | zero => cases h
  | succ fuel ih =>
    obtain ⟨text', hmore, rfl, rfl⟩ | ⟨text₁, name, text₂, text₃, v, text₄, ms', hmore, hname,
      hcolon, hv, hms, rfl⟩ := membersWithin_eq_ok_iff.1 h
    · exact ⟨text', .nil hmore, head_of_moreMembers hmore, rfl⟩
    · obtain ⟨mid, hmembers, hend⟩ := ih hms
      exact ⟨mid, .cons hmore hname hcolon (value_of_within hv (Nat.le_refl depth)) hmembers, hend⟩

/-- An object is its members between braces. -/
theorem object_of_value (h : value depth text = .ok (.object ms, rest)) :
    ∃ b text' mid, token text = .ok (b, text') ∧ Start.of b = .object ∧
      MembersOf (depth - 1) true (text'.drop 1) ms mid ∧ ms.length < (text'.drop 1).length ∧
      closeObject mid = .ok ((), rest) := by
  obtain ⟨fuel, b, text', htoken, hstands⟩ := stands_of_value h
  generalize hstart : Start.of b = start at hstands
  cases hstands with
  | object hdepth hmembers =>
    obtain ⟨mid, hof, hend, hrest⟩ := membersOf_of_within hmembers
    have hlength := Nat.lt_of_add_right_lt ((within_takes fuel).2.2 _ true hmembers)
    have hclose := closeObject_eq_ok_iff.2 ⟨mid, token_of_head (by decide) hend, hrest⟩
    exact ⟨b, text', mid, htoken, hstart, hof, hlength, hclose⟩

end GridRobot.Json
