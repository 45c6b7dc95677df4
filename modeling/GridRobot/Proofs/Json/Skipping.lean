import GridRobot.Json.Value
import GridRobot.Proofs.Json.Reading

/-!
# What is read can be passed over

A value that nobody asks for is passed over by readers that look at less than
those of values that are kept. So they get past whatever the latter read, and
leave off where these do: numbers (`skipNumber_of_number`) and strings, for
which the machine that passes over one goes along with the machine that reads
it (`Mode.Lax`, `scanText_lax`).
-/

namespace GridRobot.Json

open Reader (Takes)

variable {text rest : List UInt8}

/-! ### Numbers -/

theorem digits₁_takes : Takes 1 digits₁ := by
  refine ⟨fun h => ?_⟩
  obtain ⟨b?, text', hpeek, h⟩ := bind_eq_ok_iff.1 h
  obtain ⟨hhead, rfl⟩ := peek_eq_ok_iff.1 hpeek
  cases b? with
  | none => cases h
  | some b =>
    obtain ⟨more, rfl⟩ := List.head?_eq_some_iff.1 hhead
    obtain ⟨hb, h⟩ | ⟨-, h⟩ := ite_eq_ok_iff.1 h
    · cases h
      rw [List.dropWhile_cons_of_pos hb, List.length_cons]
      exact Nat.succ_le_succ (List.dropWhile_sublist _).length_le
    · cases h

theorem wholeDigits_takes : Takes 1 wholeDigits := by
  refine digits₁_takes.bind_left fun ds => ?_
  split
  · exact .throw _
  · exact .pure _

theorem exponentSign_takes : Takes 0 exponentSign := by
  have hskip (sign : Bool) : Takes 0 (do skip; return sign) :=
    skip_takes.bind_left fun _ => .pure _
  refine peek_takes.bind_left fun b? => ?_
  cases b? with
  | none => exact .pure _
  | some b => exact .ite (hskip false) (.ite (hskip true) (.pure _))

/-- A number has at least one digit. -/
theorem numeral_takes : Takes 1 numeral := by
  have hdigits : Takes 0 digits₁ := digits₁_takes.zero
  refine Takes.bind_right ?_ fun negative => wholeDigits_takes.bind_left fun whole => ?_
  · exact peek_takes.bind_left fun b? => .ite (skip_takes.bind_left fun _ => .pure _) (.pure _)
  refine Takes.bind_left ?_ fun fraction => Takes.bind_left ?_ fun exponent => .pure _
  · refine peek_takes.bind_left fun b? => .ite (skip_takes.bind_left fun _ => ?_) (.pure _)
    exact hdigits.bind_left fun _ => .pure _
  · refine peek_takes.bind_left fun b? => .ite (skip_takes.bind_left fun _ => ?_) (.pure _)
    exact exponentSign_takes.bind_left fun _ => hdigits.bind_left fun _ => .pure _

theorem number_takes : Takes 1 number := by
  refine numeral_takes.bind_left fun n => ?_
  split
  · exact .pure _
  · exact .throw _

theorem skipNumber_of_number {n : Number} (h : number text = .ok (n, rest)) :
    skipNumber text = .ok ((), rest) := by
  obtain ⟨n', text', hnumeral, h⟩ := bind_eq_ok_iff.1 h
  cases hvalue : n'.value with
  | ok v =>
    rw [hvalue] at h
    obtain ⟨-, rfl⟩ := pure_eq_ok_iff.1 h
    rw [skipNumber, hnumeral]
  | error e =>
    rw [hvalue] at h
    cases h

/-! ### Strings -/

/-- A machine that passes over a string is where the one that reads it is. -/
inductive Mode.Lax : Mode → Mode → Prop
  | plain : Lax .plain .plain
  | escape : Lax .escape .escape
  | unit (missing value value' : Nat) (high high' : Option Nat) :
    Lax (.unit missing value high) (.unit missing value' high')
  | paired (high : Nat) : Lax (.paired high) .plain
  | pairedEscape (high : Nat) : Lax (.pairedEscape high) .escape

/-- Where the rest of a string ends does not depend on what is put before it. -/
theorem exists_of_prepend {x : Except Error (List UInt8 × List UInt8)}
    {f : List UInt8 → List UInt8} {out : List UInt8}
    (h : (do let (out, rest) ← x; return (f out, rest)) = .ok (out, rest)) :
    ∃ out, x = .ok (out, rest) := by
  obtain ⟨⟨out', rest'⟩, hx, h⟩ := outcome_bind_eq_ok_iff.1 h
  cases h
  exact ⟨out', hx⟩

/-- What a machine that passes over a string does after a code unit does not depend on it. -/
theorem lax_of_takeUnit {high : Option Nat} {n : Nat} {bytes : List UInt8} {mode : Mode}
    (h : takeUnit true high n = .ok (bytes, mode)) : mode.Lax .plain := by
  cases high with
  | none =>
    rw [takeUnit, if_neg (by decide)] at h
    split at h
    · cases h
    · split at h
      · obtain ⟨-, rfl⟩ := Prod.mk.inj (Except.ok.inj h)
        exact .paired n
      · obtain ⟨-, rfl⟩ := Prod.mk.inj (Except.ok.inj h)
        exact .plain
  | some high =>
    rw [takeUnit, if_neg (by decide)] at h
    split at h
    · obtain ⟨-, rfl⟩ := Prod.mk.inj (Except.ok.inj h)
      exact .plain
    · cases h

/-- Whether there are bytes enough for a code unit does not depend on the one before it. -/
theorem startUnit_lax {high : Option Nat} {mode : Mode} (h : startUnit high text = .ok mode)
    (high' : Option Nat) : ∃ mode', startUnit high' text = .ok mode' ∧ mode.Lax mode' := by
  unfold startUnit at h ⊢
  split at h
  · cases h
    exact ⟨.unit 3 0 high', rfl, .unit 3 0 0 high high'⟩
  · cases h

/-- A string that is read is passed over, up to the same place. -/
theorem scanText_lax {mode mode' : Mode} {out : List UInt8} (hmode : mode.Lax mode')
    (h : scanText true mode text = .ok (out, rest)) :
    ∃ out', scanText false mode' text = .ok (out', rest) ∧ rest.length < text.length := by
  fun_induction scanText true mode text generalizing mode' out with
  | case1 | case4 | case8 | case9 | case13 | case15 => cases h
  | case2 rest' =>
    cases hmode
    cases h
    exact ⟨[], rfl, Nat.lt_succ_self _⟩
  | case3 rest' hquote ih =>
    cases hmode
    obtain ⟨out', hout', hlt⟩ := ih .escape h
    exact ⟨out', hout', Nat.lt_succ_of_lt hlt⟩
  | case5 b rest' hquote hbackslash hcontrol ih =>
    cases hmode
    obtain ⟨out₁, hout⟩ := exists_of_prepend h
    obtain ⟨out', hout', hlt⟩ := ih .plain hout
    refine ⟨b :: out', ?_, Nat.lt_succ_of_lt hlt⟩
    rw [scanText, if_neg hquote, if_neg hbackslash, if_neg hcontrol, hout']
    rfl
  | case6 rest' ih =>
    cases hmode
    obtain ⟨mode, hstart, hscan⟩ := outcome_bind_eq_ok_iff.1 h
    obtain ⟨mode', hstart', hmode⟩ := startUnit_lax hstart none
    obtain ⟨out', hout', hlt⟩ := ih mode hmode hscan
    refine ⟨out', ?_, Nat.lt_succ_of_lt hlt⟩
    rw [scanText, if_pos rfl, hstart']
    exact hout'
  | case7 b rest' hu c hc ih =>
    cases hmode
    obtain ⟨out₁, hout⟩ := exists_of_prepend h
    obtain ⟨out', hout', hlt⟩ := ih .plain hout
    refine ⟨c :: out', ?_, Nat.lt_succ_of_lt hlt⟩
    rw [scanText, if_neg hu, hc]
    dsimp only
    rw [hout']
    rfl
  | case10 value high b rest' d hd missing ih =>
    cases hmode with
    | unit _ _ value' _ high' =>
      obtain ⟨out', hout', hlt⟩ := ih (.unit _ _ (value' * 16 + d) _ high') h
      refine ⟨out', ?_, Nat.lt_succ_of_lt hlt⟩
      rw [scanText, hd]
      exact hout'
  | case11 value high b rest' d hd ih =>
    cases hmode with
    | unit _ _ value' _ high' =>
      obtain ⟨⟨bytes, mode⟩, hunit, h⟩ := outcome_bind_eq_ok_iff.1 h
      obtain ⟨out₁, hout⟩ := exists_of_prepend h
      obtain ⟨out', hout', hlt⟩ := ih mode (lax_of_takeUnit hunit) hout
      refine ⟨[] ++ out', ?_, Nat.lt_succ_of_lt hlt⟩
      have hlax : takeUnit false high' (value' * 16 + d) = .ok ([], .plain) := by
        cases high' <;> rfl
      rw [scanText, hd]
      dsimp only
      rw [hlax]
      show (scanText false .plain rest' >>= _) = _
      rw [hout']
      rfl
  | case12 high rest' ih =>
    cases hmode
    obtain ⟨out', hout', hlt⟩ := ih (.pairedEscape high) h
    exact ⟨out', hout', Nat.lt_succ_of_lt hlt⟩
  | case14 high rest' ih =>
    cases hmode
    obtain ⟨mode, hstart, hscan⟩ := outcome_bind_eq_ok_iff.1 h
    obtain ⟨mode', hstart', hmode⟩ := startUnit_lax hstart none
    obtain ⟨out', hout', hlt⟩ := ih mode hmode hscan
    refine ⟨out', ?_, Nat.lt_succ_of_lt hlt⟩
    rw [scanText, if_pos rfl, hstart']
    exact hout'

theorem scanText_of_text {s : String} (h : Json.text text = .ok (s, rest)) :
    ∃ bytes, scanText true .plain (text.drop 1) = .ok (bytes, rest) := by
  obtain ⟨_, text₁, hskip, h⟩ := bind_eq_ok_iff.1 h
  obtain ⟨text₂, text₃, hget, h⟩ := bind_eq_ok_iff.1 h
  obtain ⟨⟨bytes, rest'⟩, text₄, hscan, h⟩ := bind_eq_ok_iff.1 h
  obtain ⟨_, text₅, hset, h⟩ := bind_eq_ok_iff.1 h
  obtain ⟨hout, rfl⟩ := lift_eq_ok_iff.1 hscan
  cases hskip
  cases hget
  cases hset
  cases hdecode : Utf8.decode? bytes with
  | some cs =>
    rw [hdecode] at h
    obtain ⟨-, rfl⟩ := pure_eq_ok_iff.1 h
    exact ⟨bytes, hout⟩
  | none =>
    rw [hdecode] at h
    cases h

theorem text_takes : Takes 1 Json.text := by
  refine ⟨fun {text rest s} h => ?_⟩
  obtain ⟨bytes, hscan⟩ := scanText_of_text h
  obtain ⟨out, -, hlt⟩ := scanText_lax .plain hscan
  exact Nat.le_trans hlt (skip_takes.length_le (skip_eq text))

theorem skipText_of_text {s : String} (h : Json.text text = .ok (s, rest)) :
    skipText text = .ok ((), rest) := by
  obtain ⟨bytes, hscan⟩ := scanText_of_text h
  obtain ⟨out, hout, -⟩ := scanText_lax .plain hscan
  refine (bind_eq (skip_eq text)).trans ((bind_eq (get_eq _)).trans ?_)
  refine (bind_eq (lift_eq hout _)).trans ?_
  rfl

end GridRobot.Json
