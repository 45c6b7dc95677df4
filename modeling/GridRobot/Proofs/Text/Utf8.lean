import GridRobot.Text.Utf8
import Mathlib.Algebra.Group.Nat.Defs
import Mathlib.Data.List.Basic

/-!
# Reading characters

A machine reads UTF-8 a byte at a time. Whatever it has read of a character, it
goes on exactly with the bytes that the character can go on with: after its
first byte the others bring six bits each, the first of them between bounds that
keep out overlong forms, surrogates and numbers past the last character
(`State.ends_inside_iff`). So it ends a character where the bytes of that
character stand, and nowhere else (`State.ends_ready_iff`), and it refuses a byte
exactly if no character goes on with it (`State.Begun`).
-/

namespace GridRobot

namespace Utf8

/-! ### The bytes of a character -/

/-- The last `k` bytes of a character of number `n` and more than `k` bytes. -/
def tails : Nat → Nat → List UInt8
  | 0, _ => []
  | k + 1, n => UInt8.ofNat (n / 64 ^ k % 64 + 128) :: tails k n

theorem toNat_ofNat {n : Nat} (h : n.isValidChar) : (Char.ofNat n).toNat = n := by
  rw [Char.ofNat, dif_pos h]
  rfl

/-- The bytes of a character: the first one tells how many there are. -/
theorem encodeChar_eq {n : Nat} (h : n.isValidChar) :
    String.utf8EncodeChar (Char.ofNat n) =
      if n ≤ 0x7F then [UInt8.ofNat n]
      else if n ≤ 0x7FF then UInt8.ofNat (n / 64 ^ 1 + 0xC0) :: tails 1 n
      else if n ≤ 0xFFFF then UInt8.ofNat (n / 64 ^ 2 + 0xE0) :: tails 2 n
      else UInt8.ofNat (n / 64 ^ 3 + 0xF0) :: tails 3 n := by
  have hn : (Char.ofNat n).val.toNat = n := toNat_ofNat h
  simp only [String.utf8EncodeChar, hn, tails]
  rcases h with h | ⟨-, h⟩
  all_goals grind

theorem encodeChar_two {n : Nat} (hlow : 0x7F < n) (hhigh : n ≤ 0x7FF) :
    String.utf8EncodeChar (Char.ofNat n) = UInt8.ofNat (n / 64 ^ 1 + 0xC0) :: tails 1 n := by
  rw [encodeChar_eq (by omega), if_neg (by omega), if_pos hhigh]

theorem encodeChar_three {n : Nat} (h : n.isValidChar) (hlow : 0x7FF < n) (hhigh : n ≤ 0xFFFF) :
    String.utf8EncodeChar (Char.ofNat n) = UInt8.ofNat (n / 64 ^ 2 + 0xE0) :: tails 2 n := by
  rw [encodeChar_eq h, if_neg (by omega), if_neg (by omega), if_pos hhigh]

theorem encodeChar_four {n : Nat} (h : n.isValidChar) (hlow : 0xFFFF < n) :
    String.utf8EncodeChar (Char.ofNat n) = UInt8.ofNat (n / 64 ^ 3 + 0xF0) :: tails 3 n := by
  rw [encodeChar_eq h, if_neg (by omega), if_neg (by omega), if_neg (by omega)]

namespace State

/-- From the state `s` on, the bytes end the character `c`, and no other before it. -/
inductive Ends : State → List UInt8 → Char → Prop
  | last {s : State} {b : UInt8} {c : Char} (h : s.accept b = some (some c, ready)) : Ends s [b] c
  | next {s t : State} {b : UInt8} {bytes : List UInt8} {c : Char}
      (h : s.accept b = some (none, t)) (hrest : Ends t bytes c) : Ends s (b :: bytes) c

/-- What has been read once a byte inside a character was, if `bits` is the number read by then. -/
def after (bits : Nat) : Nat → Option Char × State
  | 0 => (some (Char.ofNat bits), ready)
  | owed + 1 => (none, inside owed 0x80 0xBF bits)

variable {owed bits n : Nat} {low high b : UInt8} {bytes : List UInt8} {c : Char}

/-- Inside a character, a byte between the bounds stands for its last six bits. -/
theorem accept_inside_eq_some_iff (hlow : 0x80 ≤ low) (hhigh : high ≤ 0xBF)
    {r : Option Char × State} :
    (inside owed low high bits).accept b = some r ↔
      ∃ d < 64, b = UInt8.ofNat (d + 128) ∧ low.toNat ≤ d + 128 ∧ d + 128 ≤ high.toNat ∧
        r = after (bits * 64 + d) owed := by
  rw [UInt8.le_iff_toNat_le] at hlow hhigh
  change 128 ≤ low.toNat at hlow
  change high.toNat ≤ 191 at hhigh
  have hafter : (inside owed low high bits).accept b =
      if low ≤ b ∧ b ≤ high then some (after (bits * 64 + (b.toNat - 128)) owed) else none := by
    cases owed <;> rfl
  simp only [hafter, UInt8.le_iff_toNat_le]
  constructor
  · intro h
    split at h
    · next hb =>
      cases h
      refine ⟨b.toNat - 128, by omega, ?_, by omega, by omega, rfl⟩
      rw [Nat.sub_add_cancel (by omega), UInt8.ofNat_toNat]
    · cases h
  · rintro ⟨d, hd, rfl, hle, hge, rfl⟩
    have hbyte : (UInt8.ofNat (d + 128)).toNat = d + 128 := by
      rw [UInt8.toNat_ofNat']
      omega
    rw [hbyte, if_pos ⟨hle, hge⟩, Nat.add_sub_cancel]

/-- Inside a character its last bytes are read, the next one between the bounds. -/
theorem ends_inside_iff (hlow : 0x80 ≤ low) (hhigh : high ≤ 0xBF) :
    (inside owed low high bits).Ends bytes c ↔
      ∃ n, n / 64 ^ (owed + 1) = bits ∧ low.toNat ≤ n / 64 ^ owed % 64 + 128 ∧
        n / 64 ^ owed % 64 + 128 ≤ high.toNat ∧ bytes = tails (owed + 1) n ∧ c = Char.ofNat n := by
  induction owed generalizing low high bits bytes with
  | zero =>
    constructor
    · intro h
      cases h with
      | last h =>
        obtain ⟨d, hd, rfl, hle, hge, hr⟩ := (accept_inside_eq_some_iff hlow hhigh).1 h
        cases hr
        have hdigit : (bits * 64 + d) / 64 ^ 0 % 64 = d := by omega
        refine ⟨bits * 64 + d, by omega, by rwa [hdigit], by rwa [hdigit], ?_, rfl⟩
        rw [tails, hdigit, tails]
      | next h =>
        obtain ⟨d, -, -, -, -, hr⟩ := (accept_inside_eq_some_iff hlow hhigh).1 h
        cases hr
    · rintro ⟨n, rfl, hle, hge, rfl, rfl⟩
      refine .last ((accept_inside_eq_some_iff hlow hhigh).2
        ⟨n / 64 ^ 0 % 64, Nat.mod_lt _ (by decide), rfl, hle, hge, ?_⟩)
      have hn : n / 64 ^ (0 + 1) * 64 + n / 64 ^ 0 % 64 = n := by omega
      rw [hn, after]
  | succ owed ih =>
    have hdiv : ∀ n, n / 64 ^ (owed + 1 + 1) = n / 64 ^ (owed + 1) / 64 := fun n => by
      rw [Nat.div_div_eq_div_mul, ← Nat.pow_succ]
    constructor
    · intro h
      cases h with
      | last h =>
        obtain ⟨d, -, -, -, -, hr⟩ := (accept_inside_eq_some_iff hlow hhigh).1 h
        cases hr
      | next h hrest =>
        obtain ⟨d, hd, rfl, hle, hge, hr⟩ := (accept_inside_eq_some_iff hlow hhigh).1 h
        cases hr
        obtain ⟨n, hbits, -, -, rfl, rfl⟩ := (ih (by decide) (by decide)).1 hrest
        have hdigit : n / 64 ^ (owed + 1) % 64 = d := by omega
        refine ⟨n, ?_, by rwa [hdigit], by rwa [hdigit], ?_, rfl⟩
        · rw [hdiv]
          omega
        · rw [← hdigit]
          rfl
    · rintro ⟨n, rfl, hle, hge, rfl, rfl⟩
      refine .next ((accept_inside_eq_some_iff hlow hhigh).2
        ⟨n / 64 ^ (owed + 1) % 64, Nat.mod_lt _ (by decide), rfl, hle, hge, rfl⟩)
        ((ih (by decide) (by decide)).2 ⟨n, by rw [hdiv]; omega, ?_, ?_, rfl, rfl⟩)
      · exact Nat.le_add_left _ _
      · exact Nat.add_le_add_right (Nat.le_of_lt_succ (Nat.mod_lt _ (by decide))) _

/-- The first bytes of characters, as numbers. -/
theorem lead?_ofNat {k : Nat} (hk : k < 256) :
    lead? (UInt8.ofNat k) =
      if 0xC2 ≤ k ∧ k ≤ 0xDF then some (inside 0 0x80 0xBF (k - 0xC0))
      else if k = 0xE0 then some (inside 1 0xA0 0xBF 0)
      else if k = 0xED then some (inside 1 0x80 0x9F 0xD)
      else if 0xE1 ≤ k ∧ k ≤ 0xEF then some (inside 1 0x80 0xBF (k - 0xE0))
      else if k = 0xF0 then some (inside 2 0x90 0xBF 0)
      else if k = 0xF4 then some (inside 2 0x80 0x8F 4)
      else if 0xF1 ≤ k ∧ k ≤ 0xF3 then some (inside 2 0x80 0xBF (k - 0xF0))
      else none := by
  have hbyte : (UInt8.ofNat k).toNat = k := by
    rw [UInt8.toNat_ofNat']
    exact Nat.mod_eq_of_lt hk
  simp only [lead?, UInt8.le_iff_toNat_le, ← UInt8.toNat_inj, hbyte]
  rfl

/-- The bytes that may follow the byte `b` are the last bytes of the characters that begin with
    it. -/
structure Leads (b : UInt8) (owed : Nat) (low high : UInt8) (bits : Nat) : Prop where
  low_ge : 0x80 ≤ low
  high_le : high ≤ 0xBF
  low_le_high : low ≤ high
  encodeChar {n : Nat} (hbits : n / 64 ^ (owed + 1) = bits)
    (hlow : low.toNat ≤ n / 64 ^ owed % 64 + 128) (hhigh : n / 64 ^ owed % 64 + 128 ≤ high.toNat) :
    String.utf8EncodeChar (Char.ofNat n) = b :: tails (owed + 1) n

theorem leads_of_lead? {t : State} (h : lead? b = some t) :
    ∃ owed low high bits, t = inside owed low high bits ∧ Leads b owed low high bits := by
  obtain ⟨k, hk, rfl⟩ : ∃ k < 256, b = UInt8.ofNat k :=
    ⟨b.toNat, b.toNat_lt, UInt8.ofNat_toNat.symm⟩
  rw [lead?_ofNat hk] at h
  split at h
  · refine ⟨_, _, _, _, (Option.some.inj h).symm, by decide, by decide, by decide, ?_⟩
    intro n hbits hlow hhigh
    rw [encodeChar_two (by omega) (by omega), hbits, Nat.sub_add_cancel (by omega)]
  split at h
  · next hk =>
    refine ⟨_, _, _, _, (Option.some.inj h).symm, by decide, by decide, by decide, ?_⟩
    intro n hbits hlow hhigh
    -- The bound keeps out numbers that need fewer bytes.
    change 0xA0 ≤ n / 64 ^ 1 % 64 + 128 at hlow
    rw [encodeChar_three (by omega) (by omega) (by omega), hbits, hk]
  split at h
  · next hk =>
    refine ⟨_, _, _, _, (Option.some.inj h).symm, by decide, by decide, by decide, ?_⟩
    intro n hbits hlow hhigh
    -- The bound keeps out surrogates.
    change n / 64 ^ 1 % 64 + 128 ≤ 0x9F at hhigh
    rw [encodeChar_three (by omega) (by omega) (by omega), hbits, hk]
  split at h
  · refine ⟨_, _, _, _, (Option.some.inj h).symm, by decide, by decide, by decide, ?_⟩
    intro n hbits hlow hhigh
    rw [encodeChar_three (by omega) (by omega) (by omega), hbits, Nat.sub_add_cancel (by omega)]
  split at h
  · next hk =>
    refine ⟨_, _, _, _, (Option.some.inj h).symm, by decide, by decide, by decide, ?_⟩
    intro n hbits hlow hhigh
    -- As above, for the next number of bytes.
    change 0x90 ≤ n / 64 ^ 2 % 64 + 128 at hlow
    rw [encodeChar_four (by omega) (by omega), hbits, hk]
  split at h
  · next hk =>
    refine ⟨_, _, _, _, (Option.some.inj h).symm, by decide, by decide, by decide, ?_⟩
    intro n hbits hlow hhigh
    -- The bound keeps out numbers past that of the last character.
    change n / 64 ^ 2 % 64 + 128 ≤ 0x8F at hhigh
    rw [encodeChar_four (by omega) (by omega), hbits, hk]
  split at h
  · refine ⟨_, _, _, _, (Option.some.inj h).symm, by decide, by decide, by decide, ?_⟩
    intro n hbits hlow hhigh
    rw [encodeChar_four (by omega) (by omega), hbits, Nat.sub_add_cancel (by omega)]
  · cases h

/-- The first byte of a character of more than one byte is such that its other bytes may follow. -/
theorem exists_lead? (hn : n.isValidChar) (h : 0x7F < n) :
    ∃ b owed low high, lead? b = some (inside owed low high (n / 64 ^ (owed + 1))) ∧
      low.toNat ≤ n / 64 ^ owed % 64 + 128 ∧ n / 64 ^ owed % 64 + 128 ≤ high.toNat := by
  by_cases h2 : n ≤ 0x7FF
  · refine ⟨UInt8.ofNat (n / 64 ^ 1 + 0xC0), 0, 0x80, 0xBF, ?_, ?_, ?_⟩
    · rw [lead?_ofNat (by omega), if_pos (by omega), Nat.add_sub_cancel]
    · change 128 ≤ _; omega
    · change _ ≤ 191; omega
  by_cases h3 : n ≤ 0xFFFF
  · refine ⟨UInt8.ofNat (n / 64 ^ 2 + 0xE0), 1, if n / 64 ^ 2 = 0 then 0xA0 else 0x80,
      if n / 64 ^ 2 = 0xD then 0x9F else 0xBF, ?_, ?_, ?_⟩
    · rw [lead?_ofNat (by omega), if_neg (by omega)]
      grind
    · split
      · change 0xA0 ≤ _; omega
      · change 128 ≤ _; omega
    · split
      · change _ ≤ 0x9F; omega
      · change _ ≤ 191; omega
  · refine ⟨UInt8.ofNat (n / 64 ^ 3 + 0xF0), 2, if n / 64 ^ 3 = 0 then 0x90 else 0x80,
      if n / 64 ^ 3 = 4 then 0x8F else 0xBF, ?_, ?_, ?_⟩
    · rw [lead?_ofNat (by omega), if_neg (by omega), if_neg (by omega), if_neg (by omega),
        if_neg (by omega)]
      grind
    · split
      · change 0x90 ≤ _; omega
      · change 128 ≤ _; omega
    · split
      · change _ ≤ 0x8F; omega
      · change _ ≤ 191; omega

theorem accept_ready_of_lead? {t : State} (h : lead? b = some t) :
    ready.accept b = some (none, t) := by
  have hb : ¬b < 0x80 := by
    intro hlt
    have hnum : b.toNat < 128 := UInt8.lt_iff_toNat_lt.1 hlt
    rw [← UInt8.ofNat_toNat (x := b), lead?_ofNat b.toNat_lt] at h
    grind
  rw [accept, if_neg hb, h]
  rfl

/-- From the first byte on, the bytes of a character are read, and no others. -/
theorem ends_ready_iff : ready.Ends bytes c ↔ bytes = String.utf8EncodeChar c := by
  constructor
  · intro h
    cases h with
    | @last _ b _ h =>
      rw [accept] at h
      split at h
      · next hb =>
        cases h
        have hlt : b.toNat < 128 := UInt8.lt_iff_toNat_lt.1 hb
        rw [encodeChar_eq (.inl (by omega)), if_pos (by omega), UInt8.ofNat_toNat]
      · obtain ⟨t, -, ht⟩ := Option.map_eq_some_iff.1 h
        cases ht
    | next h hrest =>
      rw [accept] at h
      split at h
      · cases h
      · obtain ⟨t, hlead, ht⟩ := Option.map_eq_some_iff.1 h
        cases ht
        obtain ⟨owed, low, high, bits, rfl, hleads⟩ := leads_of_lead? hlead
        obtain ⟨n, hbits, hlow, hhigh, rfl, rfl⟩ :=
          (ends_inside_iff hleads.low_ge hleads.high_le).1 hrest
        exact (hleads.encodeChar hbits hlow hhigh).symm
  · rintro rfl
    have hc : Char.ofNat c.toNat = c := c.ofNat_toNat
    by_cases h : c.toNat ≤ 0x7F
    · have hb : (UInt8.ofNat c.toNat).toNat = c.toNat := by
        rw [UInt8.toNat_ofNat']
        omega
      have hlt : UInt8.ofNat c.toNat < 0x80 := by
        rw [UInt8.lt_iff_toNat_lt, hb]
        exact Nat.lt_succ_of_le h
      have henc := encodeChar_eq c.valid
      rw [Char.toNat_val, hc, if_pos h] at henc
      rw [henc]
      refine .last ?_
      rw [accept, if_pos hlt, hb, hc]
    · obtain ⟨b, owed, low, high, hlead, hlow, hhigh⟩ := exists_lead? c.valid (Nat.lt_of_not_le h)
      obtain ⟨_, _, _, _, heq, hleads⟩ := leads_of_lead? hlead
      cases heq
      have henc := hleads.encodeChar rfl hlow hhigh
      rw [Char.toNat_val, hc] at henc
      rw [henc]
      exact .next (accept_ready_of_lead? hlead)
        ((ends_inside_iff hleads.low_ge hleads.high_le).2 ⟨_, rfl, hlow, hhigh, rfl, hc.symm⟩)

/-- Where a character ends does not depend on what follows it. -/
theorem Ends.unique {s : State} {bytes' rest rest' : List UInt8} {c' : Char} (h : s.Ends bytes c)
    (h' : s.Ends bytes' c') (heq : bytes ++ rest = bytes' ++ rest') : c = c' ∧ rest = rest' := by
  induction h generalizing bytes' with
  | last h =>
    cases h' with
    | last h' =>
      obtain ⟨rfl, hrest⟩ := List.cons.inj heq
      rw [h] at h'
      cases h'
      exact ⟨rfl, hrest⟩
    | next h' =>
      obtain ⟨rfl, -⟩ := List.cons.inj heq
      rw [h] at h'
      cases h'
  | next h _ ih =>
    cases h' with
    | last h' =>
      obtain ⟨rfl, -⟩ := List.cons.inj heq
      rw [h] at h'
      cases h'
    | next h' hrest' =>
      obtain ⟨rfl, hrest⟩ := List.cons.inj heq
      rw [h] at h'
      cases h'
      exact ih hrest' hrest

/-- The bytes of a character can be told apart from those of another one by how they begin. -/
theorem encodeChar_append_inj {c c' : Char} {rest rest' : List UInt8}
    (h : String.utf8EncodeChar c ++ rest = String.utf8EncodeChar c' ++ rest') :
    c = c' ∧ rest = rest' :=
  (ends_ready_iff.2 rfl).unique (ends_ready_iff.2 rfl) h

/-! ### Within a character -/

/-- Some byte may come next. -/
def Open : State → Prop
  | ready => True
  | inside _ low high _ => 0x80 ≤ low ∧ high ≤ 0xBF ∧ low ≤ high

theorem Open.accept {s t : State} (hs : s.Open) (h : s.accept b = some (none, t)) : t.Open := by
  cases s with
  | ready =>
    rw [State.accept] at h
    split at h
    · cases h
    · obtain ⟨t', hlead, ht⟩ := Option.map_eq_some_iff.1 h
      cases ht
      obtain ⟨owed, low, high, bits, rfl, hleads⟩ := leads_of_lead? hlead
      exact ⟨hleads.low_ge, hleads.high_le, hleads.low_le_high⟩
  | inside owed low high bits =>
    obtain ⟨d, -, -, -, -, hr⟩ := (accept_inside_eq_some_iff hs.1 hs.2.1).1 h
    cases owed with
    | zero => cases hr
    | succ owed =>
      cases hr
      exact ⟨by decide, by decide, by decide⟩

/-- A character that was begun can be ended. -/
theorem Open.exists_ends (hs : (inside owed low high bits).Open) :
    ∃ bytes c, (inside owed low high bits).Ends bytes c := by
  obtain ⟨hlow, hhigh, hle⟩ := hs
  have hlow' : 128 ≤ low.toNat := UInt8.le_iff_toNat_le.1 hlow
  have hhigh' : high.toNat ≤ 191 := UInt8.le_iff_toNat_le.1 hhigh
  have hle' := UInt8.le_iff_toNat_le.1 hle
  -- The next byte is the least possible one, the others are too.
  have hnum : (bits * 64 + (low.toNat - 128)) * 64 ^ owed / 64 ^ owed =
      bits * 64 + (low.toNat - 128) :=
    Nat.mul_div_cancel _ (Nat.pow_pos (by decide))
  refine ⟨_, _, (ends_inside_iff hlow hhigh).2
    ⟨(bits * 64 + (low.toNat - 128)) * 64 ^ owed, ?_, ?_, ?_, rfl, rfl⟩⟩
  · rw [Nat.pow_succ, ← Nat.div_div_eq_div_mul, hnum]
    omega
  · rw [hnum]
    omega
  · rw [hnum]
    omega

/-- The bytes `part` have been read of a character, and led to the state `s`. -/
structure Begun (part : List UInt8) (s : State) : Prop where
  isOpen : s.Open
  ends_iff {rest : List UInt8} {c : Char} :
    s.Ends rest c ↔ part ++ rest = String.utf8EncodeChar c

theorem begun_nil : Begun [] ready := ⟨trivial, ends_ready_iff⟩

variable {s t : State} {part : List UInt8}

theorem Begun.next (h : Begun part s) (hb : s.accept b = some (none, t)) :
    Begun (part ++ [b]) t := by
  refine ⟨h.isOpen.accept hb, fun {rest c} => ?_⟩
  rw [List.append_assoc, List.singleton_append, ← h.ends_iff]
  refine ⟨.next hb, fun hends => ?_⟩
  cases hends with
  | last hlast =>
    rw [hb] at hlast
    cases hlast
  | next hnext hrest =>
    rw [hb] at hnext
    cases hnext
    exact hrest

theorem Begun.last (h : Begun part s) (hb : s.accept b = some (some c, ready)) :
    part ++ [b] = String.utf8EncodeChar c :=
  h.ends_iff.1 (.last hb)

/-- No character goes on with a byte that is refused. -/
theorem Begun.refused (h : Begun part s) (hb : s.accept b = none) (rest : List UInt8) (c : Char) :
    part ++ b :: rest ≠ String.utf8EncodeChar c := by
  intro heq
  cases h.ends_iff.2 heq with
  | last hlast =>
    rw [hb] at hlast
    cases hlast
  | next hnext =>
    rw [hb] at hnext
    cases hnext

end State

end Utf8

end GridRobot
