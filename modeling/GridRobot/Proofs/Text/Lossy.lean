import GridRobot.Proofs.Text.Utf8

/-!
# Reading bytes that are not text

Bytes that are not text fall into parts: the bytes of characters, and *stumps*,
each of them as many bytes as begin a character that does not go on, or a single
byte that begins none. This can be done in one way only (`Reads.unique`), and the
lossy reader does it: it puts one replacement character for each stump
(`reads_decodeLossy`).

A text without replacement characters begins what is read exactly if its bytes
begin what is there, whatever follows (`Reads.isPrefix_iff`).
-/

namespace GridRobot

namespace Utf8

open State

variable {part bytes rest : List UInt8} {s : State} {b : UInt8} {text : List Char}

/-! ### Bytes that are not text -/

/-- At the start of `part ++ rest` stands no character, and `part` is as much of it as begins one,
    or a single byte. -/
structure Stump (part rest : List UInt8) : Prop where
  ne_nil : part ≠ []
  no_char (c : Char) : ¬String.utf8EncodeChar c <+: part ++ rest
  begins : part.length = 1 ∨ ∃ c, part <+: String.utf8EncodeChar c
  longest {longer : List UInt8} (h : longer <+: part ++ rest) (hlt : part.length < longer.length)
    (c : Char) : ¬longer <+: String.utf8EncodeChar c

/-- The text is what the bytes are read as: each character stands for its bytes, and each
    replacement character that does not for a stump. -/
inductive Reads : List UInt8 → List Char → Prop
  | nil : Reads [] []
  | char (c : Char) {bytes : List UInt8} {text : List Char} (h : Reads bytes text) :
    Reads (String.utf8EncodeChar c ++ bytes) (c :: text)
  | stump {part bytes : List UInt8} {text : List Char} (hpart : Stump part bytes)
    (h : Reads bytes text) : Reads (part ++ bytes) (replacement :: text)

/-- A character that is begun does not end within the bytes read of it. -/
theorem State.Begun.not_isPrefix {owed bits : Nat} {low high : UInt8}
    (h : Begun part (inside owed low high bits)) (c : Char) :
    ¬String.utf8EncodeChar c <+: part := by
  rintro ⟨more, hmore⟩
  obtain ⟨last, c', hends⟩ := h.isOpen.exists_ends
  have hc' := h.ends_iff.1 hends
  rw [← hmore, List.append_assoc, ← List.append_nil (String.utf8EncodeChar c')] at hc'
  obtain ⟨-, hnil⟩ := encodeChar_append_inj hc'
  rw [(List.append_eq_nil_iff.1 hnil).2] at hends
  cases hends

/-- What begins a character, or is a single byte, and cannot go on is a stump. -/
theorem stump_of_stuck (hne : part ≠ [])
    (hbegins : part.length = 1 ∨ ∃ c, part <+: String.utf8EncodeChar c)
    (hends : ∀ c, ¬String.utf8EncodeChar c <+: part)
    (hstuck : ∀ more, more <+: rest → more ≠ [] → ∀ c, ¬part ++ more <+: String.utf8EncodeChar c) :
    Stump part rest := by
  -- Whatever is longer than the part takes some of the rest, and no character goes on with that.
  have hlonger : ∀ longer, longer <+: part ++ rest → ¬longer <+: part → ∀ c,
      ¬longer <+: String.utf8EncodeChar c := by
    rintro longer ⟨others, heq⟩ hpart c
    rcases List.append_eq_append_iff.1 heq with ⟨more, hmore, -⟩ | ⟨more, rfl, hmore⟩
    · exact absurd ⟨more, hmore.symm⟩ hpart
    · refine hstuck more ⟨others, hmore.symm⟩ ?_ c
      rintro rfl
      exact hpart ⟨[], (List.append_nil _).trans (List.append_nil part)⟩
  refine ⟨hne, fun c hc => hlonger _ hc (hends c) c (List.prefix_refl _), hbegins, ?_⟩
  exact fun h hlt => hlonger _ h fun hpart => Nat.not_le_of_lt hlt hpart.length_le

theorem stuck_of_refused (h : Begun part s) (hb : s.accept b = none) {more : List UInt8}
    (hmore : more <+: b :: rest) (hne : more ≠ []) (c : Char) :
    ¬part ++ more <+: String.utf8EncodeChar c := by
  rintro ⟨others, heq⟩
  obtain ⟨b', more, rfl⟩ := List.exists_cons_of_ne_nil hne
  obtain ⟨rfl, -⟩ := List.cons_prefix_cons.1 hmore
  rw [List.append_assoc] at heq
  exact h.refused hb _ c heq

/-- What was begun of a character is a stump if it does not go on. -/
theorem State.Begun.stump {owed bits : Nat} {low high : UInt8}
    (h : Begun part (inside owed low high bits)) (hne : part ≠ [])
    (hstuck : ∀ more, more <+: rest → more ≠ [] → ∀ c, ¬part ++ more <+: String.utf8EncodeChar c) :
    Stump part rest := by
  obtain ⟨last, c, hends⟩ := h.isOpen.exists_ends
  exact stump_of_stuck hne (.inr ⟨c, last, h.ends_iff.1 hends⟩) h.not_isPrefix hstuck

/-- A byte that begins no character is a stump by itself. -/
theorem stump_singleton (hb : ready.accept b = none) (rest : List UInt8) : Stump [b] rest := by
  have hstuck : ∀ more, more <+: b :: rest → more ≠ [] → ∀ c, ¬more <+: String.utf8EncodeChar c :=
    fun more hmore hne c => stuck_of_refused begun_nil hb hmore hne c
  refine stump_of_stuck (List.cons_ne_nil b []) (.inl rfl) (fun c hc => ?_) fun more hmore _ c => ?_
  · have hends : String.utf8EncodeChar c ≠ [] := String.utf8EncodeChar_ne_nil
    exact hstuck _ (hc.trans ⟨rest, rfl⟩) hends c (List.prefix_refl _)
  · refine hstuck ([b] ++ more) ?_ (List.cons_ne_nil b more) c
    exact List.cons_prefix_cons.2 ⟨rfl, hmore⟩

/-! ### Lossy reading -/

theorem feed_of_accept {c? : Option Char} {t : State} (h : s.accept b = some (c?, t)) :
    s.feed b = (c?.toList, t) := by
  unfold feed
  rw [h]

/-- A byte that is refused inside a character is looked at afresh. -/
theorem decodeLossyFrom_inside_of_refused {owed bits : Nat} {low high : UInt8}
    (h : (inside owed low high bits).accept b = none) (bytes : List UInt8) :
    decodeLossyFrom (inside owed low high bits) (b :: bytes) =
      replacement :: decodeLossyFrom ready (b :: bytes) := by
  have hfeed : (inside owed low high bits).feed b =
      (replacement :: (ready.feed b).1, (ready.feed b).2) := by
    unfold feed
    rw [h]
    cases ready.accept b <;> rfl
  rw [decodeLossyFrom, hfeed, decodeLossyFrom]
  rfl

/-- Between characters stands the machine when it has read one, and only then. -/
theorem eq_ready_iff {c? : Option Char} {t : State} (h : s.accept b = some (c?, t)) :
    t = ready ↔ c?.isSome = true := by
  cases s with
  | ready =>
    rw [accept] at h
    split at h
    · obtain ⟨rfl, rfl⟩ := Prod.mk.inj (Option.some.inj h)
      simp
    · obtain ⟨t', hlead, ht⟩ := Option.map_eq_some_iff.1 h
      obtain ⟨rfl, rfl⟩ := Prod.mk.inj ht
      obtain ⟨owed, low, high, bits, rfl, -⟩ := leads_of_lead? hlead
      simp
  | inside owed low high bits =>
    rw [accept] at h
    split at h
    · cases owed with
      | zero =>
        obtain ⟨rfl, rfl⟩ := Prod.mk.inj (Option.some.inj h)
        simp
      | succ owed =>
        obtain ⟨rfl, rfl⟩ := Prod.mk.inj (Option.some.inj h)
        simp
    · cases h

/-- Between characters and within one, the machine reads what is there. -/
theorem reads_decodeLossyFrom (bytes : List UInt8) :
    Reads bytes (decodeLossyFrom ready bytes) ∧
      ∀ {part : List UInt8} {owed bits : Nat} {low high : UInt8}, part ≠ [] →
        Begun part (inside owed low high bits) →
          Reads (part ++ bytes) (decodeLossyFrom (inside owed low high bits) bytes) := by
  induction bytes with
  | nil =>
    refine ⟨.nil, fun hne hbegun => ?_⟩
    refine .stump (hbegun.stump hne fun more hmore hmore' => ?_) .nil
    exact absurd (List.prefix_nil.1 hmore) hmore'
  | cons b bytes ih =>
    obtain ⟨hready, hinside⟩ := ih
    -- A byte that is accepted ends a character or goes on with it, wherever the machine is.
    have hstep : ∀ {part : List UInt8} {s t : State} {c? : Option Char}, Begun part s →
        s.accept b = some (c?, t) →
          Reads (part ++ b :: bytes) (decodeLossyFrom s (b :: bytes)) := by
      intro part s t c? hbegun hb
      rw [decodeLossyFrom, feed_of_accept hb, List.append_cons]
      have hready_iff := eq_ready_iff hb
      cases c? with
      | some c =>
        cases hready_iff.2 rfl
        rw [hbegun.last hb]
        exact .char c hready
      | none =>
        cases t with
        | ready => cases hready_iff.1 rfl
        | inside owed low high bits => exact hinside (by simp) (hbegun.next hb)
    have hfirst : Reads (b :: bytes) (decodeLossyFrom ready (b :: bytes)) := by
      cases hb : ready.accept b with
      | some r => exact hstep begun_nil hb
      | none =>
        rw [decodeLossyFrom, feed, hb]
        exact .stump (stump_singleton hb bytes) hready
    refine ⟨hfirst, fun hne hbegun => ?_⟩
    cases hb : (inside _ _ _ _).accept b with
    | some r => exact hstep hbegun hb
    | none =>
      -- The byte is not lost: it is read again as the first one of what follows.
      rw [decodeLossyFrom_inside_of_refused hb]
      exact .stump
        (hbegun.stump hne fun more hmore hmore' => stuck_of_refused hbegun hb hmore hmore')
        hfirst

theorem reads_decodeLossy (bytes : List UInt8) : Reads bytes (decodeLossy bytes) :=
  (reads_decodeLossyFrom bytes).1

/-! ### In one way only -/

theorem Stump.length_le {part' rest' : List UInt8} (h : Stump part rest) (h' : Stump part' rest')
    (heq : part ++ rest = part' ++ rest') : part'.length ≤ part.length := by
  refine Nat.le_of_not_lt fun hlt => ?_
  -- A longer one would not be a single byte, so it would begin a character.
  have hpos : 0 < part.length := List.length_pos_of_ne_nil h.ne_nil
  obtain ⟨c, hc⟩ := h'.begins.resolve_left (by omega)
  exact h.longest (heq ▸ List.prefix_append part' rest') hlt c hc

theorem Stump.unique {part' rest' : List UInt8} (h : Stump part rest) (h' : Stump part' rest')
    (heq : part ++ rest = part' ++ rest') : rest = rest' :=
  (List.append_inj heq (Nat.le_antisymm (h'.length_le h heq.symm) (h.length_le h' heq))).2

theorem Stump.ne_encodeChar_append (h : Stump part rest) (c : Char) (rest' : List UInt8) :
    String.utf8EncodeChar c ++ rest' ≠ part ++ rest :=
  fun heq => h.no_char c ⟨rest', heq⟩

/-- Bytes are read as one text only. -/
theorem Reads.unique {text' : List Char} (h : Reads bytes text) (h' : Reads bytes text') :
    text = text' := by
  induction h generalizing text' with
  | nil =>
    generalize hnil : [] = bytes at h'
    cases h' with
    | nil => rfl
    | char c h' =>
      exact absurd (List.append_eq_nil_iff.1 hnil.symm).1 String.utf8EncodeChar_ne_nil
    | stump hpart h' => exact absurd (List.append_eq_nil_iff.1 hnil.symm).1 hpart.ne_nil
  | @char c bytes text h ih =>
    generalize hbytes : String.utf8EncodeChar c ++ bytes = all at h'
    cases h' with
    | nil => exact absurd (List.append_eq_nil_iff.1 hbytes).1 String.utf8EncodeChar_ne_nil
    | char c' h' =>
      obtain ⟨rfl, rfl⟩ := encodeChar_append_inj hbytes
      rw [ih h']
    | stump hpart h' => exact absurd hbytes (hpart.ne_encodeChar_append c bytes)
  | @stump part bytes text hpart h ih =>
    generalize hbytes : part ++ bytes = all at h'
    cases h' with
    | nil => exact absurd (List.append_eq_nil_iff.1 hbytes).1 hpart.ne_nil
    | char c' h' => exact absurd hbytes.symm (hpart.ne_encodeChar_append c' _)
    | stump hpart' h' =>
      obtain rfl := hpart.unique hpart' hbytes
      rw [ih h']

/-! ### How a text begins -/

/-- Whatever is there besides, a text without replacement characters begins what is read exactly if
    its bytes begin what is there. -/
theorem Reads.isPrefix_iff {first : List Char} (h : Reads bytes text)
    (hfirst : replacement ∉ first) : first <+: text ↔ encode first <+: bytes := by
  induction first generalizing bytes text with
  | nil => simp [encode]
  | cons c first ih =>
    rw [List.mem_cons, not_or] at hfirst
    rw [encode, List.flatMap_cons]
    have hne : String.utf8EncodeChar c ++ first.flatMap String.utf8EncodeChar ≠ [] :=
      List.append_ne_nil_of_left_ne_nil String.utf8EncodeChar_ne_nil _
    cases h with
    | nil => simp
    | char c' h =>
      constructor
      · intro hprefix
        obtain ⟨rfl, hrest⟩ := List.cons_prefix_cons.1 hprefix
        exact (List.prefix_append_right_inj _).2 ((ih h hfirst.2).1 hrest)
      · rintro ⟨more, hmore⟩
        rw [List.append_assoc] at hmore
        obtain ⟨rfl, hrest⟩ := encodeChar_append_inj hmore
        exact List.cons_prefix_cons.2 ⟨rfl, (ih h hfirst.2).2 ⟨more, hrest⟩⟩
    | stump hpart h =>
      constructor
      · intro hprefix
        exact absurd (List.cons_prefix_cons.1 hprefix).1.symm hfirst.1
      · -- A stump is no place where a character could stand.
        exact fun hprefix => absurd ((List.prefix_append _ _).trans hprefix) (hpart.no_char c)

end Utf8

end GridRobot
