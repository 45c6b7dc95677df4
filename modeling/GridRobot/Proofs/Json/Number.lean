import GridRobot.Proofs.Json.Text

/-!
# Integers are read as they are written

An integer is written by its digits, of which the first is not zero unless it is
the only one (`toDigits_cons`). It ends where the text cannot go on with a
number (`Stops`), and is read as itself if it fits into a 64-bit word
(`number_writeInteger`).
-/

namespace GridRobot.Json

variable {n : Nat} {rest : List UInt8} {c : Char} {ds : List Nat}

/-- A number does not go on here. -/
def Stops (rest : List UInt8) : Prop :=
  ∀ b ∈ rest.head?, isDigit b = false ∧ b ≠ byte '.' ∧ isExponentMark b = false

theorem stops_cons {b : UInt8}
    (hb : isDigit b = false ∧ b ≠ byte '.' ∧ isExponentMark b = false) (rest : List UInt8) :
    Stops (b :: rest) := by
  intro b' hb'
  cases hb'
  exact hb

/-- The integer fits into a 64-bit word: into a signed one, if it is negative. -/
def FitsWord (n : Int) : Prop := -0x8000000000000000 ≤ n ∧ n ≤ maxWord

/-! ### Digits -/

/-- The number that a digit of a text stands for. -/
def digitValue (c : Char) : Nat := c.toNat - 48

/-- The number that `sum` becomes by appending all the digits to it. -/
def appended (sum : Nat) : List Nat → Nat
  | [] => sum
  | d :: ds => appended (sum * 10 + d) ds

theorem le_appended (sum : Nat) (ds : List Nat) : sum ≤ appended sum ds := by
  induction ds generalizing sum with
  | nil => exact Nat.le_refl sum
  | cons d ds ih =>
    have hle : sum ≤ sum * 10 + d := by omega
    exact Nat.le_trans hle (ih _)

/-- All digits are appended if the number is within the limit then. -/
theorem appendDigits_of_le {limit sum : Nat} (h : appended sum ds ≤ limit) :
    appendDigits limit sum ds = (appended sum ds, 0) := by
  induction ds generalizing sum with
  | nil => rfl
  | cons d ds ih =>
    have hle := Nat.le_trans (le_appended (sum * 10 + d) ds) h
    rw [appendDigits, if_neg (Nat.not_lt.2 hle), ih h, appended]

/-- Some digits are left if the number is past the limit then. -/
theorem appendDigits_of_lt {limit sum : Nat} (hsum : sum ≤ limit) (h : limit < appended sum ds) :
    (appendDigits limit sum ds).2 ≠ 0 := by
  induction ds generalizing sum with
  | nil => exact absurd hsum (Nat.not_le.2 h)
  | cons d ds ih =>
    rw [appendDigits]
    split
    · exact Nat.succ_ne_zero _
    · next hle => exact ih (Nat.not_lt.1 hle) h

theorem appended_map_digitValue (sum : Nat) (cs : List Char) :
    appended sum (cs.map digitValue) = Nat.ofDigitChars 10 cs sum := by
  induction cs generalizing sum with
  | nil => rfl
  | cons c cs ih =>
    rw [List.map_cons, appended, ih, Nat.ofDigitChars_cons, digitValue, Nat.mul_comm]
    rfl

/-- The digits of a number are those of that number. -/
theorem appended_toDigits (n : Nat) :
    appended 0 ((Nat.toDigits 10 n).map digitValue) = n :=
  (appended_map_digitValue 0 _).trans Nat.ofDigitChars_ten_toDigits

/-- The digits of a number within the limit make up that number. -/
theorem appendDigits_toDigits {limit : Nat} (hn : n ≤ limit) :
    appendDigits limit 0 ((Nat.toDigits 10 n).map digitValue) = (n, 0) := by
  rw [← appended_toDigits n] at hn
  rw [appendDigits_of_le hn, appended_toDigits]

theorem digitChar_ne_zero (hn : 0 < n) (hlt : n < 10) : n.digitChar ≠ '0' := by
  have hall : ∀ d < 10, 0 < d → d.digitChar ≠ '0' := by decide
  exact hall n hlt hn

/-- The first digit of a number is zero just if that is its only one. -/
theorem toDigits_cons (n : Nat) :
    ∃ c cs, Nat.toDigits 10 n = c :: cs ∧ (0 < n → c ≠ '0') ∧ (n < 10 → cs = []) := by
  induction n using Nat.strongRecOn with
  | ind n ih =>
    rcases Nat.lt_or_ge n 10 with hlt | hge
    · exact ⟨n.digitChar, [], Nat.toDigits_of_lt_base hlt, fun hn => digitChar_ne_zero hn hlt,
        fun _ => rfl⟩
    · obtain ⟨c, cs, hcs, hc, -⟩ := ih (n / 10) (by omega)
      refine ⟨c, cs ++ [(n % 10).digitChar], ?_, fun _ => hc (by omega), fun _ => by omega⟩
      rw [Nat.toDigits_of_base_le (by decide) hge, hcs, List.cons_append]

/-! ### Bytes of digits -/

theorem isAscii_of_isDigit (hc : c.isDigit) : IsAscii c := by
  rw [Char.isDigit_iff_toNat] at hc
  exact Nat.lt_of_le_of_lt hc.2 (by decide)

theorem isDigit_byte (hc : c.isDigit) : isDigit (byte c) := by
  have hval := toNat_byte (isAscii_of_isDigit hc)
  rw [Char.isDigit_iff_toNat] at hc
  rw [isDigit, Bool.and_eq_true, decide_eq_true_iff, decide_eq_true_iff, UInt8.le_iff_toNat_le,
    UInt8.le_iff_toNat_le, hval]
  exact hc

theorem isDigit_of_mem_toDigits (hc : c ∈ Nat.toDigits 10 n) : c.isDigit :=
  Nat.isDigit_of_mem_toDigits (by decide) (by decide) hc

theorem encode_toDigits (n : Nat) :
    Utf8.encode (Nat.toDigits 10 n) = (Nat.toDigits 10 n).map byte :=
  encode_of_isAscii fun _ hc => isAscii_of_isDigit (isDigit_of_mem_toDigits hc)

/-- The first byte of a number is a digit. -/
theorem encode_toDigits_cons (n : Nat) :
    ∃ b more, Utf8.encode (Nat.toDigits 10 n) = b :: more ∧ isDigit b := by
  obtain ⟨c, cs, hcs, -, -⟩ := toDigits_cons n
  have hmem : c ∈ Nat.toDigits 10 n := hcs ▸ List.mem_cons_self
  rw [encode_toDigits, hcs]
  exact ⟨byte c, cs.map byte, rfl, isDigit_byte (isDigit_of_mem_toDigits hmem)⟩

/-! ### Numbers -/

theorem digits_eq {cs : List Char} (hcs : ∀ c ∈ cs, c.isDigit) (hrest : Stops rest) :
    digits (cs.map byte ++ rest) = .ok (cs.map digitValue, rest) := by
  have hbytes : ∀ b ∈ cs.map byte, isDigit b := by
    intro b hb
    obtain ⟨c, hc, rfl⟩ := List.mem_map.1 hb
    exact isDigit_byte (hcs c hc)
  have hstop : rest.takeWhile isDigit = [] ∧ rest.dropWhile isDigit = rest := by
    cases rest with
    | nil => exact ⟨rfl, rfl⟩
    | cons b rest =>
      have hb : ¬isDigit b := by
        rw [(hrest b rfl).1]
        exact Bool.false_ne_true
      exact ⟨List.takeWhile_cons_of_neg hb, List.dropWhile_cons_of_neg hb⟩
  have hvalues : (cs.map byte).map (fun b => b.toNat - 48) = cs.map digitValue := by
    rw [List.map_map]
    refine List.map_congr_left fun c hc => ?_
    exact congrArg (· - 48) (toNat_byte (isAscii_of_isDigit (hcs c hc)))
  rw [digits, bind_eq (get_eq _), bind_eq (set_eq _ _), pure_eq,
    List.takeWhile_append_of_pos hbytes, List.dropWhile_append_of_pos hbytes, hstop.1, hstop.2,
    List.append_nil, hvalues]

theorem digits₁_eq {cs : List Char} (hc : c.isDigit) (hcs : ∀ c ∈ cs, c.isDigit)
    (hrest : Stops rest) :
    digits₁ ((c :: cs).map byte ++ rest) = .ok ((c :: cs).map digitValue, rest) := by
  rw [digits₁, List.map_cons, List.cons_append, bind_eq (peek_cons _ _)]
  dsimp only
  rw [if_pos (isDigit_byte hc), ← List.cons_append, ← List.map_cons]
  exact digits_eq (List.forall_mem_cons.2 ⟨hc, hcs⟩) hrest

theorem digitValue_pos (hc : c.isDigit) (hzero : c ≠ '0') : 0 < digitValue c := by
  have hle := (Char.isDigit_iff_toNat.1 hc).1
  have hne : c.toNat ≠ '0'.toNat := fun h => hzero (Char.toNat_inj.1 h)
  exact Nat.sub_pos_of_lt (Nat.lt_of_le_of_ne hle hne.symm)

/-- The digits of a number have no zero before them. -/
theorem wholeDigits_toDigits (n : Nat) (hrest : Stops rest) :
    wholeDigits (Utf8.encode (Nat.toDigits 10 n) ++ rest) =
      .ok ((Nat.toDigits 10 n).map digitValue, rest) := by
  obtain ⟨c, cs, hcs, hc, hnone⟩ := toDigits_cons n
  have hdigit : ∀ c' ∈ c :: cs, c'.isDigit := fun _ h => isDigit_of_mem_toDigits (hcs ▸ h)
  obtain ⟨hfirst, hothers⟩ := List.forall_mem_cons.1 hdigit
  rw [encode_toDigits, hcs, wholeDigits, bind_eq (digits₁_eq hfirst hothers hrest)]
  cases cs with
  | nil =>
    rw [List.map_singleton]
    cases digitValue c <;> rfl
  | cons c' cs =>
    have hpos := digitValue_pos hfirst (hc (Nat.pos_of_ne_zero fun h => by cases hnone (by omega)))
    obtain ⟨k, hk⟩ := Nat.exists_eq_succ_of_ne_zero (Nat.ne_of_gt hpos)
    rw [List.map_cons, List.map_cons, hk]
    rfl

/-- The numeral of an integer. -/
def ofDigits (negative : Bool) (n : Nat) : Numeral :=
  ⟨negative, (Nat.toDigits 10 n).map digitValue, none, none⟩

theorem encode_writeInteger (n : Int) :
    Utf8.encode (writeInteger n) =
      (if n < 0 then [byte '-'] else []) ++ Utf8.encode (Nat.toDigits 10 n.natAbs) := by
  rw [writeInteger]
  split <;> rfl

theorem numeral_writeInteger (n : Int) (hrest : Stops rest) :
    numeral (Utf8.encode (writeInteger n) ++ rest) = .ok (ofDigits (n < 0) n.natAbs, rest) := by
  have hpeek : peek rest = .ok (rest.head?, rest) := rfl
  have hpoint : rest.head? ≠ some (byte '.') := fun h => (hrest _ h).2.1 rfl
  have hmark : ¬rest.head?.any isExponentMark := by
    rw [Option.any_eq_true]
    rintro ⟨b, hb, hmark⟩
    exact Bool.false_ne_true ((hrest b hb).2.2.symm.trans hmark)
  rw [numeral, encode_writeInteger, List.append_assoc]
  refine (bind_eq (?_ : _ =
    Except.ok (decide (n < 0), Utf8.encode (Nat.toDigits 10 n.natAbs) ++ rest))).trans ?_
  · by_cases hn : n < 0
    · rw [if_pos hn, List.singleton_append, bind_eq (peek_cons _ _), if_pos rfl, decide_eq_true hn]
      rfl
    · obtain ⟨b, more, hbytes, hb⟩ := encode_toDigits_cons n.natAbs
      have hminus : some b ≠ some (byte '-') := by
        rintro ⟨⟩
        exact absurd hb (by decide)
      rw [if_neg hn, List.nil_append, hbytes, List.cons_append, bind_eq (peek_cons _ _),
        if_neg hminus, decide_eq_false hn]
      rfl
  · rw [bind_eq (wholeDigits_toDigits n.natAbs hrest)]
    refine (bind_eq (?_ : _ = Except.ok (none, rest))).trans ?_
    · rw [bind_eq hpeek, if_neg hpoint]
      rfl
    · refine (bind_eq (?_ : _ = Except.ok (none, rest))).trans ?_
      · rw [bind_eq hpeek, if_neg hmark]
        rfl
      · rfl

theorem value_ofDigits {n : Int} (hn : FitsWord n) :
    (ofDigits (n < 0) n.natAbs).value = .ok (.integer n) := by
  obtain ⟨hlow, hhigh⟩ := hn
  have hmax : (maxWord : Int) = 0xFFFFFFFFFFFFFFFF := rfl
  have hle : n.natAbs ≤ maxWord := by omega
  rw [Numeral.value]
  dsimp only [ofDigits]
  rw [appendDigits_toDigits hle]
  dsimp only
  refine (if_neg fun h => h rfl).trans ?_
  by_cases hneg : n < 0
  · have hrange : ¬(n.natAbs = 0 || 0x8000000000000000 < n.natAbs) := by
      rw [Bool.or_eq_true, decide_eq_true_iff, decide_eq_true_iff]
      omega
    have hvalue : -(n.natAbs : Int) = n := by omega
    rw [decide_eq_true hneg, hvalue]
    exact (if_neg Bool.false_ne_true).trans (if_neg hrange)
  · have hvalue : (n.natAbs : Int) = n := by omega
    rw [decide_eq_false hneg, hvalue]
    exact if_pos rfl

theorem toFloat_ne_integer (negative : Bool) (significand : Nat) (e k : Int) :
    Numeral.toFloat negative significand e ≠ .ok (.integer k) := by
  rw [Numeral.toFloat]
  cases scale (UInt64.ofNat significand).toFloat e with
  | ok x => exact nofun
  | error e => exact nofun

/-- An integer that does not fit into a word has no integer for its value. -/
theorem value_ofDigits_ne_integer {n : Int} (hn : ¬FitsWord n) (k : Int) :
    (ofDigits (n < 0) n.natAbs).value ≠ .ok (.integer k) := by
  have hmax : (maxWord : Int) = 0xFFFFFFFFFFFFFFFF := rfl
  rw [Numeral.value]
  dsimp only [ofDigits]
  rcases Nat.lt_or_ge maxWord n.natAbs with hlt | hle
  · have hdropped : (appendDigits maxWord 0 ((Nat.toDigits 10 n.natAbs).map digitValue)).2 ≠ 0 := by
      refine appendDigits_of_lt (Nat.zero_le _) ?_
      rwa [appended_toDigits]
    rw [if_pos hdropped]
    exact toFloat_ne_integer _ _ _ k
  · have hlow : ¬-0x8000000000000000 ≤ n := fun hlow => hn ⟨hlow, by omega⟩
    have hneg : n < 0 := by omega
    have hrange : (n.natAbs = 0 || 0x8000000000000000 < n.natAbs) = true := by
      rw [Bool.or_eq_true, decide_eq_true_iff, decide_eq_true_iff]
      omega
    rw [appendDigits_toDigits hle, decide_eq_true hneg]
    refine ne_of_eq_of_ne ((if_neg fun h => h rfl).trans ?_) (toFloat_ne_integer true n.natAbs 0 k)
    exact (if_neg Bool.false_ne_true).trans (if_pos hrange)

/-- An integer is read as it is written. -/
theorem number_writeInteger {n : Int} (hn : FitsWord n) (hrest : Stops rest) :
    number (Utf8.encode (writeInteger n) ++ rest) = .ok (.integer n, rest) := by
  rw [number, bind_eq (numeral_writeInteger n hrest), value_ofDigits hn]
  rfl

/-- What is written of an integer is read as an integer just if it fits into a word. -/
theorem number_writeInteger_eq_ok_iff {n k : Int} {rest' : List UInt8} (hrest : Stops rest) :
    number (Utf8.encode (writeInteger n) ++ rest) = .ok (.integer k, rest') ↔
      FitsWord n ∧ k = n ∧ rest' = rest := by
  by_cases hn : FitsWord n
  · rw [number_writeInteger hn hrest, Except.ok.injEq, Prod.mk.injEq, Number.integer.injEq,
      eq_comm (a := n), eq_comm (a := rest), and_iff_right hn]
  · refine iff_of_false (fun h => ?_) fun h => hn h.1
    rw [number, bind_eq (numeral_writeInteger n hrest)] at h
    have hvalue := value_ofDigits_ne_integer hn k
    cases hcases : (ofDigits (n < 0) n.natAbs).value with
    | ok v =>
      rw [hcases] at h hvalue
      cases h
      exact hvalue rfl
    | error e =>
      rw [hcases] at h
      cases h

end GridRobot.Json
