import GridRobot.Json.Reader

/-!
# What readers take

A reader that succeeds takes the front of a text and leaves the rest
with which the next one goes on (`bind_eq`, `bind_eq_ok_iff`). Blanks before a
value are passed over (`token_eq`, `token_eq_ok_iff`), and a fixed word is taken
where it stands (`word_append`). How much a reader takes at least follows from its
parts (`Reader.Takes`).
-/

namespace GridRobot.Json

variable {α β : Type} {before rest rest' : List UInt8} {b : UInt8} {n : Nat}

/-- A reader goes on with what the one before it has left. -/
theorem bind_eq {read : Reader α} {next : α → Reader β} {a : α} {text : List UInt8}
    (h : read text = .ok (a, rest)) : (read >>= next) text = next a rest := by
  show read text >>= _ = _
  rw [h]
  rfl

/-- Nothing but blanks. -/
def Blank (bytes : List UInt8) : Prop := ∀ b ∈ bytes, isBlank b

instance (bytes : List UInt8) : Decidable (Blank bytes) :=
  decidable_of_iff (bytes.all isBlank) List.all_eq_true

theorem blank_nil : Blank [] := List.forall_mem_nil _

theorem token?_eq (hbefore : Blank before) (hb : isBlank b = false) (rest : List UInt8) :
    token? (before ++ b :: rest) = .ok (some b, b :: rest) := by
  have hdrop : (before ++ b :: rest).dropWhile isBlank = b :: rest := by
    rw [List.dropWhile_append_of_pos hbefore, List.dropWhile_cons_of_neg (Bool.eq_false_iff.1 hb)]
  have hmodify : (modify (·.dropWhile isBlank) : Reader Unit) (before ++ b :: rest) =
      .ok ((), b :: rest) :=
    congrArg (fun text => Except.ok ((), text)) hdrop
  rw [token?, bind_eq hmodify]
  rfl

/-- Blanks before a byte are passed over. -/
theorem token_eq (hbefore : Blank before) (hb : isBlank b = false) (rest : List UInt8) :
    token (before ++ b :: rest) = .ok (b, b :: rest) := by
  rw [token, bind_eq (token?_eq hbefore hb rest)]
  rfl

theorem token_cons (b : UInt8) (hb : isBlank b = false) (rest : List UInt8) :
    token (b :: rest) = .ok (b, b :: rest) :=
  token_eq blank_nil hb rest

theorem skip_eq (text : List UInt8) : skip text = .ok ((), text.drop 1) := rfl

theorem skip_cons (b : UInt8) (rest : List UInt8) : skip (b :: rest) = .ok ((), rest) := rfl

theorem peek_cons (b : UInt8) (rest : List UInt8) : peek (b :: rest) = .ok (some b, b :: rest) :=
  rfl

theorem word_append (bytes rest : List UInt8) : word bytes (bytes ++ rest) = .ok ((), rest) := by
  induction bytes with
  | nil => rfl
  | cons b bytes ih =>
    rw [word, List.cons_append, bind_eq (peek_cons b _)]
    dsimp only
    rw [if_pos rfl, bind_eq (skip_cons b _), ih]

theorem get_eq (rest : List UInt8) : (get : Reader _) rest = .ok (rest, rest) := rfl

theorem set_eq (rest text : List UInt8) : (set rest : Reader Unit) text = .ok ((), rest) := rfl

/-- What needs no text leaves it as it is. -/
theorem lift_eq {x : Except Error α} {a : α} (h : x = .ok a) (rest : List UInt8) :
    (liftM x : Reader α) rest = .ok (a, rest) := by
  rw [h]
  rfl

theorem settle_ok (a : α) (rest : List UInt8) : settle (.ok a) rest = .ok (a, rest) := rfl

theorem pure_eq (a : α) (rest : List UInt8) : (pure a : Reader α) rest = .ok (a, rest) := rfl

/-! ### When readers succeed -/

section Outcome

variable {text : List UInt8} {a : α}

theorem outcome_bind_eq_ok_iff {ε : Type} {x : Except ε α} {f : α → Except ε β} {b : β} :
    (x >>= f) = .ok b ↔ ∃ a, x = .ok a ∧ f a = .ok b := by
  constructor
  · intro h
    cases x with
    | ok a => exact ⟨a, rfl, h⟩
    | error e => cases h
  · rintro ⟨a, rfl, h⟩
    exact h

theorem outcome_pure_eq_ok_iff {ε : Type} {b : α} : (pure a : Except ε α) = .ok b ↔ a = b := by
  show Except.ok a = Except.ok b ↔ _
  rw [Except.ok.injEq]

/-- Two readers in a row succeed if the second one does where the first one left off. -/
theorem bind_eq_ok_iff {read : Reader α} {next : α → Reader β} {b : β} :
    (read >>= next) text = .ok (b, rest) ↔
      ∃ a mid, read text = .ok (a, mid) ∧ next a mid = .ok (b, rest) := by
  constructor
  · intro h
    obtain ⟨r, hread, hnext⟩ := outcome_bind_eq_ok_iff.1 h
    exact ⟨r.1, r.2, hread, hnext⟩
  · rintro ⟨a, mid, hread, hnext⟩
    rw [bind_eq hread, hnext]

theorem pure_eq_ok_iff {a' : α} :
    (pure a : Reader α) text = .ok (a', rest) ↔ a = a' ∧ text = rest := by
  rw [pure_eq, Except.ok.injEq, Prod.mk.injEq]

theorem throw_eq_ok_iff {e : Error} : (throw e : Reader α) text = .ok (a, rest) ↔ False :=
  iff_false_intro nofun

theorem mismatch_eq_ok_iff {fault : Fault} :
    (mismatch fault : Reader α) text = .ok (a, rest) ↔ False := throw_eq_ok_iff

theorem ite_eq_ok_iff {c : Prop} [Decidable c] {read read' : Reader α} :
    (if c then read else read') text = .ok (a, rest) ↔
      c ∧ read text = .ok (a, rest) ∨ ¬c ∧ read' text = .ok (a, rest) := by
  by_cases hc : c
  · simp only [hc, if_true, true_and, not_true, false_and, or_false]
  · simp only [hc, if_false, false_and, not_false_iff, true_and, false_or]

theorem skip_eq_ok_iff {u : Unit} : skip text = .ok (u, rest) ↔ text.drop 1 = rest := by
  rw [skip_eq, Except.ok.injEq, Prod.mk.injEq, and_iff_right rfl]

theorem peek_eq_ok_iff {b? : Option UInt8} :
    peek text = .ok (b?, rest) ↔ text.head? = b? ∧ text = rest := by
  show Except.ok (text.head?, text) = Except.ok (b?, rest) ↔ _
  rw [Except.ok.injEq, Prod.mk.injEq]

theorem settle_eq_ok_iff {x : Except Fault α} :
    settle x text = .ok (a, rest) ↔ x = .ok a ∧ text = rest := by
  cases x with
  | ok a' => rw [settle, pure_eq_ok_iff, Except.ok.injEq]
  | error fault => simp only [settle, mismatch_eq_ok_iff, reduceCtorEq, false_and]

theorem lift_eq_ok_iff {x : Except Error α} :
    (liftM x : Reader α) text = .ok (a, rest) ↔ x = .ok a ∧ text = rest := by
  cases x with
  | ok a' => rw [lift_eq rfl, Except.ok.injEq, Except.ok.injEq, Prod.mk.injEq]
  | error e =>
    constructor
    · intro h
      cases h
    · rintro ⟨h, -⟩
      cases h

/-- The next byte is the first one that is not a blank. -/
theorem token_eq_ok_iff :
    token text = .ok (b, rest) ↔ rest = text.dropWhile isBlank ∧ rest.head? = some b := by
  have htoken? : token? text = .ok ((text.dropWhile isBlank).head?, text.dropWhile isBlank) := rfl
  rw [token, bind_eq htoken?]
  cases hhead : (text.dropWhile isBlank).head? with
  | some b' =>
    rw [pure_eq_ok_iff]
    constructor
    · rintro ⟨rfl, rfl⟩
      exact ⟨rfl, hhead⟩
    · rintro ⟨rfl, hb⟩
      exact ⟨Option.some.inj (hhead.symm.trans hb), rfl⟩
  | none =>
    rw [throw_eq_ok_iff, false_iff]
    rintro ⟨rfl, hb⟩
    cases hhead.symm.trans hb

theorem token_of_head (hb : isBlank b = false) (h : text.head? = some b) :
    token text = .ok (b, text) := by
  obtain ⟨more, rfl⟩ := List.head?_eq_some_iff.1 h
  exact token_cons b hb more

/-- What is found after blanks is found there again. -/
theorem token_again (h : token text = .ok (b, rest)) : token rest = .ok (b, rest) := by
  obtain ⟨rfl, hb⟩ := token_eq_ok_iff.1 h
  have hblank := List.head?_dropWhile_not isBlank text
  rw [hb] at hblank
  exact token_of_head hblank hb

end Outcome

/-! ### How much readers take -/

/-- Where the reader succeeds, it has taken `n` bytes or more. -/
structure Reader.Takes (n : Nat) (read : Reader α) : Prop where
  length_le {text rest : List UInt8} {a : α} (h : read text = .ok (a, rest)) :
    rest.length + n ≤ text.length

namespace Reader.Takes

theorem bind_left {read : Reader α} {next : α → Reader β} (h : Takes n read)
    (hnext : ∀ a, Takes 0 (next a)) : Takes n (read >>= next) := by
  refine ⟨fun hread => ?_⟩
  obtain ⟨a, mid, ha, hb⟩ := bind_eq_ok_iff.1 hread
  have hmid := h.length_le ha
  have hrest := (hnext a).length_le hb
  omega

theorem bind_right {read : Reader α} {next : α → Reader β} (h : Takes 0 read)
    (hnext : ∀ a, Takes n (next a)) : Takes n (read >>= next) := by
  refine ⟨fun hread => ?_⟩
  obtain ⟨a, mid, ha, hb⟩ := bind_eq_ok_iff.1 hread
  have hmid := h.length_le ha
  have hrest := (hnext a).length_le hb
  omega

theorem pure (a : α) : Takes 0 (Pure.pure a) := by
  refine ⟨fun h => ?_⟩
  rw [(pure_eq_ok_iff.1 h).2]
  exact Nat.le_refl _

theorem throw (e : Error) : Takes n (throw e : Reader α) :=
  ⟨fun h => (throw_eq_ok_iff.1 h).elim⟩

theorem ite {c : Prop} [Decidable c] {read read' : Reader α} (h : Takes n read)
    (h' : Takes n read') : Takes n (if c then read else read') := by
  split
  · exact h
  · exact h'

theorem zero {read : Reader α} (h : Takes n read) : Takes 0 read :=
  ⟨fun hread => Nat.le_trans (Nat.add_le_add_left (Nat.zero_le n) _) (h.length_le hread)⟩

end Reader.Takes

open Reader (Takes)

theorem peek_takes : Takes 0 peek := by
  refine ⟨fun h => ?_⟩
  rw [(peek_eq_ok_iff.1 h).2]
  exact Nat.le_refl _

theorem skip_takes : Takes 0 skip := by
  refine ⟨fun h => ?_⟩
  rw [← skip_eq_ok_iff.1 h, List.length_drop]
  exact Nat.sub_le _ _

theorem token_takes : Takes 0 token := by
  refine ⟨fun h => ?_⟩
  rw [(token_eq_ok_iff.1 h).1]
  exact (List.dropWhile_sublist _).length_le

theorem word_takes (bytes : List UInt8) : Takes bytes.length (word bytes) := by
  induction bytes with
  | nil => exact .pure ()
  | cons b bytes ih =>
    refine ⟨fun {text rest u} h => ?_⟩
    obtain ⟨b?, text', hpeek, h⟩ := bind_eq_ok_iff.1 h
    obtain ⟨hhead, rfl⟩ := peek_eq_ok_iff.1 hpeek
    cases b? with
    | none => cases h
    | some b' =>
      obtain ⟨more, rfl⟩ := List.head?_eq_some_iff.1 hhead
      obtain ⟨-, h⟩ | ⟨-, h⟩ := ite_eq_ok_iff.1 h
      · rw [bind_eq (skip_cons b' more)] at h
        exact Nat.succ_le_succ (ih.length_le h)
      · cases h

end GridRobot.Json
