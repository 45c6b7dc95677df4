import GridRobot.Proofs.Json.Number

/-!
# Values are read as they are written

The text of a value begins with a byte that tells what it is, and the lists and
objects in it are read item by item and member by member, so that a value in
which all numbers are integers of a word is read back where so many levels are
allowed as it has (`Value.Within`, `Value.Within.readsBack`).
-/

namespace GridRobot.Json

variable {v : Value} {vs : List Value} {ms : List (String × Value)} {before rest : List UInt8}
  {b : UInt8} {depth fuel : Nat} {first : Bool} {name : String}

/-! ### Texts of values -/

namespace Value

/-- The bytes of the text of a value. -/
def bytes (v : Value) : List UInt8 := Utf8.encode v.render.toList

theorem bytes_eq (v : Value) : v.bytes = Utf8.encode v.write := by
  rw [bytes, render, String.toList_ofList]

/-- All numbers in a value are integers of a word, and fewer than `depth` lists and objects stand
    one within the other. -/
inductive Within : Nat → Value → Prop
  | null (depth : Nat) : Within depth .null
  | boolean (depth : Nat) (b : Bool) : Within depth (.boolean b)
  | integer (depth : Nat) {n : Int} (hn : FitsWord n) : Within depth (.number (.integer n))
  | text (depth : Nat) (s : String) : Within depth (.text s)
  | list {depth : Nat} {vs : List Value} (h : ∀ v ∈ vs, Within (depth + 1) v) :
    Within (depth + 2) (.list vs)
  | object {depth : Nat} {ms : List (String × Value)} (h : ∀ m ∈ ms, Within (depth + 1) m.2) :
    Within (depth + 2) (.object ms)

end Value

/-- The bytes of the items of a list. -/
def itemBytes (first : Bool) (vs : List Value) : List UInt8 := Utf8.encode (writeItems first vs)

/-- The bytes of the members of an object. -/
def memberBytes (first : Bool) (ms : List (String × Value)) : List UInt8 :=
  Utf8.encode (writeMembers first ms)

/-- What stands between two values. -/
def comma (first : Bool) : List UInt8 := if first then [] else [byte ',']

theorem itemBytes_nil (first : Bool) : itemBytes first [] = [] := rfl

theorem itemBytes_cons (first : Bool) (v : Value) (vs : List Value) :
    itemBytes first (v :: vs) = comma first ++ v.bytes ++ itemBytes false vs := by
  rw [itemBytes, writeItems, Utf8.encode_append, Utf8.encode_append, Value.bytes_eq]
  cases first <;> rfl

theorem memberBytes_nil (first : Bool) : memberBytes first [] = [] := rfl

theorem memberBytes_cons (first : Bool) (name : String) (v : Value) (ms : List (String × Value)) :
    memberBytes first ((name, v) :: ms) =
      comma first ++ (Utf8.encode (writeText name) ++ byte ':' :: v.bytes) ++
        memberBytes false ms := by
  rw [memberBytes, writeMembers, Utf8.encode_append, Utf8.encode_append, Utf8.encode_append,
    Value.bytes_eq, List.append_assoc (Utf8.encode _) (Utf8.encode (writeText name))]
  cases first <;> rfl

theorem bytes_list (vs : List Value) :
    (Value.list vs).bytes = byte '[' :: itemBytes true vs ++ [byte ']'] := by
  rw [Value.bytes_eq, Value.write, Utf8.encode_append]
  rfl

theorem bytes_object (ms : List (String × Value)) :
    (Value.object ms).bytes = byte '\x7b' :: memberBytes true ms ++ [byte '\x7d'] := by
  rw [Value.bytes_eq, Value.write, Utf8.encode_append]
  rfl

theorem bytes_list_append (vs : List Value) (rest : List UInt8) :
    (Value.list vs).bytes ++ rest = byte '[' :: (itemBytes true vs ++ byte ']' :: rest) := by
  rw [bytes_list, List.append_assoc]
  rfl

theorem bytes_object_append (ms : List (String × Value)) (rest : List UInt8) :
    (Value.object ms).bytes ++ rest =
      byte '\x7b' :: (memberBytes true ms ++ byte '\x7d' :: rest) := by
  rw [bytes_object, List.append_assoc]
  rfl

theorem bytes_null : Value.null.bytes = [byte 'n', byte 'u', byte 'l', byte 'l'] := rfl

theorem bytes_true : (Value.boolean true).bytes = [byte 't', byte 'r', byte 'u', byte 'e'] := rfl

theorem bytes_false :
    (Value.boolean false).bytes = [byte 'f', byte 'a', byte 'l', byte 's', byte 'e'] := rfl

theorem bytes_text (s : String) : (Value.text s).bytes = Utf8.encode (writeText s) :=
  Value.bytes_eq _

theorem bytes_integer (n : Int) :
    (Value.number (.integer n)).bytes = Utf8.encode (writeInteger n) := Value.bytes_eq _

theorem encode_writeText (s : String) :
    ∃ more, Utf8.encode (writeText s) = byte '"' :: more := ⟨_, rfl⟩

/-- An integer begins with a minus or a digit. -/
theorem encode_writeInteger_cons (n : Int) :
    ∃ b more, Utf8.encode (writeInteger n) = b :: more ∧ (b = byte '-' ∨ isDigit b) := by
  rw [encode_writeInteger]
  by_cases hn : n < 0
  · rw [if_pos hn]
    exact ⟨_, _, rfl, .inl rfl⟩
  · obtain ⟨b, more, hbytes, hb⟩ := encode_toDigits_cons n.natAbs
    rw [if_neg hn, hbytes]
    exact ⟨b, more, rfl, .inr hb⟩

theorem isBlank_of_integer (hb : b = byte '-' ∨ isDigit b) :
    isBlank b = false ∧ b ≠ byte ']' := by
  have hne (c : UInt8) (hminus : c ≠ byte '-') (hc : isDigit c = false) : b ≠ c := by
    rintro rfl
    exact hb.elim hminus fun hb => Bool.false_ne_true (hc.symm.trans hb)
  have hspace := hne (byte ' ') (by decide) (by decide)
  have hnewline := hne (byte '\n') (by decide) (by decide)
  have htab := hne (byte '\t') (by decide) (by decide)
  have hreturn := hne (byte '\r') (by decide) (by decide)
  refine ⟨?_, hne _ (by decide) (by decide)⟩
  rw [isBlank, decide_eq_false hspace, decide_eq_false hnewline, decide_eq_false htab,
    decide_eq_false hreturn]
  rfl

/-- A minus or a digit begins a number. -/
theorem start_of_integer (hb : b = byte '-' ∨ isDigit b) :
    Start.of b = .minus ∨ Start.of b = .digit := by
  rcases hb with rfl | hb
  · exact .inl rfl
  · have hne (c : UInt8) (hc : isDigit c = false) : b ≠ c := by
      rintro rfl
      exact Bool.false_ne_true (hc.symm.trans hb)
    refine .inr ?_
    rw [Start.of, if_neg (hne _ (by decide)), if_neg (hne _ (by decide)),
      if_neg (hne _ (by decide)), if_neg (hne _ (by decide)), if_pos hb]

/-- A value begins with a byte that is neither a blank nor the end of a list. -/
theorem Value.Within.bytes_cons (h : v.Within depth) :
    ∃ b more, v.bytes = b :: more ∧ isBlank b = false ∧ b ≠ byte ']' := by
  cases h with
  | null => exact ⟨_, _, rfl, by decide, by decide⟩
  | boolean _ b =>
    cases b with
    | false => exact ⟨_, _, rfl, by decide, by decide⟩
    | true => exact ⟨_, _, rfl, by decide, by decide⟩
  | integer _ hn =>
    obtain ⟨b, more, hbytes, hb⟩ := encode_writeInteger_cons _
    exact ⟨b, more, (bytes_integer _).trans hbytes, isBlank_of_integer hb⟩
  | text _ s =>
    obtain ⟨more, hbytes⟩ := encode_writeText s
    exact ⟨_, more, (bytes_text s).trans hbytes, by decide, by decide⟩
  | list => exact ⟨_, _, bytes_list _, by decide, by decide⟩
  | object => exact ⟨_, _, bytes_object _, by decide, by decide⟩

/-! ### Between values -/

theorem moreItems_close (first : Bool) (rest : List UInt8) :
    moreItems first (byte ']' :: rest) = .ok (false, byte ']' :: rest) := by
  rw [moreItems, bind_eq (token_cons (byte ']') (by decide) rest)]
  rfl

/-- Another item follows, after a comma if it is not the first. -/
theorem moreItems_comma (first : Bool) (hblank : isBlank b = false) (hb : b ≠ byte ']')
    (rest : List UInt8) : moreItems first (comma first ++ b :: rest) = .ok (true, b :: rest) := by
  have htoken : token (b :: rest) = .ok (b, b :: rest) := token_cons b hblank rest
  cases first with
  | true =>
    rw [moreItems, comma, if_pos rfl, List.nil_append, bind_eq htoken, if_neg hb, if_pos rfl]
    rfl
  | false =>
    rw [moreItems, comma, if_neg Bool.false_ne_true, List.singleton_append,
      bind_eq (token_cons (byte ',') (by decide) _), if_neg (by decide),
      if_neg Bool.false_ne_true, if_pos rfl, bind_eq (skip_cons _ _), bind_eq htoken, if_neg hb]
    rfl

theorem moreMembers_close (first : Bool) (rest : List UInt8) :
    moreMembers first (byte '\x7d' :: rest) = .ok (false, byte '\x7d' :: rest) := by
  rw [moreMembers, bind_eq (token_cons (byte '\x7d') (by decide) rest)]
  rfl

theorem moreMembers_comma (first : Bool) (rest : List UInt8) :
    moreMembers first (comma first ++ byte '"' :: rest) = .ok (true, byte '"' :: rest) := by
  have htoken : token (byte '"' :: rest) = .ok (byte '"', byte '"' :: rest) :=
    token_cons _ (by decide) rest
  cases first with
  | true =>
    rw [moreMembers, comma, if_pos rfl, List.nil_append, bind_eq htoken]
    rfl
  | false =>
    rw [moreMembers, comma, if_neg Bool.false_ne_true, List.singleton_append,
      bind_eq (token_cons (byte ',') (by decide) _), if_neg (by decide),
      if_neg Bool.false_ne_true, if_pos rfl, bind_eq (skip_cons _ _), bind_eq htoken]
    rfl

theorem closeObject_eq (rest : List UInt8) : closeObject (byte '\x7d' :: rest) = .ok ((), rest) := by
  rw [closeObject, bind_eq (token_cons (byte '\x7d') (by decide) rest)]
  rfl

theorem colon_eq (rest : List UInt8) : colon (byte ':' :: rest) = .ok ((), rest) := by
  rw [colon, bind_eq (token_cons (byte ':') (by decide) rest)]
  rfl

/-- After an item, a number does not go on. -/
theorem stops_itemBytes (vs : List Value) (rest : List UInt8) :
    Stops (itemBytes false vs ++ byte ']' :: rest) := by
  cases vs with
  | nil => exact stops_cons (by decide) rest
  | cons v vs =>
    rw [itemBytes_cons]
    exact stops_cons (b := byte ',') (by decide) _

theorem stops_memberBytes (ms : List (String × Value)) (rest : List UInt8) :
    Stops (memberBytes false ms ++ byte '\x7d' :: rest) := by
  cases ms with
  | nil => exact stops_cons (by decide) rest
  | cons m ms =>
    rw [memberBytes_cons]
    exact stops_cons (b := byte ',') (by decide) _

/-! ### Trees -/

/-- The value is read as it is written, where `depth` levels are allowed. -/
def Value.ReadsBack (depth : Nat) (v : Value) : Prop :=
  ∀ fuel, 2 * v.bytes.length ≤ fuel → ∀ {before rest : List UInt8}, Blank before → Stops rest →
    valueWithin .kept fuel depth (before ++ (v.bytes ++ rest)) = .ok (v, rest)

theorem Value.Within.exists_eq_succ (h : v.Within depth) (hfuel : 2 * v.bytes.length ≤ fuel) :
    ∃ k, fuel = k + 1 := by
  obtain ⟨b, more, hbytes, -⟩ := h.bytes_cons
  rw [hbytes, List.length_cons] at hfuel
  exact Nat.exists_eq_succ_of_ne_zero (by omega)

/-- The items of a list are read as they are written. -/
theorem itemsWithin_itemBytes (hwithin : ∀ v ∈ vs, v.Within depth)
    (hvs : ∀ v ∈ vs, v.ReadsBack depth) (hfuel : 2 * (itemBytes first vs).length < fuel)
    (rest : List UInt8) :
    itemsWithin .kept fuel depth first (itemBytes first vs ++ byte ']' :: rest) =
      .ok (vs, rest) := by
  induction vs generalizing first fuel with
  | nil =>
    obtain ⟨fuel, rfl⟩ := Nat.exists_eq_succ_of_ne_zero (Nat.ne_zero_of_lt hfuel)
    rw [itemsWithin, itemBytes_nil, List.nil_append, bind_eq (moreItems_close first rest)]
    rfl
  | cons v vs ih =>
    obtain ⟨fuel, rfl⟩ := Nat.exists_eq_succ_of_ne_zero (Nat.ne_zero_of_lt hfuel)
    obtain ⟨hwithin, hwithin'⟩ := List.forall_mem_cons.1 hwithin
    obtain ⟨hv, hvs⟩ := List.forall_mem_cons.1 hvs
    obtain ⟨b, more, hbytes, hblank, hb⟩ := hwithin.bytes_cons
    rw [itemBytes_cons, List.length_append, List.length_append, hbytes, List.length_cons] at hfuel
    have hmore (rest : List UInt8) :
        moreItems first (comma first ++ (v.bytes ++ rest)) = .ok (true, v.bytes ++ rest) := by
      rw [hbytes]
      exact moreItems_comma first hblank hb _
    have hread := hv fuel (by rw [hbytes, List.length_cons]; omega) blank_nil
      (stops_itemBytes vs rest)
    rw [List.nil_append] at hread
    rw [itemsWithin, itemBytes_cons, List.append_assoc, List.append_assoc, bind_eq (hmore _),
      if_pos rfl, bind_eq hread, bind_eq (ih hwithin' hvs (by omega))]
    rfl

/-- A name and the colon after it are read before a value. -/
theorem moreMembers_writeText (first : Bool) (name : String) (rest : List UInt8) :
    moreMembers first (comma first ++ (Utf8.encode (writeText name) ++ rest)) =
      .ok (true, Utf8.encode (writeText name) ++ rest) := by
  obtain ⟨more, hname⟩ := encode_writeText name
  rw [hname]
  exact moreMembers_comma first _

/-- The members of an object are read as they are written. -/
theorem membersWithin_memberBytes (hms : ∀ m ∈ ms, m.2.ReadsBack depth)
    (hfuel : 2 * (memberBytes first ms).length < fuel) (rest : List UInt8) :
    membersWithin .kept fuel depth first (memberBytes first ms ++ byte '\x7d' :: rest) =
      .ok (ms, rest) := by
  induction ms generalizing first fuel with
  | nil =>
    obtain ⟨fuel, rfl⟩ := Nat.exists_eq_succ_of_ne_zero (Nat.ne_zero_of_lt hfuel)
    rw [membersWithin, memberBytes_nil, List.nil_append, bind_eq (moreMembers_close first rest)]
    rfl
  | cons m ms ih =>
    obtain ⟨name, v⟩ := m
    obtain ⟨fuel, rfl⟩ := Nat.exists_eq_succ_of_ne_zero (Nat.ne_zero_of_lt hfuel)
    obtain ⟨hv, hms⟩ := List.forall_mem_cons.1 hms
    rw [memberBytes_cons] at hfuel ⊢
    simp only [List.length_append, List.length_cons] at hfuel
    have hlength : 2 * v.bytes.length ≤ fuel := by omega
    have hread := hv fuel hlength blank_nil (stops_memberBytes ms rest)
    rw [List.nil_append] at hread
    have htext : Leaves.kept.text = text := rfl
    simp only [List.append_assoc, List.cons_append]
    rw [membersWithin, bind_eq (moreMembers_writeText first name _), if_pos rfl, htext,
      bind_eq (text_writeText name _), bind_eq (colon_eq _), bind_eq hread,
      bind_eq (ih hms (by omega))]
    rfl

/-- The first byte of a value is found after blanks. -/
theorem token_bytes {bytes more : List UInt8} (hbytes : bytes = b :: more) (hbefore : Blank before)
    (hblank : isBlank b = false) (rest : List UInt8) :
    token (before ++ (bytes ++ rest)) = .ok (b, bytes ++ rest) := by
  rw [hbytes]
  exact token_eq hbefore hblank _

/-- A list is read item by item, if one more level is allowed. -/
theorem valueWithin_list {leaves : Leaves} {text rest rest' : List UInt8}
    (htoken : token text = .ok (byte '[', byte '[' :: rest))
    (hitems : itemsWithin leaves fuel (depth + 1) true rest = .ok (vs, rest')) :
    valueWithin leaves (fuel + 1) (depth + 2) text = .ok (.list vs, rest') := by
  have hdepth : ¬depth + 2 ≤ 1 := by omega
  rw [valueWithin, bind_eq htoken]
  refine (congrFun (if_neg hdepth) _).trans ?_
  exact (bind_eq (skip_cons _ rest)).trans (bind_eq hitems)

theorem valueWithin_object {leaves : Leaves} {text rest rest' : List UInt8}
    (htoken : token text = .ok (byte '\x7b', byte '\x7b' :: rest))
    (hmembers : membersWithin leaves fuel (depth + 1) true rest = .ok (ms, rest')) :
    valueWithin leaves (fuel + 1) (depth + 2) text = .ok (.object ms, rest') := by
  have hdepth : ¬depth + 2 ≤ 1 := by omega
  rw [valueWithin, bind_eq htoken]
  refine (congrFun (if_neg hdepth) _).trans ?_
  exact (bind_eq (skip_cons _ rest)).trans (bind_eq hmembers)

/-- An object is read as it is written, whatever follows it. -/
theorem valueWithin_objectBytes (hms : ∀ m ∈ ms, m.2.ReadsBack (depth + 1))
    (hfuel : 2 * (Value.object ms).bytes.length ≤ fuel) (hbefore : Blank before)
    (rest : List UInt8) :
    valueWithin .kept fuel (depth + 2) (before ++ ((Value.object ms).bytes ++ rest)) =
      .ok (.object ms, rest) := by
  rw [bytes_object, List.cons_append, List.length_cons, List.length_append,
    List.length_singleton] at hfuel
  obtain ⟨fuel, rfl⟩ : ∃ k, fuel = k + 1 := Nat.exists_eq_succ_of_ne_zero (by omega)
  rw [bytes_object_append]
  exact valueWithin_object (token_eq hbefore (by decide) _)
    (membersWithin_memberBytes hms (by omega) rest)

theorem valueWithin_number {leaves : Leaves} {text rest rest' : List UInt8} {n : Number}
    (htoken : token text = .ok (b, rest)) (hb : Start.of b = .minus ∨ Start.of b = .digit)
    (hnumber : leaves.number rest = .ok (n, rest')) :
    valueWithin leaves (fuel + 1) depth text = .ok (.number n, rest') := by
  rw [valueWithin, bind_eq htoken]
  rcases hb with hb | hb
  · rw [hb]
    exact bind_eq hnumber
  · rw [hb]
    exact bind_eq hnumber

/-- A value is read as it is written. -/
theorem Value.Within.readsBack (h : v.Within depth) : v.ReadsBack depth := by
  induction h with
  | null depth =>
    intro fuel hfuel before rest hbefore _
    obtain ⟨fuel, rfl⟩ := (Value.Within.null depth).exists_eq_succ hfuel
    rw [bytes_null, valueWithin, bind_eq (token_bytes (b := byte 'n') rfl hbefore (by decide) rest)]
    exact (bind_eq (word_append _ rest)).trans rfl
  | boolean depth b =>
    intro fuel hfuel before rest hbefore _
    obtain ⟨fuel, rfl⟩ := (Value.Within.boolean depth b).exists_eq_succ hfuel
    cases b with
    | true =>
      rw [bytes_true, valueWithin, bind_eq (token_bytes (b := byte 't') rfl hbefore (by decide) rest)]
      exact (bind_eq (word_append _ rest)).trans rfl
    | false =>
      rw [bytes_false, valueWithin,
        bind_eq (token_bytes (b := byte 'f') rfl hbefore (by decide) rest)]
      exact (bind_eq (word_append _ rest)).trans rfl
  | @integer depth n hn =>
    intro fuel hfuel before rest hbefore hrest
    obtain ⟨fuel, rfl⟩ := (Value.Within.integer depth hn).exists_eq_succ hfuel
    obtain ⟨b, more, hbytes, hb⟩ := encode_writeInteger_cons n
    rw [bytes_integer]
    exact valueWithin_number (token_bytes hbytes hbefore (isBlank_of_integer hb).1 rest)
      (start_of_integer hb) (number_writeInteger hn hrest)
  | text depth s =>
    intro fuel hfuel before rest hbefore hrest
    obtain ⟨fuel, rfl⟩ := (Value.Within.text depth s).exists_eq_succ hfuel
    obtain ⟨more, hbytes⟩ := encode_writeText s
    have htext : Leaves.kept.text = Json.text := rfl
    rw [bytes_text, valueWithin, bind_eq (token_bytes hbytes hbefore (by decide) rest)]
    exact bind_eq (text_writeText s rest)
  | @list depth vs h ih =>
    intro fuel hfuel before rest hbefore hrest
    obtain ⟨fuel, rfl⟩ := (Value.Within.list h).exists_eq_succ hfuel
    rw [bytes_list, List.cons_append, List.length_cons, List.length_append, List.length_singleton]
      at hfuel
    rw [bytes_list_append]
    exact valueWithin_list (token_eq hbefore (by decide) _)
      (itemsWithin_itemBytes h ih (by omega) rest)
  | object h ih =>
    intro fuel hfuel before rest hbefore _
    exact valueWithin_objectBytes ih hfuel hbefore rest

theorem bound_eq (text : List UInt8) : bound text = .ok (text.length + 1, text) := rfl

/-- The bytes that are left are enough fuel. -/
theorem Value.Within.value_eq (h : v.Within depth) (hbefore : Blank before) (hrest : Stops rest) :
    value depth (before ++ (v.bytes ++ rest)) = .ok (v, rest) := by
  rw [value, bind_eq (bound_eq _)]
  refine h.readsBack _ ?_ hbefore hrest
  rw [List.length_append, List.length_append]
  omega

theorem value_object_eq (hms : ∀ m ∈ ms, m.2.Within (depth + 1)) (hbefore : Blank before)
    (rest : List UInt8) :
    value (depth + 2) (before ++ ((Value.object ms).bytes ++ rest)) = .ok (.object ms, rest) := by
  rw [value, bind_eq (bound_eq _)]
  refine valueWithin_objectBytes (fun m hm => (hms m hm).readsBack) ?_ hbefore rest
  rw [List.length_append, List.length_append]
  omega

end GridRobot.Json
