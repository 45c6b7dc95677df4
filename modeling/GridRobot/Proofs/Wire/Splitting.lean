import GridRobot.Proofs.Wire.Grammar

/-!
# Splitting buffers

A buffer can be split in one way only: into the tokens of some messages, and a
rest that no message begins (`Splits`). Reading the messages of a buffer finds
this split; it succeeds if nothing is left over and otherwise reports just what
is left over.

* `exists_splits`: every buffer can be split;
* `Splits.unique`: in one way only, as wire forms can be told apart;
* `classifyAll_exact`: reading a buffer inverts writing tokens one after the
  other, and drops nothing.
-/

namespace GridRobot

/-! ### Reading the characters of a buffer -/

/-- The tokens of messages written one after the other can be told apart, up to a rest that no
    message begins. -/
theorem Message.flatMap_wire_append_inj {ms ms' : List Message} {rest rest' : List Char}
    (hrest : readMessage rest = none) (hrest' : readMessage rest' = none)
    (h : ms.flatMap wire ++ rest = ms'.flatMap wire ++ rest') : ms = ms' ∧ rest = rest' := by
  induction ms generalizing ms' with
  | nil =>
    cases ms' with
    | nil => exact ⟨rfl, h⟩
    | cons m' ms' =>
      -- One list ends here and the other goes on: then a message begins the rest of the first.
      have hbegins : rest = m'.wire ++ (ms'.flatMap wire ++ rest') := by
        rw [← List.append_assoc]
        exact h
      rw [readMessage_eq_some_iff.2 hbegins] at hrest
      cases hrest
  | cons m ms ih =>
    rw [List.flatMap_cons, List.append_assoc] at h
    cases ms' with
    | nil =>
      have hbegins : rest' = m.wire ++ (ms.flatMap wire ++ rest) := h.symm
      rw [readMessage_eq_some_iff.2 hbegins] at hrest'
      cases hrest'
    | cons m' ms' =>
      rw [List.flatMap_cons, List.append_assoc] at h
      obtain ⟨rfl, htail⟩ := wire_append_inj h
      obtain ⟨rfl, rfl⟩ := ih htail
      exact ⟨rfl, rfl⟩

theorem readMessages_wire_append (m : Message) (rest : List Char) :
    readMessages (m.wire ++ rest) = (m :: ·) <$> readMessages rest := by
  rw [readMessages.eq_def, if_neg (List.append_ne_nil_of_left_ne_nil m.wire_ne_nil rest)]
  split
  · next m' rest' h =>
    obtain ⟨rfl, rfl⟩ := Message.wire_append_inj (readMessage_eq_some_iff.1 h)
    rfl
  · next h =>
    rw [readMessage_eq_some_iff.2 rfl] at h
    cases h

theorem readMessages_flatMap_wire_append (ms : List Message) (rest : List Char) :
    readMessages (ms.flatMap Message.wire ++ rest) = (ms ++ ·) <$> readMessages rest := by
  induction ms with
  | nil =>
    rw [List.flatMap_nil, List.nil_append]
    cases readMessages rest <;> rfl
  | cons m ms ih =>
    rw [List.flatMap_cons, List.append_assoc, readMessages_wire_append, ih]
    cases readMessages rest <;> rfl

theorem readMessages_of_none {rest : List Char} (h : readMessage rest = none) :
    readMessages rest = if rest = [] then .ok [] else .error (.ofToken rest) := by
  rw [readMessages.eq_def]
  split
  · rfl
  · split
    · next h' =>
      rw [h] at h'
      cases h'
    · rfl

/-- Taking messages off a buffer comes to an end: what is left is shorter each time. -/
theorem exists_flatMap_wire_append (buffer : List Char) :
    ∃ (ms : List Message) (rest : List Char),
      buffer = ms.flatMap Message.wire ++ rest ∧ readMessage rest = none := by
  -- A message takes at least one character, but not always the same number of them.
  induction hn : buffer.length using Nat.strongRecOn generalizing buffer with
  | ind n ih =>
    cases hread : readMessage buffer with
    | none => exact ⟨[], buffer, rfl, hread⟩
    | some found =>
      obtain ⟨m, after⟩ := found
      have hlt := length_readMessage_lt hread
      obtain ⟨ms, rest, hafter, hrest⟩ := ih after.length (hn ▸ hlt) after rfl
      refine ⟨m :: ms, rest, ?_, hrest⟩
      rw [readMessage_eq_some_iff.1 hread, hafter, List.flatMap_cons, List.append_assoc]

/-! ### Splits of a buffer -/

/-- The tokens of messages, one after the other. -/
def Message.encodeAll : List Message → String
  | [] => ""
  | m :: ms => m.encode ++ encodeAll ms

@[simp] theorem Message.toList_encodeAll (ms : List Message) :
    (encodeAll ms).toList = ms.flatMap wire := by
  induction ms with
  | nil => rfl
  | cons m ms ih => rw [encodeAll, String.toList_append, toList_encode, ih, List.flatMap_cons]

/-- The buffer consists of the tokens of `ms`, then of `rest`, which no message begins. -/
structure Splits (buffer : String) (ms : List Message) (rest : String) : Prop where
  eq_append : buffer = Message.encodeAll ms ++ rest
  not_begins : ∀ m : Message, ¬m.Begins rest

namespace Splits

variable {buffer rest rest' : String} {ms ms' : List Message}

theorem toList_eq (h : Splits buffer ms rest) :
    buffer.toList = ms.flatMap Message.wire ++ rest.toList := by
  rw [h.eq_append, String.toList_append, Message.toList_encodeAll]

theorem readMessage_eq_none (h : Splits buffer ms rest) : readMessage rest.toList = none :=
  readMessage_eq_none_iff.2 fun m hm => h.not_begins m (Message.begins_iff.2 hm)

/-- A buffer can be split in one way only. -/
theorem unique (h : Splits buffer ms rest) (h' : Splits buffer ms' rest') :
    ms = ms' ∧ rest = rest' := by
  have heq := h.toList_eq.symm.trans h'.toList_eq
  obtain ⟨hms, hrest⟩ :=
    Message.flatMap_wire_append_inj h.readMessage_eq_none h'.readMessage_eq_none heq
  exact ⟨hms, String.toList_inj.1 hrest⟩

/-- Reading a buffer gives its messages if nothing is left over, and otherwise reports what is. -/
theorem classifyAll_eq (h : Splits buffer ms rest) (hne : buffer ≠ "") :
    classifyAll buffer = if rest = "" then .ok ms else .error (.unrecognised none rest) := by
  rw [classifyAll, if_neg (String.toList_eq_nil_iff.not.2 hne), h.toList_eq,
    readMessages_flatMap_wire_append, readMessages_of_none h.readMessage_eq_none]
  simp only [String.toList_eq_nil_iff]
  split
  · show Except.ok (ms ++ []) = _
    rw [List.append_nil]
  · next hrest =>
    rw [MessageError.ofToken_toList, if_neg hrest]
    rfl

end Splits

/-- Every buffer can be split. -/
theorem exists_splits (buffer : String) : ∃ ms rest, Splits buffer ms rest := by
  obtain ⟨ms, rest, hbuffer, hrest⟩ := exists_flatMap_wire_append buffer.toList
  refine ⟨ms, String.ofList rest, ?_, ?_⟩
  · rw [← String.toList_inj, hbuffer, String.toList_append, Message.toList_encodeAll,
      String.toList_ofList]
  · intro m hm
    rw [Message.begins_iff, String.toList_ofList] at hm
    exact readMessage_eq_none_iff.1 hrest m hm

/-- The tokens of messages leave nothing over. -/
theorem splits_encodeAll (ms : List Message) : Splits (Message.encodeAll ms) ms "" := by
  refine ⟨String.append_empty.symm, fun m hm => ?_⟩
  rw [Message.begins_iff] at hm
  exact m.wire_ne_nil (List.prefix_nil.1 hm)

theorem Message.encodeAll_ne_empty {ms : List Message} (h : ms ≠ []) : encodeAll ms ≠ "" := by
  intro hempty
  have hnil := congrArg String.toList hempty
  rw [toList_encodeAll] at hnil
  cases ms with
  | nil => exact h rfl
  | cons m ms => exact m.wire_ne_nil (List.append_eq_nil_iff.1 hnil).1

theorem classifyAll_encodeAll {ms : List Message} (h : ms ≠ []) :
    classifyAll (Message.encodeAll ms) = .ok ms := by
  rw [(splits_encodeAll ms).classifyAll_eq (Message.encodeAll_ne_empty h), if_pos rfl]

/-- Reading the messages of a buffer succeeds exactly on the tokens of some messages written one
    after the other, and finds those messages. A buffer that is neither empty nor of this form
    has one split, with something left over, and that is what is reported. -/
theorem classifyAll_exact (buffer : String) :
    (buffer = "" → classifyAll buffer = .error .emptyToken) ∧
    (∀ ms, classifyAll buffer = .ok ms ↔ ms ≠ [] ∧ buffer = Message.encodeAll ms) ∧
    (∀ ms, ms ≠ [] → classifyAll (Message.encodeAll ms) = .ok ms) ∧
    (∀ ms ms', Message.encodeAll ms = Message.encodeAll ms' → ms = ms') ∧
    (buffer ≠ "" → (∀ ms, classifyAll buffer ≠ .ok ms) →
      ∃ ms rest, (Splits buffer ms rest ∧ rest ≠ "") ∧
        (∀ ms' rest', Splits buffer ms' rest' ∧ rest' ≠ "" → ms' = ms ∧ rest' = rest) ∧
        classifyAll buffer = .error (.unrecognised none rest)) := by
  obtain ⟨ms₀, rest₀, h₀⟩ := exists_splits buffer
  refine ⟨?_, fun ms => ⟨fun h => ?_, ?_⟩, fun ms => classifyAll_encodeAll, ?_, ?_⟩
  · rintro rfl
    rfl
  · by_cases hne : buffer = ""
    · subst hne
      cases h
    · rw [h₀.classifyAll_eq hne] at h
      split at h
      · next hrest =>
        cases h
        refine ⟨?_, by rw [h₀.eq_append, hrest, String.append_empty]⟩
        rintro rfl
        exact hne (by rw [h₀.eq_append, hrest]; rfl)
      · cases h
  · rintro ⟨hms, rfl⟩
    exact classifyAll_encodeAll hms
  · intro ms ms' h
    exact ((splits_encodeAll ms).unique (h ▸ splits_encodeAll ms')).1
  · intro hne hfail
    -- The one split of the buffer has something left over, or reading would have succeeded.
    have hclass := h₀.classifyAll_eq hne
    split at hclass
    · exact absurd hclass (hfail ms₀)
    · next hrest =>
      refine ⟨ms₀, rest₀, ⟨h₀, hrest⟩, ?_, hclass⟩
      rintro ms' rest' ⟨h', -⟩
      exact h'.unique h₀

end GridRobot
