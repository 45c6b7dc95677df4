import GridRobot.Wire.Classify
import Mathlib.Data.List.Basic

/-!
# The grammar of tokens

Every message has one shape, and a shape is read at the start of a token exactly
if the wire form of a message of that shape stands there. Wire forms are told
apart by their characters alone: at most one of them begins a token. So it does
not matter in which order kinds and shapes are tried.

* `Shape.read_eq_some_iff`: what a shape reads, it reads from a wire form;
* `Message.wire_append_inj`: no wire form begins another one;
* `readMessage_eq_some_iff`: the message that is read is the one that begins the
  token;
* `classifyPrefix_exact`: classifying a token finds the message whose wire form
  begins it, and all of that wire form; it fails only if there is none.
-/

namespace GridRobot

/-- A search finds `b` if some element gives it and no element gives anything else. -/
theorem findSome?_eq_some_of_unique {α β : Type} {f : α → Option β} {l : List α} {a : α} {b : β}
    (ha : a ∈ l) (hab : f a = some b) (huniq : ∀ a' ∈ l, ∀ b', f a' = some b' → b' = b) :
    l.findSome? f = some b := by
  cases h : l.findSome? f with
  | none =>
    rw [List.findSome?_eq_none_iff.1 h a ha] at hab
    cases hab
  | some b' =>
    obtain ⟨a', ha', hab'⟩ := List.exists_of_findSome?_eq_some h
    rw [huniq a' ha' b' hab']

/-! ### Shapes of messages -/

namespace Message

theorem shape_mem_shapes_iff {m : Message} {k : Kind} : m.shape ∈ k.shapes ↔ m.kind = k := by
  cases m <;> cases k <;> simp [shape, Kind.shapes, kind]

end Message

theorem Kind.mem_trialOrder (k : Kind) : k ∈ trialOrder := by
  cases k <;> decide

namespace Shape

/-- The shape of a message reads it at the start of its wire form, whatever follows. -/
theorem read_wire (m : Message) (rest : List Char) :
    m.shape.read (m.wire ++ rest) = some (m, rest) := by
  cases m <;>
    simp [Message.shape, Message.wire, Message.payload, Message.kind, Kind.identifier, Cell.wire,
      separator, terminator, read]

/-- A shape reads a message exactly if it is the shape of that message and the wire form of the
    message begins the token. -/
theorem read_eq_some_iff {s : Shape} {token rest : List Char} {m : Message} :
    s.read token = some (m, rest) ↔ m.shape = s ∧ token = m.wire ++ rest := by
  refine ⟨of_read, ?_⟩
  rintro ⟨rfl, rfl⟩
  exact read_wire m rest

end Shape

/-! ### Telling messages apart -/

namespace Message

variable {m m' : Message} {rest rest' : List Char}

theorem kind_eq_of_wire_append (h : m.wire ++ rest = m'.wire ++ rest') : m.kind = m'.kind := by
  have hid : m.kind.identifier = m'.kind.identifier := (List.cons.inj h).1
  have hk := congrArg Kind.ofIdentifier? hid
  rw [Kind.ofIdentifier?_identifier, Kind.ofIdentifier?_identifier] at hk
  exact Option.some.inj hk

/-- The two shapes of a location part at the fourth character: what ends a location without an
    obstacle is no digit. -/
theorem wire_location_append_ne (robot robot' block : Cell) :
    (location robot).wire ++ rest ≠ (blockDetected robot' block).wire ++ rest' := by
  intro h
  have hfourth := congrArg (·[3]?) h
  exact block.col.toChar_ne_question (Option.some.inj hfourth).symm

theorem shape_eq_of_wire_append (h : m.wire ++ rest = m'.wire ++ rest') : m.shape = m'.shape := by
  have hk := kind_eq_of_wire_append h
  -- Only the location has more than one shape.
  cases m <;> cases m' <;> first
    | rfl
    | exact absurd h (wire_location_append_ne _ _ _)
    | exact absurd h.symm (wire_location_append_ne _ _ _)
    | nomatch hk

/-- Messages can be told apart by how a text begins: no wire form begins another one. -/
theorem wire_append_inj (h : m.wire ++ rest = m'.wire ++ rest') : m = m' ∧ rest = rest' := by
  have hread := Shape.read_wire m rest
  rw [h, shape_eq_of_wire_append h, Shape.read_wire] at hread
  cases hread
  exact ⟨rfl, rfl⟩

end Message

/-! ### Reading messages -/

variable {k : Kind} {token rest : List Char} {m : Message}

theorem Kind.read_eq_some_iff :
    k.read token = some (m, rest) ↔ m.kind = k ∧ token = m.wire ++ rest := by
  constructor
  · intro h
    obtain ⟨s, hs, hread⟩ := List.exists_of_findSome?_eq_some h
    obtain ⟨rfl, htoken⟩ := Shape.read_eq_some_iff.1 hread
    exact ⟨Message.shape_mem_shapes_iff.1 hs, htoken⟩
  · rintro ⟨hk, rfl⟩
    -- The shapes are tried in order; none of the others reads anything else here.
    refine findSome?_eq_some_of_unique (Message.shape_mem_shapes_iff.2 hk)
      (Shape.read_wire m rest) ?_
    rintro s - ⟨m', rest'⟩ hread
    obtain ⟨rfl, rfl⟩ := Message.wire_append_inj (Shape.read_eq_some_iff.1 hread).2
    rfl

/-- The message that is read at the start of a token is the one whose wire form stands there. -/
theorem readMessage_eq_some_iff : readMessage token = some (m, rest) ↔ token = m.wire ++ rest := by
  constructor
  · intro h
    obtain ⟨k, _, hread⟩ := List.exists_of_findSome?_eq_some h
    exact (Kind.read_eq_some_iff.1 hread).2
  · rintro rfl
    refine findSome?_eq_some_of_unique (Kind.mem_trialOrder m.kind)
      (Kind.read_eq_some_iff.2 ⟨rfl, rfl⟩) ?_
    rintro k - ⟨m', rest'⟩ hread
    obtain ⟨rfl, rfl⟩ := Message.wire_append_inj (Kind.read_eq_some_iff.1 hread).2
    rfl

theorem readMessage_eq_none_iff : readMessage token = none ↔ ∀ m : Message, ¬m.wire <+: token := by
  constructor
  · rintro h m ⟨rest, rfl⟩
    rw [readMessage_eq_some_iff.2 rfl] at h
    cases h
  · intro h
    cases hread : readMessage token with
    | none => rfl
    | some found =>
      obtain ⟨m, rest⟩ := found
      exact absurd ⟨rest, (readMessage_eq_some_iff.1 hread).symm⟩ (h m)

/-! ### Classifying tokens -/

/-- The wire form of `m` stands at the start of `token`. -/
def Message.Begins (m : Message) (token : String) : Prop := ∃ rest, token = m.encode ++ rest

theorem Message.begins_iff {m : Message} {token : String} :
    m.Begins token ↔ m.wire <+: token.toList := by
  constructor
  · rintro ⟨rest, rfl⟩
    exact ⟨rest.toList, by rw [String.toList_append, toList_encode]⟩
  · rintro ⟨rest, hrest⟩
    refine ⟨String.ofList rest, ?_⟩
    rw [← String.toList_inj, String.toList_append, toList_encode, String.toList_ofList, hrest]

theorem Decoded.of_wire_append (m : Message) (rest : List Char) :
    Decoded.of (m.wire ++ rest) (m, rest) = ⟨m, m.encode⟩ := by
  rw [Decoded.of, List.length_append, Nat.add_sub_cancel, List.take_left, Message.encode]

theorem classifyPrefix_of_begins {m : Message} {token : String} (h : m.Begins token) :
    classifyPrefix token = .ok ⟨m, m.encode⟩ := by
  obtain ⟨rest, hrest⟩ := Message.begins_iff.1 h
  rw [classifyPrefix, readMessage_eq_some_iff.2 hrest.symm]
  simp only
  rw [← hrest, Decoded.of_wire_append]

theorem classifyPrefix_of_not_begins {token : String} (h : ∀ m : Message, ¬m.Begins token) :
    classifyPrefix token = .error (.ofToken token.toList) := by
  have hnone : readMessage token.toList = none :=
    readMessage_eq_none_iff.2 fun m hm => h m (Message.begins_iff.2 hm)
  rw [classifyPrefix, hnone]

theorem classifyPrefix_eq_ok_iff {token : String} {d : Decoded} :
    classifyPrefix token = .ok d ↔ d.raw = d.message.encode ∧ d.message.Begins token := by
  constructor
  · intro h
    by_cases hm : ∃ m : Message, m.Begins token
    · obtain ⟨m, hm⟩ := hm
      rw [classifyPrefix_of_begins hm] at h
      cases h
      exact ⟨rfl, hm⟩
    · rw [classifyPrefix_of_not_begins fun m h' => hm ⟨m, h'⟩] at h
      cases h
  · rintro ⟨hraw, hm⟩
    rw [classifyPrefix_of_begins hm, ← hraw]

theorem classify_eq_ok_iff {token : String} {m : Message} :
    classify token = .ok m ↔ m.Begins token := by
  constructor
  · intro h
    cases hprefix : classifyPrefix token with
    | ok d =>
      rw [classify, hprefix] at h
      cases h
      exact (classifyPrefix_eq_ok_iff.1 hprefix).2
    | error e =>
      rw [classify, hprefix] at h
      cases h
  · intro h
    rw [classify, classifyPrefix_of_begins h]
    rfl

theorem MessageError.ofToken_toList (token : String) :
    ofToken token.toList = if token = "" then .emptyToken else .unrecognised none token := by
  rw [ofToken, String.ofList_toList]
  simp only [String.toList_eq_nil_iff]

/-- Classifying a token finds a message exactly if the wire form of the message begins the token,
    and then it has read just that wire form; a wire form is found again whatever follows it,
    and no wire form begins another one. Where no wire form begins the token, the token is
    refused as a whole. -/
theorem classifyPrefix_exact (token : String) :
    (∀ m raw, classifyPrefix token = .ok ⟨m, raw⟩ ↔ raw = m.encode ∧ m.Begins token) ∧
    (∀ d, classifyPrefix token = .ok d →
      d.consumed = d.message.encode.utf8ByteSize ∧ ∃ rest, token = d.message.encode ++ rest) ∧
    (∀ m : Message, classifyPrefix (m.encode ++ token) = .ok ⟨m, m.encode⟩) ∧
    (∀ m m' : Message, m.Begins m'.encode → m = m') ∧
    ((∀ m : Message, ¬m.Begins token) →
      classifyPrefix token =
        .error (if token = "" then .emptyToken else .unrecognised none token)) := by
  refine ⟨fun m raw => classifyPrefix_eq_ok_iff, ?_, ?_, ?_, ?_⟩
  · intro d h
    obtain ⟨hraw, hm⟩ := classifyPrefix_eq_ok_iff.1 h
    exact ⟨by rw [Decoded.consumed, hraw], hm⟩
  · exact fun m => classifyPrefix_of_begins ⟨token, rfl⟩
  · rintro m m' ⟨rest, h⟩
    have h' := congrArg String.toList h
    rw [String.toList_append, Message.toList_encode, Message.toList_encode,
      ← List.append_nil m'.wire] at h'
    exact (Message.wire_append_inj h').1.symm
  · intro h
    rw [classifyPrefix_of_not_begins h, MessageError.ofToken_toList]

end GridRobot
