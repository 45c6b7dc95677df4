import GridRobot.Proofs.Wire.Grammar

/-!
# The order of trials

The kinds are tried on a token in a certain order, and so are the two shapes of
a location. Of all shapes at most one reads anything from a token
(`Shape.read_unique`), so that in any other order (`TrialOrder`) the same is
found: tokens are classified, and buffers are split, as they are in the usual
order.

Nor does it matter that all kinds are tried. A token is read as a message of one
kind just if it is classified as a message, and that is of this kind
(`decodeAs_eq_ok_iff`). All this is put together in `trials_agree`.
-/

namespace GridRobot

/-- A search does not depend on the order if all that can be found is the same. -/
theorem findSome?_eq_of_perm {α β : Type} {f : α → Option β} {l l' : List α} (hperm : l.Perm l')
    (hagree : ∀ a ∈ l, ∀ a' ∈ l, ∀ b b', f a = some b → f a' = some b' → b = b') :
    l.findSome? f = l'.findSome? f := by
  cases h : l.findSome? f with
  | none =>
    have hnone : ∀ a ∈ l', f a = none := fun a ha =>
      List.findSome?_eq_none_iff.1 h a (hperm.mem_iff.2 ha)
    exact (List.findSome?_eq_none_iff.2 hnone).symm
  | some b =>
    obtain ⟨a, ha, hab⟩ := List.exists_of_findSome?_eq_some h
    refine (findSome?_eq_some_of_unique (hperm.mem_iff.1 ha) hab fun a' ha' b' hab' => ?_).symm
    exact hagree a' (hperm.mem_iff.2 ha') a ha b' b hab' hab

/-- At most one shape reads anything from a token. -/
theorem Shape.read_unique {s s' : Shape} {token : List Char} {found found' : Message × List Char}
    (h : s.read token = some found) (h' : s'.read token = some found') :
    s = s' ∧ found = found' := by
  obtain ⟨m, rest⟩ := found
  obtain ⟨m', rest'⟩ := found'
  obtain ⟨rfl, htoken⟩ := read_eq_some_iff.1 h
  obtain ⟨rfl, htoken'⟩ := read_eq_some_iff.1 h'
  obtain ⟨rfl, rfl⟩ := Message.wire_append_inj (htoken.symm.trans htoken')
  exact ⟨rfl, rfl⟩

/-- An order in which the kinds, and the shapes of each kind, are tried. -/
structure TrialOrder where
  kinds : List Kind
  shapes : Kind → List Shape
  kinds_perm : kinds.Perm Kind.trialOrder
  shapes_perm : ∀ k, (shapes k).Perm k.shapes

namespace TrialOrder

/-- Kinds and shapes as they stand in their tables. -/
def usual : TrialOrder := ⟨Kind.trialOrder, Kind.shapes, .rfl, fun _ => .rfl⟩

variable (order : TrialOrder) {k : Kind} {token rest : List Char} {m : Message}

/-! ### Trials in any order -/

/-- The message of kind `k` at the start of `token`, and the rest. -/
def readAs (k : Kind) (token : List Char) : Option (Message × List Char) :=
  (order.shapes k).findSome? (·.read token)

/-- The first message that some kind finds at the start of `token`, and the rest. -/
def read (token : List Char) : Option (Message × List Char) :=
  order.kinds.findSome? (order.readAs · token)

/-- The message of kind `k` that `token` begins with. -/
def decodeAs (k : Kind) (token : String) : Except MessageError Decoded :=
  match order.readAs k token.toList with
  | some found => .ok (Decoded.of token.toList found)
  | none => .error (.unrecognised (some k) token)

/-- The message that `token` begins with. -/
def classifyPrefix (token : String) : Except MessageError Decoded :=
  match order.read token.toList with
  | some found => .ok (Decoded.of token.toList found)
  | none => .error (.ofToken token.toList)

/-- The message that `token` begins with, whatever follows it. -/
def classify (token : String) : Except MessageError Message :=
  Decoded.message <$> order.classifyPrefix token

theorem exists_shape_of_readAs {found : Message × List Char}
    (h : order.readAs k token = some found) : ∃ s : Shape, s.read token = some found := by
  obtain ⟨s, -, hs⟩ := List.exists_of_findSome?_eq_some h
  exact ⟨s, hs⟩

theorem exists_shape_of_read {found : Message × List Char} (h : order.read token = some found) :
    ∃ s : Shape, s.read token = some found := by
  obtain ⟨k, -, hk⟩ := List.exists_of_findSome?_eq_some h
  exact order.exists_shape_of_readAs hk

theorem length_read_lt (h : order.read token = some (m, rest)) : rest.length < token.length := by
  obtain ⟨s, hs⟩ := order.exists_shape_of_read h
  exact s.length_read_lt hs

/-- The messages that follow each other in `buffer`, to its very end. -/
def readMessages (buffer : List Char) : Except MessageError (List Message) :=
  if buffer = [] then .ok []
  else
    match _h : order.read buffer with
    | some (m, rest) => (m :: ·) <$> readMessages rest
    | none => .error (.ofToken buffer)
termination_by buffer.length
decreasing_by exact order.length_read_lt _h

/-- The messages of a buffer; an empty buffer holds none and is refused. -/
def classifyAll (buffer : String) : Except MessageError (List Message) :=
  if buffer.toList = [] then .error .emptyToken else order.readMessages buffer.toList

/-- In the usual order these are the trials that are made. -/
example : usual.decodeAs = GridRobot.decodeAs ∧
    usual.classifyPrefix = GridRobot.classifyPrefix ∧ usual.classify = GridRobot.classify :=
  ⟨rfl, rfl, rfl⟩

/-! ### All orders agree -/

theorem readAs_eq (k : Kind) (token : List Char) : order.readAs k token = k.read token :=
  findSome?_eq_of_perm (order.shapes_perm k) fun _ _ _ _ _ _ h h' => (Shape.read_unique h h').2

theorem read_eq (token : List Char) : order.read token = readMessage token := by
  have hreadAs : (order.readAs · token) = (Kind.read · token) :=
    funext fun k => order.readAs_eq k token
  rw [read, readMessage, ← hreadAs]
  refine findSome?_eq_of_perm order.kinds_perm fun k _ k' _ found found' h h' => ?_
  obtain ⟨s, hs⟩ := order.exists_shape_of_readAs h
  obtain ⟨s', hs'⟩ := order.exists_shape_of_readAs h'
  exact (Shape.read_unique hs hs').2

theorem decodeAs_eq (k : Kind) (token : String) :
    order.decodeAs k token = GridRobot.decodeAs k token := by
  rw [decodeAs, readAs_eq]
  rfl

theorem classifyPrefix_eq (token : String) :
    order.classifyPrefix token = GridRobot.classifyPrefix token := by
  rw [classifyPrefix, read_eq]
  rfl

theorem classify_eq (token : String) : order.classify token = GridRobot.classify token := by
  rw [classify, GridRobot.classify, classifyPrefix_eq]

theorem readMessages_eq (buffer : List Char) :
    order.readMessages buffer = GridRobot.readMessages buffer := by
  -- Along the buffer, as it is split: what is found first is the same, and so is the rest.
  fun_induction GridRobot.readMessages buffer with
  | case1 => rw [readMessages, if_pos rfl]
  | case2 buffer hne m rest hread ih =>
    rw [readMessages.eq_def, if_neg hne, ← ih]
    split
    · next h =>
      rw [read_eq, hread] at h
      cases h
      rfl
    · next h =>
      rw [read_eq, hread] at h
      cases h
  | case3 buffer hne hread =>
    rw [readMessages.eq_def, if_neg hne]
    split
    · next h =>
      rw [read_eq, hread] at h
      cases h
    · rfl

theorem classifyAll_eq (buffer : String) :
    order.classifyAll buffer = GridRobot.classifyAll buffer := by
  rw [classifyAll, GridRobot.classifyAll, readMessages_eq]

end TrialOrder

/-! ### One kind and all kinds -/

variable {k : Kind} {token : String}

theorem decodeAs_eq_ok_iff {d : Decoded} :
    decodeAs k token = .ok d ↔ classifyPrefix token = .ok d ∧ d.message.kind = k := by
  constructor
  · intro h
    rw [decodeAs] at h
    split at h
    · next found hread =>
      obtain ⟨m, rest⟩ := found
      obtain ⟨hk, htoken⟩ := Kind.read_eq_some_iff.1 hread
      cases h
      rw [classifyPrefix, readMessage_eq_some_iff.2 htoken]
      exact ⟨rfl, hk⟩
    · cases h
  · rintro ⟨h, hk⟩
    rw [classifyPrefix] at h
    split at h
    · next found hread =>
      obtain ⟨m, rest⟩ := found
      cases h
      rw [decodeAs, Kind.read_eq_some_iff.2 ⟨hk, readMessage_eq_some_iff.1 hread⟩]
      rfl
    · cases h

theorem decodeAs_of_ne (h : ∀ d, classifyPrefix token = .ok d → d.message.kind ≠ k) :
    decodeAs k token = .error (.unrecognised (some k) token) := by
  cases hdecode : decodeAs k token with
  | ok d =>
    obtain ⟨hclassify, hk⟩ := decodeAs_eq_ok_iff.1 hdecode
    exact absurd hk (h d hclassify)
  | error e =>
    rw [decodeAs] at hdecode
    split at hdecode
    · cases hdecode
    · exact hdecode.symm

/-- A token is read as a message of one kind exactly if it is classified as a message of that kind,
    and otherwise refused as a whole, even the empty one. At most one shape reads anything from a
    token. So whatever the order in which kinds and shapes are tried, the same comes of a token and
    of a buffer. -/
theorem trials_agree (order : TrialOrder) (k : Kind) (token : String) :
    (∀ d, decodeAs k token = .ok d ↔ classifyPrefix token = .ok d ∧ d.message.kind = k) ∧
    ((¬∃ d, classifyPrefix token = .ok d ∧ d.message.kind = k) →
      decodeAs k token = .error (.unrecognised (some k) token)) ∧
    decodeAs k "" = .error (.unrecognised (some k) "") ∧
    (∀ s s' : Shape, (s.read token.toList).isSome → (s'.read token.toList).isSome → s = s') ∧
    order.decodeAs k token = decodeAs k token ∧
    order.classifyPrefix token = classifyPrefix token ∧
    order.classify token = classify token ∧
    order.classifyAll token = classifyAll token := by
  refine ⟨fun d => decodeAs_eq_ok_iff, fun h => ?_, ?_, fun s s' h h' => ?_, order.decodeAs_eq k token,
    order.classifyPrefix_eq token, order.classify_eq token, order.classifyAll_eq token⟩
  · exact decodeAs_of_ne fun d hd hk => h ⟨d, hd, hk⟩
  · refine decodeAs_of_ne fun d hd => ?_
    cases hd
  · obtain ⟨found, hfound⟩ := Option.isSome_iff_exists.1 h
    obtain ⟨found', hfound'⟩ := Option.isSome_iff_exists.1 h'
    exact (Shape.read_unique hfound hfound').1

end GridRobot
