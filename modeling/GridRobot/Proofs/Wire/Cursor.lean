import GridRobot.Proofs.Wire.Splitting
import GridRobot.Wire.Cursor

/-!
# Cuts are made between characters

A cursor that reads a field has passed the characters of that field, and has
counted their bytes (`Cursor.Reads`). So a shape that is read field by field
finds the message whose wire form begins the token, and counts the bytes of that
wire form (`Shape.match?_eq_some_iff`): at least one, no more than the token has,
and up to the end of a character.

Hence the token can be cut there, and counting bytes comes to the same as reading
characters (`Shape.match?_eq`, `Kind.decodeByCount_eq`,
`classifyPrefixByCount_eq`). A pass of the loop that splits a buffer takes off at
least one byte (`Splitter.utf8ByteSize_pass_lt`), so that the loop comes to an end
(`Splitter.run_eq`). All this is put together in `counts_safely`.
-/

namespace GridRobot

/-! ### Fields -/

/-- The cursor reads `text` on its way to `cur'`. -/
structure Cursor.Reads (cur : Cursor) (text : List Char) (cur' : Cursor) : Prop where
  ahead : cur.ahead = text ++ cur'.ahead
  passed : cur'.passed = cur.passed + (String.ofList text).utf8ByteSize

namespace Cursor.Reads

variable {cur cur' cur'' : Cursor} {text text' : List Char}

/-- Two texts are passed one after the other. -/
theorem append_iff :
    cur.Reads (text ++ text') cur'' ↔ ∃ mid, cur.Reads text mid ∧ mid.Reads text' cur'' := by
  have hsize : (String.ofList (text ++ text')).utf8ByteSize =
      (String.ofList text).utf8ByteSize + (String.ofList text').utf8ByteSize := by
    rw [String.ofList_append, String.utf8ByteSize_append]
  constructor
  · intro h
    refine ⟨⟨text' ++ cur''.ahead, cur.passed + (String.ofList text).utf8ByteSize⟩, ⟨?_, rfl⟩,
      ⟨rfl, ?_⟩⟩
    · rw [h.ahead, List.append_assoc]
    · rw [h.passed, hsize, Nat.add_assoc]
  · rintro ⟨mid, h, h'⟩
    refine ⟨?_, ?_⟩
    · rw [h.ahead, h'.ahead, List.append_assoc]
    · rw [h'.passed, h.passed, hsize, Nat.add_assoc]

theorem nil_iff : cur.Reads [] cur' ↔ cur = cur' := by
  constructor
  · rintro ⟨hahead, hpassed⟩
    cases cur
    cases cur'
    simp_all
  · rintro rfl
    exact ⟨rfl, by simp⟩

end Cursor.Reads

namespace Scan

variable {α β : Type} {cur cur' : Cursor} {a : α} {b : β}

theorem bind_eq_some_iff {x : Scan α} {f : α → Scan β} :
    (x >>= f) cur = some (b, cur') ↔ ∃ a mid, x cur = some (a, mid) ∧ f a mid = some (b, cur') := by
  change (x cur).bind (fun found => f found.1 found.2) = some (b, cur') ↔ _
  simp [Option.bind_eq_some_iff]

theorem pure_eq_some_iff {a' : α} :
    (pure a : Scan α) cur = some (a', cur') ↔ a = a' ∧ cur = cur' := by
  change some (a, cur) = some (a', cur') ↔ _
  simp

theorem lift_eq_some_iff {o : Option α} :
    (liftM o : Scan α) cur = some (a, cur') ↔ o = some a ∧ cur = cur' := by
  change (o.bind fun a => some (a, cur)) = some (a, cur') ↔ _
  simp [Option.bind_eq_some_iff]

theorem guard_eq_some_iff {p : Prop} [Decidable p] {u : Unit} :
    (guard p : Scan Unit) cur = some (u, cur') ↔ p ∧ cur = cur' := by
  rw [guard]
  split
  · next hp => simp [hp, pure_eq_some_iff]
  · next hp => exact iff_of_false nofun fun h => hp h.1

theorem char_eq_some_iff {c : Char} : char cur = some (c, cur') ↔ cur.Reads [c] cur' := by
  obtain ⟨ahead, passed⟩ := cur
  obtain ⟨ahead', passed'⟩ := cur'
  cases ahead with
  | nil => exact iff_of_false nofun fun h => nomatch h.ahead
  | cons c' ahead =>
    change some (c', (⟨ahead, passed + c'.utf8Size⟩ : Cursor)) = some (c, ⟨ahead', passed'⟩) ↔ _
    constructor
    · intro h
      cases h
      exact ⟨rfl, by simp [String.ofList_cons]⟩
    · rintro ⟨hahead, hpassed⟩
      simp_all [String.ofList_cons]

theorem literal_eq_some_iff {c : Char} {u : Unit} :
    literal c cur = some (u, cur') ↔ cur.Reads [c] cur' := by
  rw [literal, bind_eq_some_iff]
  constructor
  · rintro ⟨c', mid, hchar, hguard⟩
    obtain ⟨rfl, rfl⟩ := guard_eq_some_iff.1 hguard
    exact char_eq_some_iff.1 hchar
  · intro h
    exact ⟨c, cur', char_eq_some_iff.2 h, guard_eq_some_iff.2 ⟨rfl, rfl⟩⟩

theorem literals_eq_some_iff {text : List Char} {u : Unit} :
    literals text cur = some (u, cur') ↔ cur.Reads text cur' := by
  induction text generalizing cur with
  | nil => exact pure_eq_some_iff.trans (by simp [Cursor.Reads.nil_iff])
  | cons c text ih =>
    have hcons : literals (c :: text) = literal c >>= fun _ => literals text := rfl
    rw [hcons, bind_eq_some_iff, ← List.singleton_append, Cursor.Reads.append_iff]
    simp only [literal_eq_some_iff, ih, exists_const]

theorem digit_eq_some_iff {d : Digit} : digit cur = some (d, cur') ↔ cur.Reads [d.toChar] cur' := by
  simp [digit, bind_eq_some_iff, lift_eq_some_iff, char_eq_some_iff, Digit.ofChar?_eq_some]

theorem cell_eq_some_iff {c : Cell} : cell cur = some (c, cur') ↔ cur.Reads c.wire cur' := by
  have hwire : c.wire = [c.col.toChar] ++ [c.row.toChar] := rfl
  simp only [cell, bind_eq_some_iff, digit_eq_some_iff, pure_eq_some_iff, hwire,
    Cursor.Reads.append_iff]
  constructor
  · rintro ⟨col, mid, hcol, row, mid', hrow, rfl, rfl⟩
    exact ⟨mid, hcol, hrow⟩
  · rintro ⟨mid, hcol, hrow⟩
    exact ⟨c.col, mid, hcol, c.row, cur', hrow, rfl, rfl⟩

end Scan

/-! ### Shapes -/

namespace Shape

open Scan

variable {s : Shape} {m : Message} {cur cur' : Cursor}

/-- A message is passed as its identifier and then its payload. -/
theorem reads_wire_iff :
    cur.Reads m.wire cur' ↔
      ∃ mid, cur.Reads [m.kind.identifier] mid ∧ mid.Reads m.payload cur' := by
  rw [← Cursor.Reads.append_iff]
  rfl

theorem of_scan (h : s.scan cur = some (m, cur')) : m.shape = s ∧ cur.Reads m.wire cur' := by
  rw [reads_wire_iff]
  cases s <;>
    simp only [scan, identifier, bind_eq_some_iff, pure_eq_some_iff, lift_eq_some_iff,
      literal_eq_some_iff, literals_eq_some_iff, digit_eq_some_iff, cell_eq_some_iff] at h
  case stateChange =>
    obtain ⟨-, mid, hid, -, mid', hsep, -, last, hE, rfl, rfl⟩ := h
    exact ⟨rfl, mid, hid, Cursor.Reads.append_iff.2 ⟨mid', hsep, hE⟩⟩
  case finish =>
    obtain ⟨-, mid, hid, -, last, hsep, rfl, rfl⟩ := h
    exact ⟨rfl, mid, hid, hsep⟩
  case location =>
    obtain ⟨-, mid, hid, robot, mid', hrobot, -, last, hend, rfl, rfl⟩ := h
    exact ⟨rfl, mid, hid, Cursor.Reads.append_iff.2 ⟨mid', hrobot, hend⟩⟩
  case blockDetected =>
    obtain ⟨-, mid, hid, robot, mid', hrobot, block, last, hblock, rfl, rfl⟩ := h
    exact ⟨rfl, mid, hid, Cursor.Reads.append_iff.2 ⟨mid', hrobot, hblock⟩⟩
  case movement =>
    obtain ⟨-, mid, hid, -, mid₁, hsep, d, mid₂, hd, heading, _, ⟨hheading, rfl⟩, t, last, ht,
      motion, _, ⟨hmotion, rfl⟩, rfl, rfl⟩ := h
    obtain rfl : heading.digit = d := Fin.ext (Direction.digit_of_ofDigit? hheading)
    obtain rfl : motion.code = t := Fin.ext (Motion.code_of_ofCode? hmotion)
    exact ⟨rfl, mid, hid, Cursor.Reads.append_iff.2
      ⟨mid₁, hsep, Cursor.Reads.append_iff.2 ⟨mid₂, hd, ht⟩⟩⟩
  case done =>
    obtain ⟨-, mid, hid, rfl, rfl⟩ := h
    exact ⟨rfl, mid, hid, Cursor.Reads.nil_iff.2 rfl⟩
  case warning =>
    obtain ⟨-, mid, hid, n, last, hn, rfl, rfl⟩ := h
    exact ⟨rfl, mid, hid, hn⟩

theorem scan_of_reads (h : cur.Reads m.wire cur') : m.shape.scan cur = some (m, cur') := by
  obtain ⟨mid, hid, hpayload⟩ := reads_wire_iff.1 h
  cases m <;>
    simp only [Message.shape, scan, identifier, bind_eq_some_iff, pure_eq_some_iff,
      lift_eq_some_iff, literal_eq_some_iff, literals_eq_some_iff, digit_eq_some_iff,
      cell_eq_some_iff]
  case warning n => exact ⟨(), mid, hid, n, cur', hpayload, rfl, rfl⟩
  case done => exact ⟨(), mid, hid, trivial, Cursor.Reads.nil_iff.1 hpayload⟩
  case location robot =>
    obtain ⟨mid', hrobot, hend⟩ := Cursor.Reads.append_iff.1 hpayload
    exact ⟨(), mid, hid, robot, mid', hrobot, (), cur', hend, rfl, rfl⟩
  case blockDetected robot block =>
    obtain ⟨mid', hrobot, hblock⟩ := Cursor.Reads.append_iff.1 hpayload
    exact ⟨(), mid, hid, robot, mid', hrobot, block, cur', hblock, rfl, rfl⟩
  case movement heading motion =>
    have hfields :
        mid.Reads ([separator] ++ ([heading.digit.toChar] ++ [motion.code.toChar])) cur' := hpayload
    obtain ⟨mid₁, hsep, hcodes⟩ := Cursor.Reads.append_iff.1 hfields
    obtain ⟨mid₂, hd, ht⟩ := Cursor.Reads.append_iff.1 hcodes
    exact ⟨(), mid, hid, (), mid₁, hsep, heading.digit, mid₂, hd, heading, mid₂,
      ⟨heading.ofDigit?_digit, rfl⟩, motion.code, cur', ht, motion, cur',
      ⟨motion.ofCode?_code, rfl⟩, rfl, rfl⟩
  case finish => exact ⟨(), mid, hid, (), cur', hpayload, trivial, rfl⟩
  case stateChange =>
    have hfields : mid.Reads ([separator] ++ ['E']) cur' := hpayload
    obtain ⟨mid', hsep, hE⟩ := Cursor.Reads.append_iff.1 hfields
    exact ⟨(), mid, hid, (), mid', hsep, (), cur', hE, trivial, rfl⟩

/-- Counting bytes, a shape finds the message that the token begins with, if it is of that shape,
    and the number of bytes of its wire form. -/
theorem match?_eq_some_iff {token : String} {n : Nat} :
    s.match? token = some (m, n) ↔ m.shape = s ∧ m.Begins token ∧ n = m.encode.utf8ByteSize := by
  simp only [match?, Option.map_eq_some_iff, Prod.mk.injEq, Prod.exists]
  constructor
  · rintro ⟨m, last, h, rfl, rfl⟩
    obtain ⟨hshape, hahead, hpassed⟩ := of_scan h
    refine ⟨hshape, Message.begins_iff.2 ⟨last.ahead, hahead.symm⟩, ?_⟩
    rw [hpassed, Nat.zero_add, Message.encode]
  · rintro ⟨rfl, hm, rfl⟩
    obtain ⟨rest, hrest⟩ := Message.begins_iff.1 hm
    refine ⟨m, ⟨rest, m.encode.utf8ByteSize⟩, scan_of_reads ⟨hrest.symm, ?_⟩, rfl, rfl⟩
    rw [Nat.zero_add, Message.encode]

end Shape

/-! ### Cuts -/

/-- A text is cut where it is the one part and then the other. -/
theorem cut?_eq_some_iff {text a b : String} {n : Nat} :
    cut? text n = some (a, b) ↔ text = a ++ b ∧ n = a.utf8ByteSize := by
  rw [cut?]
  constructor
  · intro h
    split at h
    · next hn =>
      have hsplits := (text.pos ⟨n⟩ hn).splits
      cases h
      exact ⟨hsplits.eq_append, congrArg (·.byteIdx) hsplits.offset_eq_rawEndPos⟩
    · cases h
  · rintro ⟨rfl, rfl⟩
    have hn : String.Pos.Raw.IsValid (a ++ b) ⟨a.utf8ByteSize⟩ :=
      String.Pos.Raw.isValid_iff_exists_append.2 ⟨a, b, rfl, rfl⟩
    have hsplits : ((a ++ b).pos ⟨a.utf8ByteSize⟩ hn).Splits a b := ⟨rfl, rfl⟩
    rw [dif_pos hn]
    simp only [hsplits.copy_sliceTo_eq, hsplits.copy_sliceFrom_eq]

variable {token : String} {m : Message}

theorem cut?_encode (m : Message) (rest : String) :
    cut? (m.encode ++ rest) m.encode.utf8ByteSize = some (m.encode, rest) :=
  cut?_eq_some_iff.2 ⟨rfl, rfl⟩

/-- A shape finds the same message, whether or not bytes are counted. -/
theorem Shape.match?_eq (s : Shape) (token : String) :
    s.match? token =
      (s.read token.toList).map fun found => (found.1, found.1.encode.utf8ByteSize) := by
  refine Option.ext fun ⟨m, n⟩ => ?_
  simp only [match?_eq_some_iff, Option.map_eq_some_iff, Prod.exists, Prod.mk.injEq,
    read_eq_some_iff, Message.begins_iff]
  constructor
  · rintro ⟨hshape, ⟨rest, hrest⟩, rfl⟩
    exact ⟨m, rest, ⟨hshape, hrest.symm⟩, rfl, rfl⟩
  · rintro ⟨m, rest, ⟨hshape, hrest⟩, rfl, rfl⟩
    exact ⟨hshape, ⟨rest, hrest.symm⟩, rfl⟩

theorem Kind.findSome?_match? (k : Kind) (token : String) :
    k.shapes.findSome? (·.match? token) =
      (k.read token.toList).map fun found => (found.1, found.1.encode.utf8ByteSize) := by
  rw [Kind.read, List.map_findSome?]
  simp only [Shape.match?_eq]
  rfl

/-- The front of the token can always be cut off, and is what was read. -/
theorem Kind.decodeByCount_eq (k : Kind) (token : String) :
    k.decodeByCount token = some (decodeAs k token) := by
  rw [decodeByCount, decodeAs, findSome?_match?]
  cases hread : k.read token.toList with
  | none => rfl
  | some found =>
    obtain ⟨m, rest⟩ := found
    obtain ⟨-, htoken⟩ := Kind.read_eq_some_iff.1 hread
    have hcut : cut? token m.encode.utf8ByteSize = some (m.encode, String.ofList rest) := by
      rw [cut?_eq_some_iff, ← String.toList_inj, String.toList_append, Message.toList_encode,
        String.toList_ofList]
      exact ⟨htoken, rfl⟩
    simp only [Option.map_some, hcut, htoken, Decoded.of_wire_append]
    rfl

theorem decodeAs_toOption (k : Kind) (token : String) :
    (decodeAs k token).toOption = (k.read token.toList).map (Decoded.of token.toList) := by
  rw [decodeAs]
  cases k.read token.toList <;> rfl

theorem classifyPrefixByCount_eq (token : String) :
    classifyPrefixByCount token = some (classifyPrefix token) := by
  by_cases hempty : token = ""
  · subst hempty
    rfl
  · have htrial (k : Kind) : (do return (← k.decodeByCount token).toOption : Option _) =
        pure ((k.read token.toList).map (Decoded.of token.toList)) := by
      rw [k.decodeByCount_eq, ← decodeAs_toOption]
      rfl
    have hfind : Kind.trialOrder.findSomeM? (fun k => do
          return (← k.decodeByCount token).toOption) =
        some ((readMessage token.toList).map (Decoded.of token.toList)) := by
      simp only [htrial, List.findSomeM?_pure]
      exact congrArg some List.map_findSome?.symm
    rw [classifyPrefixByCount, if_neg hempty, hfind, classifyPrefix, MessageError.ofToken_toList,
      if_neg hempty]
    cases readMessage token.toList <;> rfl

/-! ### Splitting a buffer -/

theorem Message.utf8ByteSize_encode_pos (m : Message) : 0 < m.encode.utf8ByteSize := by
  refine Nat.pos_of_ne_zero fun h => m.wire_ne_nil ?_
  rw [← toList_encode, String.utf8ByteSize_eq_zero_iff.1 h, String.toList_empty]

namespace Splitter

/-- A pass takes off the message that begins the rest, or else refuses the rest. -/
theorem pass_cases (s : Splitter) :
    (∃ m rest, s.rest = m.encode ++ rest ∧ s.pass = some (.ok ⟨s.found ++ [m], rest⟩)) ∨
    ((∀ m : Message, ¬m.Begins s.rest) ∧ s.pass = some (.error (.ofToken s.rest.toList))) := by
  rw [pass, classifyPrefixByCount_eq]
  by_cases hm : ∃ m : Message, m.Begins s.rest
  · obtain ⟨m, rest, hrest⟩ := hm
    refine .inl ⟨m, rest, hrest, ?_⟩
    simp [hrest, classifyPrefix_of_begins ⟨rest, rfl⟩, Decoded.consumed, cut?_encode]
  · have hnone : ∀ m : Message, ¬m.Begins s.rest := fun m h => hm ⟨m, h⟩
    refine .inr ⟨hnone, ?_⟩
    simp [classifyPrefix_of_not_begins hnone]

/-- A pass that takes off a message leaves fewer bytes. -/
theorem utf8ByteSize_pass_lt {s next : Splitter} (h : s.pass = some (.ok next)) :
    next.rest.utf8ByteSize < s.rest.utf8ByteSize := by
  obtain ⟨m, rest, hrest, hpass⟩ | ⟨-, hpass⟩ := s.pass_cases
  · rw [hpass] at h
    cases h
    rw [hrest, String.utf8ByteSize_append]
    exact Nat.lt_add_of_pos_left m.utf8ByteSize_encode_pos
  · rw [hpass] at h
    cases h

theorem run_of_empty {s : Splitter} (h : s.rest = "") (passes : Nat) :
    s.run passes = some ((s.found ++ ·) <$> readMessages s.rest.toList) := by
  rw [run.eq_def, if_pos h, h, String.toList_empty, readMessages, if_pos rfl]
  simp

/-- The loop comes to an end within as many passes as the rest has bytes. -/
theorem run_eq {passes : Nat} {s : Splitter} (h : s.rest.utf8ByteSize ≤ passes) :
    s.run passes = some ((s.found ++ ·) <$> readMessages s.rest.toList) := by
  induction passes generalizing s with
  | zero => exact run_of_empty (String.utf8ByteSize_eq_zero_iff.1 (Nat.le_zero.1 h)) 0
  | succ passes ih =>
    by_cases hempty : s.rest = ""
    · exact run_of_empty hempty _
    rw [run, if_neg hempty]
    obtain ⟨m, rest, hrest, hpass⟩ | ⟨hnone, hpass⟩ := s.pass_cases
    · have hlt := Nat.lt_of_lt_of_le (utf8ByteSize_pass_lt hpass) h
      rw [hrest, String.toList_append, Message.toList_encode, readMessages_wire_append]
      simp [hpass, ih (Nat.le_of_lt_succ hlt)]
    · have hread : readMessage s.rest.toList = none :=
        readMessage_eq_none_iff.2 fun m hm => hnone m (Message.begins_iff.2 hm)
      rw [readMessages_of_none hread, if_neg (String.toList_eq_nil_iff.not.2 hempty)]
      simp [hpass]

end Splitter

/-! ### Counting bytes in a token -/

/-- Counting the bytes of `token` goes well, whether it is a token or the rest of a buffer. -/
structure CountsSafely (token : String) : Prop where
  /-- What a shape counts is more than nothing and no more than there is, and ends a character. -/
  matched {s : Shape} {m : Message} {n : Nat} (h : s.match? token = some (m, n)) :
    (1 ≤ n ∧ n ≤ token.utf8ByteSize) ∧ String.Pos.Raw.IsValid token ⟨n⟩ ∧
      ∃ rest, token = m.encode ++ rest ∧ cut? token n = some (m.encode, rest)
  /-- The same is found without counting. -/
  read (s : Shape) : s.match? token = (s.read token.toList).map fun found =>
    (found.1, (Decoded.of token.toList found).consumed)
  /-- No cut fails when one kind is tried, nor when all are. -/
  decoded (k : Kind) : k.decodeByCount token = some (decodeAs k token)
  classified : classifyPrefixByCount token = some (classifyPrefix token)
  /-- No cut fails in a pass of the loop, and less is left after it. -/
  passed (found : List Message) :
    (∃ m rest, Splitter.pass ⟨found, token⟩ = some (.ok ⟨found ++ [m], rest⟩) ∧
      token = m.encode ++ rest ∧ rest.utf8ByteSize < token.utf8ByteSize) ∨
    ∃ e, Splitter.pass ⟨found, token⟩ = some (.error e)
  /-- As many passes as there are bytes are enough, whatever the buffer. -/
  ended (h : token ≠ "") :
    Splitter.run token.utf8ByteSize ⟨[], token⟩ = some (classifyAll token)

/-- Every match goes forward by whole characters; so a token can be cut behind it, and a buffer is
    split in no more passes than it has bytes. -/
theorem counts_safely (token : String) : CountsSafely token where
  matched {s m n} h := by
    obtain ⟨-, ⟨rest, rfl⟩, rfl⟩ := Shape.match?_eq_some_iff.1 h
    refine ⟨⟨m.utf8ByteSize_encode_pos, ?_⟩, ?_, rest, rfl, cut?_encode m rest⟩
    · rw [String.utf8ByteSize_append]
      exact Nat.le_add_right _ _
    · exact String.Pos.Raw.isValid_iff_exists_append.2 ⟨m.encode, rest, rfl, rfl⟩
  read s := by
    rw [s.match?_eq]
    refine Option.map_congr fun found hfound => ?_
    obtain ⟨m, rest⟩ := found
    obtain ⟨-, htoken⟩ := Shape.read_eq_some_iff.1 hfound
    rw [htoken, Decoded.of_wire_append, Decoded.consumed]
  decoded k := k.decodeByCount_eq token
  classified := classifyPrefixByCount_eq token
  passed found := by
    obtain ⟨m, rest, htoken, hpass⟩ | ⟨-, hpass⟩ := Splitter.pass_cases ⟨found, token⟩
    · exact .inl ⟨m, rest, hpass, htoken, Splitter.utf8ByteSize_pass_lt hpass⟩
    · exact .inr ⟨_, hpass⟩
  ended h := by
    have hrun := Splitter.run_eq (Nat.le_refl (Splitter.rest ⟨[], token⟩).utf8ByteSize)
    refine hrun.trans ?_
    rw [classifyAll, if_neg (String.toList_eq_nil_iff.not.2 h)]
    simp

/-- A digit is followed by a character of two bytes: the token can be cut in front of that
    character, but not within it. -/
theorem counts_safely_accent :
    Shape.warning.match? "W3é" = some (.warning .three, 2) ∧
      String.Pos.Raw.IsValid "W3é" ⟨2⟩ ∧ cut? "W3é" 2 = some ("W3", "é") ∧ cut? "W3é" 3 = none ∧
      Splitter.run 4 ⟨[], "W3é"⟩ = some (classifyAll "W3é") := by
  have hmatch : Shape.warning.match? "W3é" = some (.warning .three, 2) := by decide
  obtain ⟨-, hvalid, -⟩ := (counts_safely "W3é").matched hmatch
  exact ⟨hmatch, hvalid, by decide, by decide, (counts_safely "W3é").ended (by decide)⟩

end GridRobot
