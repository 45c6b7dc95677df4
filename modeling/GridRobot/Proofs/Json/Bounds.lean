import GridRobot.Proofs.Json.Arrangement
import GridRobot.Proofs.Wire.Lossless

/-!
# Numbers out of range

An integer is written by its digits, however large it is. It is read as a digit
or a coordinate just if it is one, and then as itself (`digit_read_iff`,
`coord_read_iff`): an integer that does not fit into a word is not read as an
integer at all, so that nothing wraps. Hence an object of coordinates is decoded
as a message just if the checking constructor makes that message of the same
coordinates (`json_bounds`).
-/

namespace GridRobot.Json

variable {α β σ : Type} {before after rest rest' bytes : List UInt8} {n k low high : Int}
  {own ms : List (String × Value)} {m : Message}

/-! ### Integers of any size -/

theorem ranged_eq_ok_iff {expected : String} {number : Number} :
    Decoder.ranged expected low high number = .ok k ↔
      number = .integer k ∧ low ≤ k ∧ k ≤ high := by
  cases number with
  | integer n =>
    rw [Decoder.ranged, Number.integer.injEq]
    by_cases hn : low ≤ n ∧ n ≤ high
    · rw [if_pos hn, Except.ok.injEq]
      refine ⟨?_, And.left⟩
      rintro rfl
      exact ⟨rfl, hn⟩
    · rw [if_neg hn]
      refine iff_of_false nofun ?_
      rintro ⟨rfl, h⟩
      exact hn h
  | float x => exact iff_of_false nofun nofun

/-- What is written of an integer is read just if it is in range. -/
theorem integer_read_writeInteger_iff {expected : String}
    (hword : ∀ n, low ≤ n → n ≤ high → FitsWord n) (hbefore : Blank before) (hrest : Stops rest) :
    (Decoder.integer expected low high).read (before ++ (Utf8.encode (writeInteger n) ++ rest)) =
        .ok (k, rest') ↔ (k = n ∧ low ≤ n ∧ n ≤ high) ∧ rest' = rest := by
  obtain ⟨b, more, hbytes, hb⟩ := encode_writeInteger_cons n
  have htoken := token_bytes hbytes hbefore (isBlank_of_integer hb).1 rest
  have hnumber : (number >>= fun k => settle (Decoder.ranged expected low high k))
      (Utf8.encode (writeInteger n) ++ rest) = .ok (k, rest') ↔
        (k = n ∧ low ≤ n ∧ n ≤ high) ∧ rest' = rest := by
    simp only [bind_eq_ok_iff, settle_eq_ok_iff, ranged_eq_ok_iff]
    constructor
    · rintro ⟨number, mid, hnumber, ⟨rfl, hk⟩, rfl⟩
      obtain ⟨-, rfl, rfl⟩ := (number_writeInteger_eq_ok_iff hrest).1 hnumber
      exact ⟨⟨rfl, hk⟩, rfl⟩
    · rintro ⟨⟨rfl, hk⟩, rfl⟩
      exact ⟨_, _, number_writeInteger (hword k hk.1 hk.2) hrest, ⟨rfl, hk⟩, rfl⟩
  have hread : (Decoder.integer expected low high).read _ = _ := bind_eq htoken
  rw [hread]
  rcases start_of_integer hb with hstart | hstart
  · rw [hstart]
    exact hnumber
  · rw [hstart]
    exact hnumber

theorem fitsWord_of_range (hlow : minCoord ≤ n) (hhigh : n ≤ maxCoord) : FitsWord n :=
  fitsWord_coord ⟨n, hlow, hhigh⟩

/-- What is read as a digit is an integer of a byte that is one. -/
theorem digit_read_eq_ok_iff {text : List UInt8} {d : Digit} :
    digitDecoder.read text = .ok (d, rest) ↔
      (Decoder.integer "u8" 0 255).read text = .ok ((d.val : Int), rest) := by
  refine bind_eq_ok_iff.trans ?_
  simp only [settle_eq_ok_iff]
  constructor
  · rintro ⟨k, mid, hread, hd, rfl⟩
    cases hk : Digit.ofInt? k with
    | some d' =>
      rw [hk] at hd
      cases hd
      rwa [Digit.ofInt?_eq_some.1 hk]
    | none =>
      rw [hk] at hd
      cases hd
  · intro hread
    refine ⟨d.val, rest, hread, ?_, rfl⟩
    rw [Digit.ofInt?_eq_some.2 rfl]

/-- An integer is read as a digit just if it is one. -/
theorem digit_read_iff {d : Digit} (hbefore : Blank before) (hrest : Stops rest) :
    digitDecoder.read (before ++ (Utf8.encode (writeInteger n) ++ rest)) = .ok (d, rest') ↔
      (d.val : Int) = n ∧ rest' = rest := by
  have hword (n : Int) (hlow : 0 ≤ n) (hhigh : n ≤ 255) : FitsWord n :=
    fitsWord_of_range (Int.le_trans (by decide) hlow) (Int.le_trans hhigh (by decide))
  rw [digit_read_eq_ok_iff, integer_read_writeInteger_iff hword hbefore hrest]
  refine and_congr_left fun _ => and_iff_left_of_imp ?_
  rintro rfl
  omega

/-- An integer is read as a coordinate just if it is one. -/
theorem coord_read_iff {x : Coord} (hbefore : Blank before) (hrest : Stops rest) :
    coordDecoder.read (before ++ (Utf8.encode (writeInteger n) ++ rest)) = .ok (x, rest') ↔
      x.val = n ∧ rest' = rest := by
  refine bind_eq_ok_iff.trans ?_
  simp only [settle_eq_ok_iff, Except.ok.injEq,
    integer_read_writeInteger_iff (fun _ => fitsWord_of_range) hbefore hrest]
  constructor
  · rintro ⟨k, mid, ⟨⟨rfl, hlow, hhigh⟩, rfl⟩, rfl, rfl⟩
    exact ⟨Coord.val_saturate hlow hhigh, rfl⟩
  · rintro ⟨rfl, rfl⟩
    refine ⟨x.val, _, ⟨⟨rfl, x.min_le, x.le_max⟩, rfl⟩, ?_, rfl⟩
    exact Coord.ext (Coord.val_saturate x.min_le x.le_max)

/-! ### Points of integers of any size -/

/-- The object of a point of two integers, whether or not they are coordinates. -/
def ofPair (row col : Int) : Value := .object [("row", ofInteger row), ("col", ofInteger col)]

/-- A member of an object as it is written is read by its decoder, and the others after it. -/
theorem exists_read_of_readMembers {r : Record σ α} {s s' : σ} {fuel : Nat} {first : Bool}
    {name : String} {v : Value} {mem : Member σ}
    (hfind : r.members.find? (·.name = name) = some mem)
    (h : r.readMembers fuel first s (memberBytes first ((name, v) :: ms) ++ byte '\x7d' :: rest) =
      .ok (s', rest')) :
    ∃ f mid fuel', mem.fill.read (v.bytes ++ (memberBytes false ms ++ byte '\x7d' :: rest)) =
        .ok (f, mid) ∧ r.readMembers fuel' false (f s) mid = .ok (s', rest') := by
  cases fuel with
  | zero => cases h
  | succ fuel =>
    rw [memberBytes_cons] at h
    simp only [List.append_assoc, List.cons_append] at h
    obtain ⟨mem', f, mid, hfind', -, hread, h⟩ | ⟨mid, hfind', -⟩ :=
      (Record.readMembers_cons_eq_ok_iff (moreMembers_writeText first name _)
        (text_writeText name _) (colon_eq _)).1 h
    · cases hfind.symm.trans hfind'
      exact ⟨f, mid, fuel, hread, h⟩
    · cases hfind.symm.trans hfind'

theorem map_read_eq_ok_iff {d : Decoder α} {f : α → β} {b : β} {text : List UInt8} :
    (d.map f).read text = .ok (b, rest) ↔ ∃ a, d.read text = .ok (a, rest) ∧ f a = b := by
  refine bind_eq_ok_iff.trans ?_
  simp only [settle_eq_ok_iff, Except.ok.injEq]
  constructor
  · rintro ⟨a, mid, ha, hb, rfl⟩
    exact ⟨a, ha, hb⟩
  · rintro ⟨a, ha, hb⟩
    exact ⟨a, rest, ha, hb, rfl⟩

/-- An object is read as a record if its members complete the record. -/
theorem exists_readMembers_of_read {r : Record σ α} {a : α} {text : List UInt8}
    (hbefore : Blank before)
    (h : r.decoder.read (before ++ byte '\x7b' :: text) = .ok (a, rest)) :
    ∃ s mid, r.readMembers (text.length + 1) true r.blank text = .ok (s, mid) ∧
      r.complete s = .ok a ∧ closeObject mid = .ok ((), rest) := by
  have hread : r.decoder.read (before ++ byte '\x7b' :: text) =
      (do
        let s ← r.readMembers (text.length + 1) true r.blank
        let a ← settle (r.complete s)
        closeObject
        return a : Reader α) text :=
    (bind_eq (token_eq hbefore (by decide) text)).trans
      ((bind_eq (skip_cons _ text)).trans (bind_eq (bound_eq text)))
  rw [hread] at h
  obtain ⟨s, mid, hs, h⟩ := bind_eq_ok_iff.1 h
  obtain ⟨a', mid', hsettle, h⟩ := bind_eq_ok_iff.1 h
  obtain ⟨_, mid'', hclose, hreturn⟩ := bind_eq_ok_iff.1 h
  obtain ⟨hcomplete, rfl⟩ := settle_eq_ok_iff.1 hsettle
  obtain ⟨rfl, rfl⟩ := pure_eq_ok_iff.1 hreturn
  exact ⟨s, mid, hs, hcomplete, hclose⟩

/-- Two integers are read as a point just if both are coordinates. -/
theorem point_read_iff {row col : Int} {p : Point} (hbefore : Blank before) (hrest : Stops rest) :
    pointRecord.decoder.read (before ++ ((ofPair row col).bytes ++ rest)) = .ok (p, rest') ↔
      (p.row.val = row ∧ p.col.val = col) ∧ rest' = rest := by
  constructor
  · intro h
    -- Member by member, as the text is read: past a word the tree no longer tells the integer.
    rw [ofPair, bytes_object_append] at h
    obtain ⟨s, mid, hs, hcomplete, hclose⟩ := exists_readMembers_of_read hbefore h
    obtain ⟨f, mid₁, fuel, hrow, hs⟩ := exists_read_of_readMembers rfl hs
    obtain ⟨x, hx, rfl⟩ := map_read_eq_ok_iff.1 hrow
    rw [ofInteger, bytes_integer] at hx
    obtain ⟨rfl, rfl⟩ := (coord_read_iff blank_nil (stops_memberBytes _ _)).1 hx
    obtain ⟨f, mid₂, fuel, hcol, hs⟩ := exists_read_of_readMembers rfl hs
    obtain ⟨y, hy, rfl⟩ := map_read_eq_ok_iff.1 hcol
    rw [ofInteger, bytes_integer] at hy
    obtain ⟨rfl, rfl⟩ := (coord_read_iff blank_nil (stops_memberBytes _ _)).1 hy
    cases fuel with
    | zero => cases hs
    | succ fuel =>
      rw [Record.readMembers, memberBytes_nil, List.nil_append,
        bind_eq (moreMembers_close false rest)] at hs
      cases hs
      cases hcomplete
      cases (closeObject_eq rest).symm.trans hclose
      exact ⟨⟨rfl, rfl⟩, rfl⟩
  · rintro ⟨⟨rfl, rfl⟩, rfl⟩
    exact (point_reads p).text hbefore hrest

/-! ### Trees of integers -/

/-- A digit is made of an integer of a tree just if it is one. -/
theorem digit_ofValue_iff {d : Digit} :
    digitDecoder.ofValue (ofInteger n) = .ok d ↔ (d.val : Int) = n := by
  have hbyte : (Decoder.integer "u8" 0 255).ofValue (ofInteger n) =
      Decoder.ranged "u8" 0 255 (.integer n) := rfl
  refine outcome_bind_eq_ok_iff.trans ?_
  dsimp only
  rw [hbyte]
  constructor
  · rintro ⟨k, hk, hd⟩
    cases (ranged_eq_ok_iff.1 hk).1
    cases hdigit : Digit.ofInt? n with
    | some d' =>
      rw [hdigit] at hd
      cases hd
      exact Digit.ofInt?_eq_some.1 hdigit
    | none =>
      rw [hdigit] at hd
      cases hd
  · rintro rfl
    refine ⟨d.val, ranged_eq_ok_iff.2 ⟨rfl, by omega, by omega⟩, ?_⟩
    rw [Digit.ofInt?_eq_some.2 rfl]

/-- The members of a point. -/
def pointMembers (p : Point) : List (String × Value) :=
  [("row", ofInteger p.row.val), ("col", ofInteger p.col.val)]

/-- A cell is made of the integers of a point just if it is the cell of that point. -/
theorem cell_ofValue_iff {p : Point} {c : Cell} (h : Arranged cellRecord.names (pointMembers p) ms) :
    cellRecord.decoder.ofValue (.object ms) = .ok c ↔ Cell.ofPoint p = .ok c := by
  have hpair : cellRecord.decoder.ofValue (.object (pointMembers p)) = .ok c ↔ ∃ row col,
      digitDecoder.ofValue (ofInteger p.row.val) = .ok row ∧
        digitDecoder.ofValue (ofInteger p.col.val) = .ok col ∧
          cellRecord.finish (some row, some col) = .ok c :=
    pair_ofValue_eq_ok_iff rfl rfl (by decide)
  rw [Record.ofValue_arranged cell_apart rfl h, hpair]
  simp only [digit_ofValue_iff]
  constructor
  · rintro ⟨row, col, hrow, hcol, hcell⟩
    cases hcell
    have hpoint : Cell.toPoint ⟨row, col⟩ = p := Point.ext (Coord.ext hrow) (Coord.ext hcol)
    rw [← hpoint, Cell.ofPoint_toPoint]
  · intro hcell
    cases Cell.toPoint_of_ofPoint hcell
    exact ⟨c.row, c.col, rfl, rfl, rfl⟩

/-! ### Messages of coordinates -/

theorem warning_message_iff :
    Tag.warning.message (.object [("instructions", ofInteger n)]) = .ok m ↔
      Message.warning? n = .ok m := by
  have hrecord {d : Digit} :
      warningRecord.decoder.ofValue (.object [("instructions", ofInteger n)]) = .ok d ↔
        Digit.ofInt? n = some d := by
    refine single_ofValue_eq_ok_iff.trans ?_
    simp only [digit_ofValue_iff, ← Digit.ofInt?_eq_some, id_eq, exists_eq_right]
  simp only [Tag.message, outcome_bind_eq_ok_iff, outcome_pure_eq_ok_iff, hrecord, Message.warning?]
  cases Digit.ofInt? n with
  | some d => simp
  | none => simp

theorem location_message_iff {p : Point} :
    Tag.location.message (.object (pointMembers p)) = .ok m ↔ Message.location? p = .ok m := by
  simp only [Tag.message, Message.location?, outcome_bind_eq_ok_iff, outcome_pure_eq_ok_iff,
    cell_ofValue_iff (.of_perm (.refl _))]

theorem blockDetected_message_iff {robot block : Point} {rs bs : List (String × Value)}
    (hrs : Arranged cellRecord.names (pointMembers robot) rs)
    (hbs : Arranged cellRecord.names (pointMembers block) bs) :
    Tag.blockDetected.message (.object [("robot", .object rs), ("block", .object bs)]) = .ok m ↔
      Message.blockDetected? robot block = .ok m := by
  have hpair {c : Cell × Cell} :
      blockRecord.decoder.ofValue (.object [("robot", .object rs), ("block", .object bs)]) = .ok c ↔
        ∃ robot' block', cellRecord.decoder.ofValue (.object rs) = .ok robot' ∧
          cellRecord.decoder.ofValue (.object bs) = .ok block' ∧
            blockRecord.finish (some robot', some block') = .ok c :=
    pair_ofValue_eq_ok_iff rfl rfl (by decide)
  simp only [Tag.message, Message.blockDetected?, outcome_bind_eq_ok_iff, outcome_pure_eq_ok_iff,
    hpair, cell_ofValue_iff hrs, cell_ofValue_iff hbs]
  constructor
  · rintro ⟨c, ⟨robot', block', hrobot, hblock, hfinish⟩, rfl⟩
    cases hfinish
    exact ⟨robot', hrobot, block', hblock, rfl⟩
  · rintro ⟨robot', hrobot, block', hblock, rfl⟩
    exact ⟨(robot', block'), ⟨robot', block', hrobot, hblock, rfl⟩, rfl⟩

/-- However the members `own` stand among others, the object is decoded as `outcome` says from all
    its texts, of which one is the object as it is written, between blanks. -/
structure DecodesAs (names : List String) (own : List (String × Value))
    (outcome : Except MessageError Message) : Prop where
  spells {ms : List (String × Value)} {before after : List UInt8} (h : Among names own ms)
    (hbefore : Blank before) (hafter : Blank after) :
    Spells (nesting + 1) (before ++ (Value.object ms).bytes ++ after) (.object ms)
  eq_ok_iff {ms : List (String × Value)} {bytes : List UInt8} (h : Among names own ms)
    (hbytes : Spells (nesting + 1) bytes (.object ms)) (m : Message) :
    messageOfBytes bytes = .ok m ↔ outcome = .ok m

theorem decodesAs {tag : Tag} {s : String} {outcome : Except MessageError Message}
    (hfind : tagChoices.find s = .ok tag) (hown : ∀ x ∈ own, IsPayload x)
    (h : ∀ m, tag.message (.object own) = .ok m ↔ outcome = .ok m) :
    DecodesAs ("type" :: tag.names) (("type", .text s) :: own) outcome where
  spells hms hbefore hafter := by
    have hwithin : ∀ x ∈ ("type", Value.text s) :: own, x.2.Within nesting :=
      List.forall_mem_cons.2 ⟨.text nesting s, fun x hx => (hown x hx).within⟩
    exact (hms.within (by decide) hwithin).spells hbefore hafter
  eq_ok_iff hms hbytes m := by
    have hname : ∀ x ∈ own, x.1 ≠ "type" := fun x hx => (hown x hx).name_ne
    exact (messageOfBytes_arranged hms.arranged hfind hname hbytes).trans (h m)

/-- The message that the checking constructors make of what a message tells. -/
def rebuilt : Message → Except MessageError Message
  | .warning n => Message.warning? n.val
  | .location robot => Message.location? robot.toPoint
  | .blockDetected robot block => Message.blockDetected? robot.toPoint block.toPoint
  | .movement heading motion => .ok (.movement heading (Motion.ofBool motion.moves))
  | .done => .ok .done
  | .finish => .ok .finish
  | .stateChange => .ok .stateChange

theorem rebuilt_eq (m : Message) : rebuilt m = .ok m := by
  cases m with
  | warning n =>
    rw [rebuilt, Message.warning?, Digit.ofInt?_eq_some.2 rfl]
  | location robot =>
    rw [rebuilt, Message.location?, Cell.ofPoint_toPoint]
    rfl
  | blockDetected robot block =>
    rw [rebuilt, Message.blockDetected?, Cell.ofPoint_toPoint, Cell.ofPoint_toPoint]
    rfl
  | movement heading motion => rw [rebuilt, Motion.ofBool_moves]
  | done => rfl
  | finish => rfl
  | stateChange => rfl

/-- Numbers are read just if they are in range, and then as themselves; decoding and the checking
    constructors agree on what a message may carry. -/
structure JsonBounds : Prop where
  digit {before after : List UInt8} (hbefore : Blank before) (hafter : Blank after) (n : Int)
    (d : Digit) :
    run digitDecoder.read (before ++ Utf8.encode (writeInteger n) ++ after) = .ok d ↔
      (d.val : Int) = n
  digitRange {before after : List UInt8} (hbefore : Blank before) (hafter : Blank after) (n : Int) :
    (∃ d, run digitDecoder.read (before ++ Utf8.encode (writeInteger n) ++ after) = .ok d) ↔
      0 ≤ n ∧ n ≤ 9
  point {before after : List UInt8} (hbefore : Blank before) (hafter : Blank after) (row col : Int)
    (p : Point) :
    run pointRecord.decoder.read (before ++ (ofPair row col).bytes ++ after) = .ok p ↔
      p.row.val = row ∧ p.col.val = col
  pointRange {before after : List UInt8} (hbefore : Blank before) (hafter : Blank after)
    (row col : Int) :
    (∃ p, run pointRecord.decoder.read (before ++ (ofPair row col).bytes ++ after) = .ok p) ↔
      (minCoord ≤ row ∧ row ≤ maxCoord) ∧ minCoord ≤ col ∧ col ≤ maxCoord
  warning (n : Coord) : DecodesAs ["type", "instructions"]
    [("type", .text "Warning"), ("instructions", ofInteger n.val)] (Message.warning? n.val)
  location (robot : Point) : DecodesAs ["type", "row", "col"]
    (("type", .text "Location") :: pointMembers robot) (Message.location? robot)
  blockDetected {robot block : Point} {rs bs : List (String × Value)}
    (hrs : Among cellRecord.names (pointMembers robot) rs)
    (hbs : Among cellRecord.names (pointMembers block) bs) :
    DecodesAs ["type", "robot", "block"]
      [("type", .text "BlockDetected"), ("robot", .object rs), ("block", .object bs)]
      (Message.blockDetected? robot block)
  built {bytes : List UInt8} {m : Message} (h : messageOfBytes bytes = .ok m) : rebuilt m = .ok m
  classified {bytes : List UInt8} {m : Message} (h : messageOfBytes bytes = .ok m) :
    classify m.encode = .ok m

theorem Among.point {p : Point} (h : Among cellRecord.names (pointMembers p) ms) :
    (Value.object ms).Within nesting := by
  have hown : ∀ x ∈ pointMembers p, x.2.Within 126 :=
    forall_mem_pair (within_coord p.row) (within_coord p.col)
  exact h.within (by decide) hown

/-- A text is read as what its front is read as, if only blanks are left. -/
theorem run_append_eq_ok_iff {read : Reader α} {P : Prop} {a : α} {text : List UInt8}
    (hafter : Blank after) (h : ∀ rest, read (text ++ after) = .ok (a, rest) ↔ P ∧ rest = after) :
    run read (text ++ after) = .ok a ↔ P := by
  rw [run_eq_ok_iff]
  constructor
  · rintro ⟨rest, hread, -⟩
    exact ((h rest).1 hread).1
  · intro ha
    exact ⟨after, (h after).2 ⟨ha, rfl⟩, hafter⟩

theorem digit_run_iff (hbefore : Blank before) (hafter : Blank after) {d : Digit} :
    run digitDecoder.read (before ++ Utf8.encode (writeInteger n) ++ after) = .ok d ↔
      (d.val : Int) = n := by
  refine run_append_eq_ok_iff hafter fun rest => ?_
  rw [List.append_assoc]
  exact digit_read_iff hbefore (stops_of_blank hafter)

theorem point_run_iff (hbefore : Blank before) (hafter : Blank after) {row col : Int} {p : Point} :
    run pointRecord.decoder.read (before ++ (ofPair row col).bytes ++ after) = .ok p ↔
      p.row.val = row ∧ p.col.val = col := by
  refine run_append_eq_ok_iff hafter fun rest => ?_
  rw [List.append_assoc]
  exact point_read_iff hbefore (stops_of_blank hafter)

/-- A number out of range is refused, whatever its size, and decoding makes no message that the
    checking constructors do not make. -/
theorem json_bounds : JsonBounds where
  digit hbefore hafter n d := digit_run_iff hbefore hafter
  digitRange hbefore hafter n := by
    simp only [digit_run_iff hbefore hafter]
    constructor
    · rintro ⟨d, rfl⟩
      omega
    · intro hn
      exact ⟨⟨n.toNat, by omega⟩, Int.toNat_of_nonneg hn.1⟩
  point hbefore hafter row col p := point_run_iff hbefore hafter
  pointRange hbefore hafter row col := by
    simp only [point_run_iff hbefore hafter]
    constructor
    · rintro ⟨p, rfl, rfl⟩
      exact ⟨⟨p.row.min_le, p.row.le_max⟩, p.col.min_le, p.col.le_max⟩
    · rintro ⟨⟨hrow, hrow'⟩, hcol, hcol'⟩
      exact ⟨⟨⟨row, hrow, hrow'⟩, ⟨col, hcol, hcol'⟩⟩, rfl, rfl⟩
  warning n := by
    have hfind : tagChoices.find "Warning" = .ok .warning := rfl
    refine decodesAs hfind ?_ fun m => warning_message_iff
    exact List.forall_mem_singleton.2 (isPayload (by decide) (within_coord n))
  location robot := by
    have hfind : tagChoices.find "Location" = .ok .location := rfl
    refine decodesAs hfind ?_ fun m => location_message_iff
    exact forall_mem_pair (isPayload (by decide) (within_coord robot.row))
      (isPayload (by decide) (within_coord robot.col))
  blockDetected hrs hbs := by
    have hfind : tagChoices.find "BlockDetected" = .ok .blockDetected := rfl
    refine decodesAs hfind ?_ fun m => blockDetected_message_iff hrs.arranged hbs.arranged
    exact forall_mem_pair (isPayload (by decide) hrs.point) (isPayload (by decide) hbs.point)
  built {bytes m} _ := rebuilt_eq m
  classified {bytes m} _ := m.classify_encode

/-- Ten is no digit, and neither is the number past the greatest word by three. -/
theorem json_bounds_past_word :
    Blank [byte ' '] ∧
      (∀ d, run digitDecoder.read ([byte ' '] ++ Utf8.encode (writeInteger 10) ++ []) ≠ .ok d) ∧
      (∀ d, run digitDecoder.read
        ([] ++ Utf8.encode (writeInteger 0x10000000000000003) ++ [byte ' ']) ≠ .ok d) ∧
      run digitDecoder.read ([] ++ Utf8.encode (writeInteger 3) ++ []) = .ok .three := by
  have hblank : Blank [byte ' '] := by decide
  refine ⟨hblank, fun d h => ?_, fun d h => ?_, ?_⟩
  · have hd := (json_bounds.digit hblank blank_nil 10 d).1 h
    omega
  · have hd := (json_bounds.digit blank_nil hblank 0x10000000000000003 d).1 h
    omega
  · exact (json_bounds.digit blank_nil blank_nil 3 .three).2 rfl

end GridRobot.Json
