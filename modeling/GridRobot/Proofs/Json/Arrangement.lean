import GridRobot.Proofs.Json.Forms

/-!
# Objects in any order

The members of an object may stand in any order, and others may stand among
them: whatever has the form of a record is read from all texts of such objects
as from its own (`Record.reads_among`), and so is a message, wherever its tag
stands (`messageOfBytes_arranged`). Waits that are left out of a cadence have
their usual length (`cadence_given`). No member that is known may stand there
twice (`Record.rejects_repeats`, `messageOfBytes_ne_ok`).
-/

namespace GridRobot.Json

variable {α β γ σ : Type} {a : α} {b : β} {c : γ} {v : Value} {depth depth' : Nat}
  {bytes before after : List UInt8} {known : List String} {own ms : List (String × Value)}
  {m : Message} {tag : Tag}

/-! ### Whole texts -/

/-- The bytes are a text of `v`, with as many levels as `depth` allows. -/
def Spells (depth : Nat) (bytes : List UInt8) (v : Value) : Prop := run (value depth) bytes = .ok v

theorem Value.Within.mono (h : v.Within depth) (hdepth : depth ≤ depth') : v.Within depth' := by
  induction h generalizing depth' with
  | null => exact .null depth'
  | boolean _ b => exact .boolean depth' b
  | integer _ hn => exact .integer depth' hn
  | text _ s => exact .text depth' s
  | list h ih =>
    obtain ⟨k, rfl⟩ : ∃ k, depth' = k + 2 := Nat.exists_eq_add_of_le' (by omega)
    exact .list fun v hv => ih v hv (by omega)
  | object h ih =>
    obtain ⟨k, rfl⟩ : ∃ k, depth' = k + 2 := Nat.exists_eq_add_of_le' (by omega)
    exact .object fun x hx => ih x hx (by omega)

/-- A value is spelled by its text between blanks. -/
theorem Value.Within.spells (h : v.Within depth) (hbefore : Blank before) (hafter : Blank after) :
    Spells depth (before ++ v.bytes ++ after) v := by
  rw [List.append_assoc]
  exact run_eq_ok_iff.2 ⟨after, h.value_eq hbefore (stops_of_blank hafter), hafter⟩

/-- What a decoder covers is read from whatever spells it. -/
theorem Decoder.Covers.run_eq {d : Decoder α} (h : d.Covers v) (hbytes : Spells depth bytes v)
    (ha : d.ofValue v = .ok a) : run d.read bytes = .ok a := by
  obtain ⟨rest, hvalue, hrest⟩ := run_eq_ok_iff.1 hbytes
  exact run_eq_ok_iff.2 ⟨rest, h.read_eq hvalue ha, hrest⟩

theorem Decoder.Sound.ofValue_eq {d : Decoder α} (h : d.Sound) (hbytes : Spells depth bytes v)
    (ha : run d.read bytes = .ok a) : d.ofValue v = .ok a := by
  obtain ⟨rest, hvalue, -⟩ := run_eq_ok_iff.1 hbytes
  obtain ⟨rest', hread, -⟩ := run_eq_ok_iff.1 ha
  exact (h.agree hvalue hread).1

/-! ### Objects among other members -/

/-- The members `own` stand in the object in any order, among others that are not called any of
    `names` and in which at most a hundred lists and objects stand one within the other. -/
structure Among (names : List String) (own ms : List (String × Value)) : Prop where
  arranged : Arranged names own ms
  shallow : ∀ x ∈ ms, x.1 ∉ names → x.2.Within 101

/-- However the members `own` stand among others, the object is read as `b` from all its texts, of
    which one is the object as it is written, between blanks. -/
structure ReadsAmong (read : Reader β) (names : List String) (own : List (String × Value)) (b : β) :
    Prop where
  spells {ms : List (String × Value)} {before after : List UInt8} (h : Among names own ms)
    (hbefore : Blank before) (hafter : Blank after) :
    Spells (nesting + 1) (before ++ (Value.object ms).bytes ++ after) (.object ms)
  run_eq {ms : List (String × Value)} {bytes : List UInt8} (h : Among names own ms)
    (hbytes : Spells (nesting + 1) bytes (.object ms)) : run read bytes = .ok b

theorem Arranged.mem_own {x : String × Value} (h : Arranged known own ms) (hx : x ∈ ms)
    (hname : x.1 ∈ known) : x ∈ own := by
  obtain ⟨others, hperm, hothers⟩ := h
  exact (List.mem_append.1 (hperm.mem_iff.1 hx)).resolve_right fun h => hothers x h hname

/-- An object in which others stand has no more levels than they and its own members allow. -/
theorem Among.within (h : Among known own ms) (hdepth : 101 ≤ depth + 1)
    (hown : ∀ x ∈ own, x.2.Within (depth + 1)) : (Value.object ms).Within (depth + 2) := by
  refine .object fun x hx => ?_
  by_cases hname : x.1 ∈ known
  · exact hown x (h.arranged.mem_own hx hname)
  · exact (h.shallow x hx hname).mono hdepth

/-- A record is read from its members in any order, and among others if it is not closed. -/
theorem Record.reads_among {r : Record σ α} (hr : r.Apart) (hopen : r.closed = false)
    (hown : r.decoder.ofValue (.object own) = .ok a) (hwithin : ∀ x ∈ own, x.2.Within nesting)
    (hcovers : r.CoversAll own) :
    ReadsAmong r.decoder.read r.names own a where
  spells h hbefore hafter := (h.within (by decide) hwithin).spells hbefore hafter
  run_eq {ms bytes} h hbytes := by
    have hms : r.decoder.Covers (.object ms) := by
      refine decoder_covers fun x hx m hm hname => ?_
      have hmem : x.1 ∈ r.names := hname ▸ List.mem_map_of_mem hm
      exact hcovers x (h.arranged.mem_own hx hmem) m hm hname
    exact hms.run_eq hbytes ((ofValue_arranged hr hopen h.arranged).2 hown)

/-! ### Messages -/

theorem warning_apart : warningRecord.Apart := single_apart _ _ _ _

theorem point_apart : pointRecord.Apart := pair_apart rfl

theorem cell_apart : cellRecord.Apart := pair_apart rfl

theorem block_apart : blockRecord.Apart := pair_apart rfl

theorem movement_apart : movementRecord.Apart := pair_apart rfl

theorem duration_apart : durationRecord.Apart := pair_apart rfl

theorem cadence_apart : cadenceRecord.Apart := pair_apart rfl

/-- The members of a payload may stand in any order and among others. -/
theorem Tag.message_arranged (h : Arranged tag.names own ms) :
    tag.message (.object ms) = .ok m ↔ tag.message (.object own) = .ok m := by
  cases tag with
  | warning =>
    simp only [message, outcome_bind_eq_ok_iff, Record.ofValue_arranged warning_apart rfl h]
  | location =>
    simp only [message, outcome_bind_eq_ok_iff, Record.ofValue_arranged cell_apart rfl h]
  | blockDetected =>
    simp only [message, outcome_bind_eq_ok_iff, Record.ofValue_arranged block_apart rfl h]
  | movement =>
    simp only [message, outcome_bind_eq_ok_iff, Record.ofValue_arranged movement_apart rfl h]
  | done => rfl
  | finish => rfl
  | stateChange => rfl

/-- Wherever the tag stands among the members of a message, it is found and leaves the others. -/
theorem Arranged.tagged {s : String} (h : Arranged ("type" :: known) (("type", .text s) :: own) ms)
    (hfind : tagChoices.find s = .ok tag) (hown : ∀ x ∈ own, x.1 ≠ "type") :
    Tagged tag ms ∧ Arranged known own (untagged ms) := by
  obtain ⟨others, hperm, hothers⟩ := h
  have hne : ∀ x ∈ own ++ others, x.1 ≠ "type" := by
    intro x hx
    rcases List.mem_append.1 hx with hx | hx
    · exact hown x hx
    · exact List.ne_of_not_mem_cons (hothers x hx)
  constructor
  · refine ⟨s, ?_, hfind⟩
    have hfilter := hperm.filter (·.1 = "type")
    rw [List.cons_append, List.filter_cons_of_pos (by simp),
      List.filter_eq_nil_iff.2 fun x hx h => hne x hx (of_decide_eq_true h)] at hfilter
    exact List.perm_singleton.1 hfilter
  · refine ⟨others, ?_, fun x hx => List.not_mem_of_not_mem_cons (hothers x hx)⟩
    have hfilter := hperm.filter (·.1 ≠ "type")
    rw [List.cons_append, List.filter_cons_of_neg (by simp),
      List.filter_eq_self.2 fun x hx => decide_eq_true (hne x hx)] at hfilter
    exact hfilter

/-- An object with the tag and the payload of a message is read as that message. -/
theorem messageOfBytes_arranged {s : String}
    (h : Arranged ("type" :: tag.names) (("type", .text s) :: own) ms)
    (hfind : tagChoices.find s = .ok tag) (hown : ∀ x ∈ own, x.1 ≠ "type")
    (hbytes : Spells (nesting + 1) bytes (.object ms)) :
    messageOfBytes bytes = .ok m ↔ tag.message (.object own) = .ok m := by
  obtain ⟨htag, hpayload⟩ := h.tagged hfind hown
  obtain ⟨rest, hvalue, hrest⟩ := run_eq_ok_iff.1 hbytes
  -- What is left besides the tag is arranged as the payload is, and read as it.
  rw [← Tag.message_arranged hpayload, messageOfBytes, run_eq_ok_iff]
  constructor
  · rintro ⟨rest', hread, -⟩
    obtain ⟨tag', htag', hm⟩ := message_sound hvalue hread
    rwa [htag.unique htag']
  · intro hm
    exact ⟨rest, message_covers hvalue htag hm, hrest⟩

theorem message_among {s : String} (hfind : tagChoices.find s = .ok tag)
    (hown : ∀ x ∈ own, IsPayload x) (hm : tag.message (.object own) = .ok m) :
    ReadsAmong message ("type" :: tag.names) (("type", .text s) :: own) m where
  spells h hbefore hafter := by
    have hwithin : ∀ x ∈ ("type", Value.text s) :: own, x.2.Within nesting :=
      List.forall_mem_cons.2 ⟨.text nesting s, fun x hx => (hown x hx).within⟩
    exact (h.within (by decide) hwithin).spells hbefore hafter
  run_eq h hbytes :=
    (messageOfBytes_arranged h.arranged hfind (fun x hx => (hown x hx).name_ne) hbytes).2 hm

/-! ### Cells and cadences -/

/-- A cell is read from its members in any order and among others. -/
theorem Among.cell {cell : Cell} (h : Among cellRecord.names (cellMembers cell) ms) :
    cellRecord.decoder.ofValue (.object ms) = .ok cell ∧ (Value.object ms).Within nesting := by
  have htree : cellRecord.decoder.ofValue (.object (cellMembers cell)) = .ok cell :=
    (cell_reads cell).tree
  have hown : ∀ x ∈ cellMembers cell, x.2.Within 126 :=
    forall_mem_pair (within_digit cell.row) (within_digit cell.col)
  exact ⟨(Record.ofValue_arranged cell_apart rfl h.arranged).2 htree, h.within (by decide) hown⟩

/-- The member for a wait, unless it is left out. -/
def given (name : String) (d? : Option Duration) : List (String × Value) :=
  d?.toList.map fun d => (name, ofDuration d)

theorem exists_of_mem_given {name : String} {d? : Option Duration} {x : String × Value}
    (h : x ∈ given name d?) : ∃ d, x.2 = ofDuration d := by
  obtain ⟨d, -, rfl⟩ := List.mem_map.1 h
  exact ⟨d, rfl⟩

/-- A wait that is left out has its usual length, and the other one that which is given. -/
theorem cadence_given (outbound? inbound? : Option Duration) :
    cadenceRecord.decoder.ofValue
        (.object (given "outbound_wait" outbound? ++ given "inbound_wait" inbound?)) =
      .ok ⟨outbound?.getD (default : Cadence).outbound,
        inbound?.getD (default : Cadence).inbound⟩ := by
  refine Record.ofValue_object_eq_ok_iff.2 ⟨(outbound?, inbound?), ?_, ?_⟩
  · refine Record.ofMembers_append_eq_ok_iff.2 ⟨(outbound?, none), ?_, ?_⟩
    · cases outbound? with
      | none => rfl
      | some d =>
        have htakes : cadenceRecord.Takes (none, none) ("outbound_wait", ofDuration d)
            (some d, none) :=
          (pair_takes_first_iff rfl).2 ⟨rfl, d, (duration_reads d).tree, rfl⟩
        exact Record.ofMembers_cons_eq_ok_iff.2 ⟨_, htakes, rfl⟩
    · cases inbound? with
      | none => rfl
      | some d =>
        have htakes : cadenceRecord.Takes (outbound?, none) ("inbound_wait", ofDuration d)
            (outbound?, some d) :=
          (pair_takes_second_iff rfl (by decide)).2 ⟨rfl, d, (duration_reads d).tree, rfl⟩
        exact Record.ofMembers_cons_eq_ok_iff.2 ⟨_, htakes, rfl⟩
  · cases outbound? <;> cases inbound? <;> rfl

theorem cadence_among (outbound? inbound? : Option Duration) :
    ReadsAmong cadenceRecord.decoder.read cadenceRecord.names
      (given "outbound_wait" outbound? ++ given "inbound_wait" inbound?)
      ⟨outbound?.getD (default : Cadence).outbound,
        inbound?.getD (default : Cadence).inbound⟩ := by
  have hgiven : ∀ x ∈ given "outbound_wait" outbound? ++ given "inbound_wait" inbound?,
      ∃ d, x.2 = ofDuration d := by
    intro x hx
    rcases List.mem_append.1 hx with hx | hx
    · exact exists_of_mem_given hx
    · exact exists_of_mem_given hx
  refine Record.reads_among cadence_apart rfl (cadence_given outbound? inbound?) (fun x hx => ?_)
    (cadence_coversAll hgiven)
  obtain ⟨d, hd⟩ := hgiven x hx
  rw [hd]
  exact within_duration d

/-! ### Repetition -/

/-- An object in which a member called one of `names` stands twice is not read. -/
def RejectsRepeats (read : Reader α) (names : List String) : Prop :=
  ∀ depth bytes ms, Spells depth bytes (.object ms) → Repeats names ms → ∀ a, run read bytes ≠ .ok a

/-- Neither is one that has among the members called one of `outer` an object in which a member
    called one of `names` stands twice. -/
def RejectsRepeatsWithin (read : Reader α) (outer names : List String) : Prop :=
  ∀ depth bytes ms name ns, Spells depth bytes (.object ms) → name ∈ outer →
    (name, .object ns) ∈ ms → Repeats names ns → ∀ a, run read bytes ≠ .ok a

theorem Record.rejects_repeats {r : Record σ α} (hr : r.Apart)
    (hsound : ∀ m ∈ r.members, m.fill.Sound) : RejectsRepeats r.decoder.read r.names := by
  intro depth bytes ms hbytes hrepeats a ha
  have htree := (decoder_sound hsound).ofValue_eq hbytes ha
  obtain ⟨s, hms, -⟩ := ofValue_object_eq_ok_iff.1 htree
  exact not_repeats hr hms hrepeats

/-- The objects among the members of a record of two repeat none of their own. -/
theorem pair_not_repeats {r : Record (Option α × Option α) γ} {inner : Record σ α}
    {name₁ name₂ name : String} {optional : Bool} {ns : List (String × Value)}
    (hmembers : r.members = pairMembers name₁ inner.decoder name₂ inner.decoder optional)
    (hinner : inner.Apart) (h : r.decoder.ofValue (.object ms) = .ok c) (hname : name ∈ r.names)
    (hns : (name, .object ns) ∈ ms) : ¬Repeats inner.names ns := by
  have hdecoder {a : α} (h : inner.decoder.ofValue (.object ns) = .ok a) :
      ¬Repeats inner.names ns := by
    obtain ⟨s, hns, -⟩ := Record.ofValue_object_eq_ok_iff.1 h
    exact Record.not_repeats hinner hns
  obtain ⟨s, hms, -⟩ := Record.ofValue_object_eq_ok_iff.1 h
  obtain ⟨m, hfind⟩ := Record.exists_find? hname
  obtain ⟨f, hf⟩ := Record.exists_ofValue_of_mem hms hns hfind
  have hm := (Record.mem_of_find? hfind).1
  rw [hmembers] at hm
  rcases List.mem_pair.1 hm with rfl | rfl
  · obtain ⟨a, ha, -⟩ := map_ofValue_eq_ok_iff.1 hf
    exact hdecoder ha
  · obtain ⟨a, ha, -⟩ := map_ofValue_eq_ok_iff.1 hf
    exact hdecoder ha

theorem pair_sound {name₁ name₂ : String} {d₁ : Decoder α} {d₂ : Decoder β} {optional : Bool}
    (h₁ : d₁.Sound) (h₂ : d₂.Sound) :
    ∀ m ∈ pairMembers name₁ d₁ name₂ d₂ optional, m.fill.Sound :=
  forall_mem_pair (h₁.map _) (h₂.map _)

theorem digit_sound : digitDecoder.Sound := (Decoder.integer_sound _ _ _).check _

theorem coord_sound : coordDecoder.Sound := (Decoder.integer_sound _ _ _).map _

theorem cell_sound : cellRecord.decoder.Sound :=
  Record.decoder_sound (pair_sound digit_sound digit_sound)

theorem duration_sound : durationRecord.decoder.Sound :=
  Record.decoder_sound (pair_sound ((Decoder.integer_sound _ _ _).map _)
    ((Decoder.integer_sound _ _ _).map _))

theorem pair_rejects_within {r : Record (Option α × Option α) γ} {inner : Record σ α}
    {name₁ name₂ : String} {optional : Bool}
    (hmembers : r.members = pairMembers name₁ inner.decoder name₂ inner.decoder optional)
    (hinner : inner.Apart) (hsound : inner.decoder.Sound) :
    RejectsRepeatsWithin r.decoder.read r.names inner.names := by
  intro depth bytes ms name ns hbytes hname hns hrepeats c hc
  have hmsound : ∀ m ∈ r.members, m.fill.Sound := hmembers ▸ pair_sound hsound hsound
  have htree := (Record.decoder_sound hmsound).ofValue_eq hbytes hc
  exact pair_not_repeats hmembers hinner htree hname hns hrepeats

/-- A member that an object knows by its tag, the tag itself included, stands in it twice. -/
inductive RepeatsKnown (ms : List (String × Value)) : Prop
  | tag (h : Repeats ["type"] ms)
  | payload {s : String} {tag : Tag} (hs : ("type", .text s) ∈ ms)
    (hfind : tagChoices.find s = .ok tag) (h : Repeats tag.names ms)
  | cell {name : String} {ns : List (String × Value)}
    (hs : ("type", .text "BlockDetected") ∈ ms) (hname : name ∈ blockRecord.names)
    (hns : (name, .object ns) ∈ ms) (h : Repeats cellRecord.names ns)

/-- The payload of a message repeats none of its members. -/
theorem Tag.not_repeats (h : tag.message (.object ms) = .ok m) : ¬Repeats tag.names ms := by
  have hrecord {σ α : Type} {r : Record σ α} (hr : r.Apart) {f : α → Except Fault Message}
      (h : (r.decoder.ofValue (.object ms) >>= f) = .ok m) : ¬Repeats r.names ms := by
    obtain ⟨a, ha, -⟩ := outcome_bind_eq_ok_iff.1 h
    obtain ⟨s, hms, -⟩ := Record.ofValue_object_eq_ok_iff.1 ha
    exact Record.not_repeats hr hms
  have hnone : ¬Repeats [] ms := by
    rintro ⟨name, hname, -⟩
    cases hname
  cases tag with
  | warning => exact hrecord warning_apart h
  | location => exact hrecord cell_apart h
  | blockDetected => exact hrecord block_apart h
  | movement => exact hrecord movement_apart h
  | done => exact hnone
  | finish => exact hnone
  | stateChange => exact hnone

theorem count_map_fst {name : String} (ms : List (String × Value)) :
    (ms.map Prod.fst).count name = (ms.filter (·.1 = name)).length := by
  rw [List.count_eq_countP, List.countP_map, List.countP_eq_length_filter]
  exact congrArg List.length (List.filter_congr fun x _ => by simp [Bool.beq_eq_decide_eq])

theorem Tagged.not_repeats (h : Tagged tag ms) : ¬Repeats ["type"] ms := by
  rintro ⟨name, hname, hcount⟩
  obtain ⟨s, hfilter, -⟩ := h
  rw [List.mem_singleton.1 hname, count_map_fst, hfilter] at hcount
  exact Nat.lt_irrefl 1 hcount

theorem Tagged.eq_of_mem {s : String} {tag' : Tag} (h : Tagged tag ms)
    (hs : ("type", .text s) ∈ ms) (hfind : tagChoices.find s = .ok tag') : tag' = tag := by
  obtain ⟨name, hfilter, hname⟩ := h
  have hmem : ("type", Value.text s) ∈ ms.filter (·.1 = "type") :=
    List.mem_filter.2 ⟨hs, decide_eq_true rfl⟩
  rw [hfilter] at hmem
  cases List.mem_singleton.1 hmem
  exact Except.ok.inj (hfind.symm.trans hname)

theorem mem_untagged {x : String × Value} (hx : x ∈ ms) (hname : x.1 ≠ "type") :
    x ∈ untagged ms := List.mem_filter.2 ⟨hx, decide_eq_true hname⟩

/-- What is repeated besides the tag is repeated in the payload. -/
theorem Repeats.untagged {names : List String} (h : Repeats names ms) (htype : "type" ∉ names) :
    Repeats names (untagged ms) := by
  obtain ⟨name, hname, hcount⟩ := h
  refine ⟨name, hname, ?_⟩
  have hne : name ≠ "type" := ne_of_mem_of_not_mem hname htype
  have hfilter : (Json.untagged ms).filter (·.1 = name) = ms.filter (·.1 = name) := by
    rw [Json.untagged, List.filter_filter]
    refine List.filter_congr fun x _ => ?_
    by_cases hx : x.1 = name
    · simp [hx, hne]
    · simp [hx]
  rwa [count_map_fst, hfilter, ← count_map_fst]

theorem Tag.type_not_mem (tag : Tag) : "type" ∉ tag.names := by
  cases tag <;> decide

/-- A message is not read if it repeats a member that it knows. -/
theorem messageOfBytes_ne_ok (hbytes : Spells depth bytes (.object ms)) (h : RepeatsKnown ms)
    (m : Message) : messageOfBytes bytes ≠ .ok m := by
  intro hm
  obtain ⟨rest, hvalue, -⟩ := run_eq_ok_iff.1 hbytes
  obtain ⟨rest', hread, -⟩ := run_eq_ok_iff.1 hm
  obtain ⟨tag, htag, hpayload⟩ := message_sound hvalue hread
  -- The tag by which a member is known can only be the one that the message was read by.
  cases h with
  | tag h => exact htag.not_repeats h
  | payload hs hfind h =>
    cases htag.eq_of_mem hs hfind
    exact Tag.not_repeats hpayload (h.untagged tag.type_not_mem)
  | @cell name ns hs hname hns h =>
    cases htag.eq_of_mem hs rfl
    obtain ⟨cells, hcells, -⟩ := outcome_bind_eq_ok_iff.1 hpayload
    have hne : name ≠ "type" := ne_of_mem_of_not_mem hname (Tag.type_not_mem .blockDetected)
    exact pair_not_repeats rfl cell_apart hcells hname (mem_untagged hns hne) h

/-! ### Every form -/

/-- The objects of all forms are read whatever the order of their members and whatever stands
    among these, but not if a member is repeated. -/
structure ObjectsArranged : Prop where
  message (m : Message) : ReadsAmong message ((messageMembers m).map Prod.fst) (messageMembers m) m
  /-- The cells of a message, too, may have their members in any order and among others. -/
  messageCells {robot block : Cell} {rs bs : List (String × Value)}
    (hrs : Among cellRecord.names (cellMembers robot) rs)
    (hbs : Among cellRecord.names (cellMembers block) bs) :
    ReadsAmong Json.message ["type", "robot", "block"]
      [("type", .text "BlockDetected"), ("robot", .object rs), ("block", .object bs)]
      (.blockDetected robot block)
  point (p : Point) : ReadsAmong pointRecord.decoder.read ["row", "col"]
    [("row", ofInteger p.row.val), ("col", ofInteger p.col.val)] p
  warning (n : Digit) : ReadsAmong warningRecord.decoder.read ["instructions"] (warningMembers n) n
  location (robot : Cell) :
    ReadsAmong cellRecord.decoder.read ["row", "col"] (cellMembers robot) robot
  blockDetected {robot block : Cell} {rs bs : List (String × Value)}
    (hrs : Among cellRecord.names (cellMembers robot) rs)
    (hbs : Among cellRecord.names (cellMembers block) bs) :
    ReadsAmong blockRecord.decoder.read ["robot", "block"]
      [("robot", .object rs), ("block", .object bs)] (robot, block)
  movement (heading : Direction) (motion : Motion) :
    ReadsAmong movementRecord.decoder.read ["direction", "is_move"]
      (movementMembers heading motion) (heading, motion)
  /-- Each wait that is left out of a cadence, and no other, has its usual length. -/
  cadence (outbound? inbound? : Option Duration) :
    ReadsAmong cadenceRecord.decoder.read ["outbound_wait", "inbound_wait"]
      (given "outbound_wait" outbound? ++ given "inbound_wait" inbound?)
      ⟨outbound?.getD (default : Cadence).outbound, inbound?.getD (default : Cadence).inbound⟩
  messageOnce {depth : Nat} {bytes : List UInt8} {ms : List (String × Value)}
    (hbytes : Spells depth bytes (.object ms)) (h : RepeatsKnown ms) (m : Message) :
    messageOfBytes bytes ≠ .ok m
  pointOnce : RejectsRepeats pointRecord.decoder.read ["row", "col"]
  warningOnce : RejectsRepeats warningRecord.decoder.read ["instructions"]
  locationOnce : RejectsRepeats cellRecord.decoder.read ["row", "col"]
  blockDetectedOnce : RejectsRepeats blockRecord.decoder.read ["robot", "block"]
  blockDetectedCellsOnce :
    RejectsRepeatsWithin blockRecord.decoder.read ["robot", "block"] ["row", "col"]
  movementOnce : RejectsRepeats movementRecord.decoder.read ["direction", "is_move"]
  cadenceOnce : RejectsRepeats cadenceRecord.decoder.read ["outbound_wait", "inbound_wait"]
  cadenceWaitsOnce :
    RejectsRepeatsWithin cadenceRecord.decoder.read ["outbound_wait", "inbound_wait"]
      ["secs", "nanos"]

/-- Neither the order of the members of an object nor members that are not known matter to what it
    is read as, and no member that is known may be repeated. -/
theorem objects_arranged : ObjectsArranged where
  message m := by
    obtain ⟨s, own, tag, hmembers, hfind, hnames, hown, hm⟩ := exists_payload m
    rw [hnames, hmembers]
    exact message_among hfind hown hm
  messageCells hrs hbs := by
    have hfind : tagChoices.find "BlockDetected" = .ok .blockDetected := rfl
    refine message_among hfind ?_ ?_
    · exact forall_mem_pair (isPayload (by decide) hrs.cell.2) (isPayload (by decide) hbs.cell.2)
    · refine outcome_bind_eq_ok_iff.2 ⟨(_, _), ?_, rfl⟩
      exact (pair_ofValue_eq_ok_iff rfl rfl (by decide)).2 ⟨_, _, hrs.cell.1, hbs.cell.1, rfl⟩
  point p := Record.reads_among point_apart rfl (point_reads p).tree
    (forall_mem_pair (within_coord p.row) (within_coord p.col)) (point_coversAll _)
  warning n := Record.reads_among warning_apart rfl (warning_reads n).tree
    (List.forall_mem_singleton.2 (within_digit n)) (warning_coversAll _)
  location robot := Record.reads_among cell_apart rfl (cell_reads robot).tree
    (forall_mem_pair (within_digit robot.row) (within_digit robot.col)) (cell_coversAll _)
  blockDetected hrs hbs := by
    refine Record.reads_among block_apart rfl ?_ (forall_mem_pair hrs.cell.2 hbs.cell.2) ?_
    · exact (pair_ofValue_eq_ok_iff rfl rfl (by decide)).2 ⟨_, _, hrs.cell.1, hbs.cell.1, rfl⟩
    · exact block_coversAll (forall_mem_pair ⟨_, rfl⟩ ⟨_, rfl⟩)
  movement heading motion := Record.reads_among movement_apart rfl
    (movement_reads heading motion).tree (forall_mem_pair (.text _ _) (.boolean _ _))
    (movement_coversAll heading motion)
  cadence outbound? inbound? := cadence_among outbound? inbound?
  messageOnce := messageOfBytes_ne_ok
  pointOnce := Record.rejects_repeats point_apart (pair_sound coord_sound coord_sound)
  warningOnce := Record.rejects_repeats warning_apart
    (List.forall_mem_singleton.2 (digit_sound.map _))
  locationOnce := Record.rejects_repeats cell_apart (pair_sound digit_sound digit_sound)
  blockDetectedOnce := Record.rejects_repeats block_apart (pair_sound cell_sound cell_sound)
  blockDetectedCellsOnce := pair_rejects_within rfl cell_apart cell_sound
  movementOnce := Record.rejects_repeats movement_apart
    (pair_sound (Decoder.choice_sound _) Decoder.boolean_sound)
  cadenceOnce := Record.rejects_repeats cadence_apart (pair_sound duration_sound duration_sound)
  cadenceWaitsOnce := pair_rejects_within rfl duration_apart duration_sound

/-- A warning among a list, with the tag behind it, and a point with two rows. -/
theorem objects_arranged_tag_last :
    Among ["type", "instructions"] (messageMembers (.warning .three))
        [("note", .list [.null]), ("instructions", ofDigit .three), ("type", .text "Warning")] ∧
      messageOfBytes ([byte ' '] ++ (Value.object [("note", .list [.null]),
        ("instructions", ofDigit .three), ("type", .text "Warning")]).bytes ++ []) =
          .ok (.warning .three) ∧
      ∀ p, run pointRecord.decoder.read ([] ++ (Value.object [("row", ofInteger 1),
        ("col", ofInteger 2), ("row", ofInteger 1)]).bytes ++ []) ≠ .ok p := by
  have hamong : Among ["type", "instructions"] (messageMembers (.warning .three))
      [("note", .list [.null]), ("instructions", ofDigit .three), ("type", .text "Warning")] := by
    refine ⟨⟨[("note", .list [.null])], (List.reverse_perm _).symm, ?_⟩, ?_⟩
    · exact List.forall_mem_singleton.2 (by decide)
    · refine List.forall_mem_cons.2 ⟨fun _ => ?_, forall_mem_pair (fun h => ?_) fun h => ?_⟩
      · exact .list (List.forall_mem_singleton.2 (.null _))
      · exact absurd (by decide) h
      · exact absurd (by decide) h
  have hmessage := objects_arranged.message (.warning .three)
  have hblank : Blank [byte ' '] := by decide
  have hpoint : (Value.object [("row", ofInteger 1), ("col", ofInteger 2),
      ("row", ofInteger 1)]).Within 2 := by
    have hword : FitsWord 1 ∧ FitsWord 2 := by
      unfold FitsWord maxWord
      decide
    exact .object (List.forall_mem_cons.2 ⟨.integer _ hword.1,
      forall_mem_pair (.integer _ hword.2) (.integer _ hword.1)⟩)
  refine ⟨hamong, ?_, ?_⟩
  · exact hmessage.run_eq hamong (hmessage.spells hamong hblank blank_nil)
  · exact objects_arranged.pointOnce 2 _ _ (hpoint.spells blank_nil blank_nil)
      ⟨"row", by decide, by decide⟩

end GridRobot.Json
