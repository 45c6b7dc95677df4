import GridRobot.Json.Message
import GridRobot.Proofs.Json.Members
import GridRobot.Proofs.Json.Tagged

/-!
# Everything is read as it is written

The decoder of each form reads what is written of it: points and cells,
headings, motions, kinds and digits, the payloads of messages, cadences. A
message is written as its tag and a payload that is read as the message
(`exists_payload`). So all of them come back from their text, whatever blanks
stand around it (`forms_round_trip`).
-/

namespace GridRobot.Json

variable {α β γ σ : Type} {a : α} {b : β} {c : γ} {v v₁ v₂ : Value} {before rest : List UInt8}
  {ms : List (String × Value)}

theorem forall_mem_pair {P : α → Prop} {x y : α} (hx : P x) (hy : P y) : ∀ z ∈ [x, y], P z :=
  List.forall_mem_cons.2 ⟨hx, List.forall_mem_singleton.2 hy⟩

/-! ### Names -/

theorem directionDecoder_reads (d : Direction) : directionDecoder.Reads (ofDirection d) d :=
  Decoder.choice_reads (by cases d <;> decide)

theorem kindDecoder_reads (k : Kind) : kindDecoder.Reads (ofKind k) k :=
  Decoder.choice_reads (by cases k <;> decide)

theorem motionDecoder_reads (m : Motion) : motionDecoder.Reads (ofMotion m) m :=
  Decoder.choice_reads (by cases m <;> decide)

/-! ### Numbers -/

theorem fitsWord_digit (d : Digit) : FitsWord (d.val : Int) := by
  have hmax : (maxWord : Int) = 0xFFFFFFFFFFFFFFFF := rfl
  constructor <;> omega

theorem fitsWord_coord (x : Coord) : FitsWord x.val := by
  have hmax : (maxWord : Int) = 0xFFFFFFFFFFFFFFFF := rfl
  have hlow := x.min_le
  have hhigh := x.le_max
  unfold minCoord at hlow
  unfold maxCoord at hhigh
  constructor <;> omega

theorem fitsWord_nat {n : Nat} (hn : n ≤ maxWord) : FitsWord (n : Int) := by
  constructor <;> omega

theorem within_digit (d : Digit) {depth : Nat} : (ofDigit d).Within depth :=
  .integer depth (fitsWord_digit d)

theorem within_coord (x : Coord) {depth : Nat} : (ofInteger x.val).Within depth :=
  .integer depth (fitsWord_coord x)

theorem digit_covers (v : Value) : digitDecoder.Covers v := (Decoder.integer_covers _ _ _ v).check _

theorem coord_covers (v : Value) : coordDecoder.Covers v := (Decoder.integer_covers _ _ _ v).map _

theorem digitDecoder_reads (d : Digit) : digitDecoder.Reads (ofDigit d) d := by
  have hrange : 0 ≤ (d.val : Int) ∧ (d.val : Int) ≤ 255 := by omega
  have hdigit : Digit.ofInt? (d.val : Int) = some d := Digit.ofInt?_eq_some.2 rfl
  refine (Decoder.integer_reads "u8" hrange (fitsWord_digit d)).check ?_
  rw [hdigit]

theorem coordDecoder_reads (x : Coord) : coordDecoder.Reads (ofInteger x.val) x := by
  have hcoord : Coord.saturate x.val = x := Coord.ext (Coord.val_saturate x.min_le x.le_max)
  have hreads := (Decoder.integer_reads "i32" ⟨x.min_le, x.le_max⟩ (fitsWord_coord x)).map
    Coord.saturate
  rwa [hcoord] at hreads

/-- A natural number up to the greatest one of a decoder is read as itself. -/
theorem natDecoder_reads (expected : String) {n limit : Nat} (hn : n ≤ limit)
    (hlimit : limit ≤ maxWord) :
    ((Decoder.integer expected 0 limit).map Int.toNat).Reads (ofInteger n) n := by
  have hrange : 0 ≤ (n : Int) ∧ (n : Int) ≤ limit := by omega
  exact (Decoder.integer_reads expected hrange (fitsWord_nat (Nat.le_trans hn hlimit))).map Int.toNat

/-! ### Points and payloads -/

/-- A pair covers its members if its decoders cover them. -/
theorem pair_coversAll {r : Record (Option α × Option β) γ} {name₁ name₂ : String}
    {d₁ : Decoder α} {d₂ : Decoder β} {optional : Bool}
    (hmembers : r.members = pairMembers name₁ d₁ name₂ d₂ optional)
    (h₁ : ∀ v, (name₁, v) ∈ ms → d₁.Covers v) (h₂ : ∀ v, (name₂, v) ∈ ms → d₂.Covers v) :
    r.CoversAll ms := by
  rintro ⟨name, v⟩ hx m hm rfl
  rw [hmembers] at hm
  rcases List.mem_pair.1 hm with rfl | rfl
  · exact (h₁ v hx).map _
  · exact (h₂ v hx).map _

theorem warning_coversAll (ms : List (String × Value)) : warningRecord.CoversAll ms := by
  intro x _ m hm _
  cases List.mem_singleton.1 hm
  exact (digit_covers x.2).map _

theorem point_coversAll (ms : List (String × Value)) : pointRecord.CoversAll ms :=
  pair_coversAll rfl (fun v _ => coord_covers v) fun v _ => coord_covers v

theorem cell_coversAll (ms : List (String × Value)) : cellRecord.CoversAll ms :=
  pair_coversAll rfl (fun v _ => digit_covers v) fun v _ => digit_covers v

/-- The decoders of a block cover objects. -/
theorem block_coversAll (hms : ∀ x ∈ ms, ∃ ns, x.2 = .object ns) : blockRecord.CoversAll ms := by
  have hcell (name : String) (v : Value) (hv : (name, v) ∈ ms) : cellRecord.decoder.Covers v := by
    obtain ⟨ns, rfl⟩ := hms _ hv
    exact Record.decoder_covers (cell_coversAll ns)
  exact pair_coversAll rfl (hcell _) (hcell _)

theorem movement_coversAll (heading : Direction) (motion : Motion) :
    movementRecord.CoversAll (movementMembers heading motion) := by
  refine pair_coversAll rfl (fun v hv => ?_) fun v _ => Decoder.boolean_covers v
  rcases List.mem_pair.1 hv with h | h
  · cases h
    exact Decoder.choice_covers _ _
  · have hname : "direction" = "is_move" := congrArg Prod.fst h
    exact absurd hname (by decide)

theorem within_cell (c : Cell) {depth : Nat} : (ofCell c).Within (depth + 2) := by
  exact .object (forall_mem_pair (within_digit c.row) (within_digit c.col))

/-- A record of two members is read from an object that has them in their order. -/
theorem pair_reads {r : Record (Option α × Option β) γ} {name₁ name₂ : String} {d₁ : Decoder α}
    {d₂ : Decoder β} {optional : Bool}
    (hmembers : r.members = pairMembers name₁ d₁ name₂ d₂ optional)
    (hblank : r.blank = (none, none)) (hname : name₁ ≠ name₂) (h₁ : d₁.Reads v₁ a)
    (h₂ : d₂.Reads v₂ b) (hfinish : r.finish (some a, some b) = .ok c)
    (hcovers : r.CoversAll [(name₁, v₁), (name₂, v₂)])
    (hwithin₁ : v₁.Within nesting) (hwithin₂ : v₂.Within nesting) :
    r.decoder.Reads (.object [(name₁, v₁), (name₂, v₂)]) c := by
  have hwithin : (Value.object [(name₁, v₁), (name₂, v₂)]).Within (nesting + 1) :=
    .object (forall_mem_pair hwithin₁ hwithin₂)
  refine (Record.decoder_covers hcovers).reads hwithin ?_
  exact (pair_ofValue_eq_ok_iff hmembers hblank hname).2 ⟨a, b, h₁.tree, h₂.tree, hfinish⟩

theorem point_reads (p : Point) : pointRecord.decoder.Reads (ofPoint p) p :=
  pair_reads rfl rfl (by decide) (coordDecoder_reads p.row) (coordDecoder_reads p.col)
    rfl (point_coversAll _) (within_coord p.row) (within_coord p.col)

theorem cell_reads (c : Cell) : cellRecord.decoder.Reads (ofCell c) c :=
  pair_reads rfl rfl (by decide) (digitDecoder_reads c.row) (digitDecoder_reads c.col)
    rfl (cell_coversAll _) (within_digit c.row) (within_digit c.col)

theorem warning_reads (n : Digit) : warningRecord.decoder.Reads (.object (warningMembers n)) n := by
  have hwithin : (Value.object (warningMembers n)).Within 2 :=
    .object (List.forall_mem_singleton.2 (within_digit n))
  refine (Record.decoder_covers (warning_coversAll _)).reads hwithin ?_
  exact single_ofValue_eq_ok_iff.2 ⟨n, (digitDecoder_reads n).tree, rfl⟩

theorem block_reads (robot block : Cell) :
    blockRecord.decoder.Reads (.object (blockMembers robot block)) (robot, block) :=
  pair_reads rfl rfl (by decide) (cell_reads robot) (cell_reads block) rfl
    (block_coversAll (forall_mem_pair ⟨_, rfl⟩ ⟨_, rfl⟩)) (within_cell robot) (within_cell block)

theorem movement_reads (heading : Direction) (motion : Motion) :
    movementRecord.decoder.Reads (.object (movementMembers heading motion)) (heading, motion) := by
  refine pair_reads rfl rfl (by decide) (directionDecoder_reads heading)
    (Decoder.boolean_reads motion.moves) ?_ (movement_coversAll heading motion) (.text _ _)
    (.boolean _ _)
  exact congrArg (fun m => Except.ok (heading, m)) (Motion.ofBool_moves motion)

/-! ### Durations and cadences -/

theorem duration_coversAll (ms : List (String × Value)) : durationRecord.CoversAll ms :=
  pair_coversAll rfl (fun v _ => (Decoder.integer_covers _ _ _ v).map _)
    fun v _ => (Decoder.integer_covers _ _ _ v).map _

/-- The decoders of a cadence cover durations. -/
theorem cadence_coversAll (hms : ∀ x ∈ ms, ∃ d, x.2 = ofDuration d) :
    cadenceRecord.CoversAll ms := by
  have hduration (name : String) (v : Value) (hv : (name, v) ∈ ms) :
      durationRecord.decoder.Covers v := by
    obtain ⟨d, rfl⟩ := hms _ hv
    exact Record.decoder_covers (duration_coversAll _)
  exact pair_coversAll rfl (hduration _) (hduration _)

theorem duration_fits (d : Duration) : d.seconds ≤ maxWord ∧ d.nanos ≤ 0xFFFFFFFF :=
  ⟨Nat.le_of_lt_succ d.seconds_lt, Nat.le_trans (Nat.le_of_lt d.nanos_lt) (by decide)⟩

theorem within_nat {n : Nat} (hn : n ≤ maxWord) {depth : Nat} : (ofInteger n).Within depth :=
  .integer depth (fitsWord_nat hn)

theorem within_duration (d : Duration) {depth : Nat} : (ofDuration d).Within (depth + 2) := by
  obtain ⟨hseconds, hnanos⟩ := duration_fits d
  exact .object (forall_mem_pair (within_nat hseconds)
    (within_nat (Nat.le_trans hnanos (by decide))))

theorem duration_reads (d : Duration) : durationRecord.decoder.Reads (ofDuration d) d := by
  obtain ⟨hseconds, hnanos⟩ := duration_fits d
  have hparts : durationRecord.finish (some d.seconds, some d.nanos) = .ok d := by
    rw [durationRecord]
    dsimp only [Option.getD_some]
    rw [Duration.ofParts?_parts]
  exact pair_reads rfl rfl (by decide) (natDecoder_reads "u64" hseconds (Nat.le_refl _))
    (natDecoder_reads "u32" hnanos (by decide)) hparts (duration_coversAll _) (within_nat hseconds)
    (within_nat (Nat.le_trans hnanos (by decide)))

theorem cadence_reads (c : Cadence) : cadenceRecord.decoder.Reads (ofCadence c) c :=
  pair_reads rfl rfl (by decide) (duration_reads c.outbound) (duration_reads c.inbound) rfl
    (cadence_coversAll (forall_mem_pair ⟨_, rfl⟩ ⟨_, rfl⟩)) (within_duration c.outbound)
    (within_duration c.inbound)

/-! ### Messages -/

/-- The member can be kept until the payload of a message is read. -/
structure IsPayload (m : String × Value) : Prop where
  name_ne : m.1 ≠ "type"
  within : m.2.Within nesting

theorem isPayload {name : String} (hname : name ≠ "type") (hv : v.Within nesting) :
    IsPayload (name, v) := ⟨hname, hv⟩

/-- The names of the members of a payload. -/
def Tag.names : Tag → List String
  | warning => warningRecord.names
  | location => cellRecord.names
  | blockDetected => blockRecord.names
  | movement => movementRecord.names
  | done | finish | stateChange => []

/-- A message is written as its tag and a payload that is read as the message. -/
theorem exists_payload (m : Message) :
    ∃ s own tag, messageMembers m = ("type", .text s) :: own ∧ tagChoices.find s = .ok tag ∧
      (messageMembers m).map Prod.fst = "type" :: tag.names ∧ (∀ x ∈ own, IsPayload x) ∧
      tag.message (.object own) = .ok m := by
  cases m with
  | warning n =>
    refine ⟨_, _, .warning, rfl, rfl, rfl, ?_, ?_⟩
    · exact List.forall_mem_singleton.2 (isPayload (by decide) (within_digit n))
    · exact outcome_bind_eq_ok_iff.2 ⟨n, (warning_reads n).tree, rfl⟩
  | location robot =>
    refine ⟨_, _, .location, rfl, rfl, rfl, ?_, ?_⟩
    · exact forall_mem_pair (isPayload (by decide) (within_digit robot.row))
        (isPayload (by decide) (within_digit robot.col))
    · exact outcome_bind_eq_ok_iff.2 ⟨robot, (cell_reads robot).tree, rfl⟩
  | blockDetected robot block =>
    refine ⟨_, _, .blockDetected, rfl, rfl, rfl, ?_, ?_⟩
    · exact forall_mem_pair (isPayload (by decide) (within_cell robot))
        (isPayload (by decide) (within_cell block))
    · exact outcome_bind_eq_ok_iff.2 ⟨(robot, block), (block_reads robot block).tree, rfl⟩
  | movement heading motion =>
    refine ⟨_, _, .movement, rfl, rfl, rfl, ?_, ?_⟩
    · exact forall_mem_pair (isPayload (by decide) (.text nesting heading.name))
        (isPayload (by decide) (.boolean nesting motion.moves))
    · exact outcome_bind_eq_ok_iff.2 ⟨(heading, motion), (movement_reads heading motion).tree, rfl⟩
  | done => exact ⟨_, _, .done, rfl, rfl, rfl, List.forall_mem_nil _, rfl⟩
  | finish => exact ⟨_, _, .finish, rfl, rfl, rfl, List.forall_mem_nil _, rfl⟩
  | stateChange => exact ⟨_, _, .stateChange, rfl, rfl, rfl, List.forall_mem_nil _, rfl⟩

/-- A message is read by its tag, and then by what its payload is read as. -/
theorem message_reads (m : Message) (hbefore : Blank before) (rest : List UInt8) :
    message (before ++ ((ofMessage m).bytes ++ rest)) = .ok (m, rest) := by
  obtain ⟨s, own, tag, hmembers, hfind, -, hown, hm⟩ := exists_payload m
  have hwithin : ∀ x ∈ ("type", Value.text s) :: own, x.2.Within nesting :=
    List.forall_mem_cons.2 ⟨.text nesting s, fun x hx => (hown x hx).within⟩
  obtain ⟨htag, huntagged⟩ := tagged_cons hfind fun x hx => (hown x hx).name_ne
  rw [ofMessage, hmembers]
  refine message_covers (value_object_eq hwithin hbefore rest) htag ?_
  rwa [huntagged]

/-! ### Whole texts -/

theorem stops_of_blank (h : Blank rest) : Stops rest := by
  intro b hb
  have hblank := h b (List.mem_of_mem_head? hb)
  simp only [isBlank, Bool.or_eq_true, decide_eq_true_eq] at hblank
  rcases hblank with ((rfl | rfl) | rfl) | rfl
  all_goals decide

/-- A text is read whole if nothing but blanks is left of it. -/
theorem run_eq_ok_iff {read : Reader α} {bytes : List UInt8} :
    run read bytes = .ok a ↔ ∃ rest, read bytes = .ok (a, rest) ∧ Blank rest := by
  rw [run, outcome_bind_eq_ok_iff]
  constructor
  · rintro ⟨⟨a', rest⟩, hread, h⟩
    dsimp only at h
    split at h
    · next hblank =>
      cases h
      exact ⟨rest, hread, List.all_eq_true.1 hblank⟩
    · cases h
  · rintro ⟨rest, hread, hblank⟩
    exact ⟨(a, rest), hread, if_pos (List.all_eq_true.2 hblank)⟩

/-- What is written is read back from its text, whatever blanks stand around it. -/
def RoundTrips (read : Reader α) (write : α → Value) : Prop :=
  ∀ a before after, Blank before → Blank after →
    run read (before ++ Utf8.encode (write a).render.toList ++ after) = .ok a

/-- What takes a value off the front of any text reads it from a whole one. -/
theorem roundTrips_of_read {read : Reader α} {write : α → Value}
    (h : ∀ a before rest, Blank before → Stops rest →
      read (before ++ ((write a).bytes ++ rest)) = .ok (a, rest)) : RoundTrips read write := by
  intro a before after hbefore hafter
  rw [List.append_assoc]
  exact run_eq_ok_iff.2 ⟨after, h a before after hbefore (stops_of_blank hafter), hafter⟩

theorem Decoder.roundTrips {d : Decoder α} {write : α → Value} (h : ∀ a, d.Reads (write a) a) :
    RoundTrips d.read write :=
  roundTrips_of_read fun a _ _ hbefore hrest => (h a).text hbefore hrest

/-- All forms come back from what is written of them. -/
structure FormsRoundTrip : Prop where
  point : RoundTrips pointRecord.decoder.read ofPoint
  cadence : RoundTrips cadenceRecord.decoder.read ofCadence
  message : RoundTrips message ofMessage
  warning : RoundTrips warningRecord.decoder.read fun n => .object (warningMembers n)
  location : RoundTrips cellRecord.decoder.read ofCell
  blockDetected : RoundTrips blockRecord.decoder.read fun (robot, block) =>
    .object (blockMembers robot block)
  movement : RoundTrips movementRecord.decoder.read fun (heading, motion) =>
    .object (movementMembers heading motion)
  motion : RoundTrips motionDecoder.read ofMotion
  direction : RoundTrips directionDecoder.read ofDirection
  kind : RoundTrips kindDecoder.read ofKind
  digit : RoundTrips digitDecoder.read ofDigit

/-- Whatever has a JSON form is read back from it. -/
theorem forms_round_trip : FormsRoundTrip where
  point := Decoder.roundTrips point_reads
  cadence := Decoder.roundTrips cadence_reads
  message := roundTrips_of_read fun m _ rest hbefore _ => message_reads m hbefore rest
  warning := Decoder.roundTrips warning_reads
  location := Decoder.roundTrips cell_reads
  blockDetected := Decoder.roundTrips fun (robot, block) => block_reads robot block
  movement := Decoder.roundTrips fun (heading, motion) => movement_reads heading motion
  motion := Decoder.roundTrips motionDecoder_reads
  direction := Decoder.roundTrips directionDecoder_reads
  kind := Decoder.roundTrips kindDecoder_reads
  digit := Decoder.roundTrips digitDecoder_reads

/-- The least coordinate and the greatest one, between blanks. -/
theorem forms_round_trip_extreme_point :
    Blank [byte ' ', byte '\n'] ∧ Blank [byte '\t', byte '\r'] ∧
      run pointRecord.decoder.read ([byte ' ', byte '\n'] ++
        Utf8.encode (ofPoint ⟨⟨minCoord, by decide, by decide⟩,
          ⟨maxCoord, by decide, by decide⟩⟩).render.toList ++ [byte '\t', byte '\r']) =
      .ok ⟨⟨minCoord, by decide, by decide⟩, ⟨maxCoord, by decide, by decide⟩⟩ :=
  ⟨by decide, by decide, forms_round_trip.point _ _ _ (by decide) (by decide)⟩

end GridRobot.Json
