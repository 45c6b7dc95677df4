import GridRobot.Proofs.Robot
import Mathlib.Data.List.Infix

/-!
# Where a robot goes

A robot may start anywhere. A movement that advances takes it one step further
and then back onto its grid, so that it is on the grid from then on
(`Robot.onGrid_positionAfter`); other messages leave it where it is. After each
movement the robot has to tell its position, which it can just on the grid
(`Robot.exists_location?_iff`), so that it is on the grid if it could tell all of
them, and there was one (`Robot.onGrid_of_stops`).
-/

namespace GridRobot

/-- The message makes the robot tell its position. -/
def Message.isMovement : Message → Bool
  | movement _ _ => true
  | _ => false

/-- The heading of a movement that advances. -/
def Message.heading? : Message → Option Direction
  | movement heading .advance => some heading
  | _ => none

theorem Message.heading?_of_not {m : Message} (hm : m.isMovement = false) : m.heading? = none := by
  cases m with
  | movement heading motion => cases hm
  | _ => rfl

namespace Robot

variable {p start : Point} {m : Message} {ms : List Message}

/-! ### The grid -/

/-- The point is one of the ten by ten cells. -/
structure OnGrid (p : Point) : Prop where
  row_nonneg : 0 ≤ p.row.val
  row_le : p.row.val ≤ 9
  col_nonneg : 0 ≤ p.col.val
  col_le : p.col.val ≤ 9

theorem onGrid_iff : OnGrid p ↔ ∃ c : Cell, c.toPoint = p := by
  constructor
  · intro h
    have hrow := h.row_nonneg
    have hrow' := h.row_le
    have hcol := h.col_nonneg
    have hcol' := h.col_le
    refine ⟨⟨⟨p.row.val.toNat, by omega⟩, ⟨p.col.val.toNat, by omega⟩⟩, ?_⟩
    exact Point.ext (Coord.ext (Int.toNat_of_nonneg hrow)) (Coord.ext (Int.toNat_of_nonneg hcol))
  · rintro ⟨c, rfl⟩
    have hrow : (c.row.val : Int) < 10 := Int.ofNat_lt.2 c.row.isLt
    have hcol : (c.col.val : Int) < 10 := Int.ofNat_lt.2 c.col.isLt
    exact ⟨Int.natCast_nonneg _, Int.le_of_lt_add_one hrow, Int.natCast_nonneg _,
      Int.le_of_lt_add_one hcol⟩

theorem exists_location?_iff : (∃ m, Message.location? p = .ok m) ↔ OnGrid p := by
  rw [onGrid_iff]
  constructor
  · rintro ⟨m, h⟩
    obtain ⟨c, hc, -⟩ := Message.location?_eq_ok_iff.1 h
    exact ⟨c, hc⟩
  · rintro ⟨c, hc⟩
    exact ⟨.location c, Message.location?_eq_ok_iff.2 ⟨c, hc, rfl⟩⟩

/-- What is wrong with a point that is not on the grid is one of its coordinates. -/
theorem location?_of_not_onGrid (h : ¬OnGrid p) :
    ∃ axis n, Message.location? p = .error (.malformed (.coordinate axis n)) := by
  rw [Message.location?, Cell.ofPoint]
  split
  · next row col hrow hcol =>
    refine absurd (onGrid_iff.2 ⟨⟨row, col⟩, ?_⟩) h
    exact Point.ext (Coord.ext (Digit.ofInt?_eq_some.1 hrow))
      (Coord.ext (Digit.ofInt?_eq_some.1 hcol))
  · exact ⟨.row, p.row.val, rfl⟩
  · exact ⟨.column, p.col.val, rfl⟩

/-! ### Walks -/

/-- One step further, and then back onto the grid. -/
def guarded (p : Point) (heading : Direction) : Point :=
  (p.step heading).clamp .origin gridCorner

/-- The position of a robot from `start` after it was told `ms`: only the movements that advance
    have changed it. -/
def positionAfter (start : Point) (ms : List Message) : Point :=
  (ms.filterMap Message.heading?).foldl guarded start

/-- The positions of a robot from `start` after each of the movements among `ms`. -/
def stops (start : Point) (ms : List Message) : List Point :=
  (ms.inits.filter fun told => told.getLast?.any Message.isMovement).map (positionAfter start)

theorem positionAfter_concat_movement (heading : Direction) (motion : Motion) (start : Point)
    (ms : List Message) :
    positionAfter start (ms ++ [.movement heading motion]) =
      moved heading motion (positionAfter start ms) := by
  rw [positionAfter, List.filterMap_append, List.foldl_append]
  cases motion <;> rfl

theorem positionAfter_concat (hm : m.heading? = none) (start : Point) (ms : List Message) :
    positionAfter start (ms ++ [m]) = positionAfter start ms := by
  rw [positionAfter, List.filterMap_append, List.filterMap_cons_none hm, List.filterMap_nil,
    List.append_nil, positionAfter]

/-- A movement adds one position, and no other message does. -/
theorem stops_concat (start : Point) (ms : List Message) (m : Message) :
    stops start (ms ++ [m]) =
      stops start ms ++ if m.isMovement then [positionAfter start (ms ++ [m])] else [] := by
  have hinits : (ms ++ [m]).inits = ms.inits ++ [ms ++ [m]] := by
    rw [List.inits_append]
    rfl
  rw [stops, hinits, List.filter_append, List.map_append, ← stops, List.filter_singleton,
    List.getLast?_concat, Option.any_some]
  cases m.isMovement <;> rfl

theorem stops_concat_movement (heading : Direction) (motion : Motion) (start : Point)
    (ms : List Message) :
    stops start (ms ++ [.movement heading motion]) =
      stops start ms ++ [moved heading motion (positionAfter start ms)] := by
  rw [stops_concat, positionAfter_concat_movement]
  rfl

theorem stops_concat_of_not (hm : m.isMovement = false) (start : Point) (ms : List Message) :
    stops start (ms ++ [m]) = stops start ms := by
  rw [stops_concat, hm]
  exact List.append_nil _

theorem mem_stops (hm : m.isMovement = true) (start : Point) (before after : List Message) :
    positionAfter start (before ++ [m]) ∈ stops start (before ++ m :: after) := by
  refine List.mem_map_of_mem (List.mem_filter.2 ⟨?_, ?_⟩)
  · rw [List.mem_inits]
    exact ⟨after, List.append_cons before m after ▸ rfl⟩
  · rw [List.getLast?_concat, Option.any_some, hm]

/-! ### Staying on the grid -/

/-- From wherever it comes, a step that is guarded leads onto the grid. -/
theorem onGrid_guarded (p : Point) (heading : Direction) : OnGrid (guarded p heading) := by
  have hgrid : Coord.zero.val ≤ (Coord.ofDigit .max).val := by decide
  obtain ⟨hrow, hrow'⟩ := Coord.clamp_mem (p.step heading).row hgrid
  obtain ⟨hcol, hcol'⟩ := Coord.clamp_mem (p.step heading).col hgrid
  exact ⟨hrow, hrow', hcol, hcol'⟩

/-- A robot that starts on the grid or advances once is on the grid, whatever else it is told. -/
theorem onGrid_positionAfter (h : OnGrid start ∨ ∃ m ∈ ms, m.heading?.isSome) :
    OnGrid (positionAfter start ms) := by
  rw [positionAfter]
  rcases List.eq_nil_or_concat (ms.filterMap Message.heading?) with hnone | ⟨ds, d, hsome⟩
  · rw [hnone]
    refine h.resolve_right fun ⟨m, hm, hheading⟩ => ?_
    obtain ⟨d, hd⟩ := Option.isSome_iff_exists.1 hheading
    exact List.not_mem_nil (hnone ▸ List.mem_filterMap.2 ⟨m, hm, hd⟩)
  · rw [hsome, List.concat_eq_append, List.foldl_append]
    exact onGrid_guarded _ d

/-- A robot that could tell all its positions, and had to tell one, is on the grid. -/
theorem onGrid_of_stops (hstops : ∀ q ∈ stops start ms, OnGrid q)
    (hmoves : ∃ m ∈ ms, m.isMovement) : OnGrid (positionAfter start ms) := by
  induction ms using List.reverseRecOn with
  | nil =>
    obtain ⟨m, hm, -⟩ := hmoves
    exact absurd hm List.not_mem_nil
  | append_singleton ms m ih =>
    cases hm : m.isMovement with
    | true =>
      refine hstops _ ?_
      rw [stops_concat, hm]
      exact List.mem_concat_self
    | false =>
      rw [stops_concat_of_not hm] at hstops
      rw [positionAfter_concat (Message.heading?_of_not hm)]
      refine ih hstops ?_
      obtain ⟨m', hm', hmoves⟩ := hmoves
      rcases List.mem_append.1 hm' with hmem | hmem
      · exact ⟨m', hmem, hmoves⟩
      · cases List.mem_singleton.1 hmem
        exact absurd (hm.symm.trans hmoves) Bool.false_ne_true

theorem positionAfter_of_not (h : ∀ m ∈ ms, m.isMovement = false) (start : Point) :
    positionAfter start ms = start := by
  have hnone : ms.filterMap Message.heading? = [] :=
    List.filterMap_eq_nil_iff.2 fun m hm => Message.heading?_of_not (h m hm)
  rw [positionAfter, hnone]
  rfl

end Robot

end GridRobot
