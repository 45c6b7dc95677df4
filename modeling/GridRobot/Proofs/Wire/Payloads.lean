import GridRobot.Proofs.Wire.Grammar

/-!
# What a message carries

The constructors of messages that check what they are given check one number
after the other, and the first one that is no digit is reported (`Checked`). What
they accept is told by the message just as it was given, and also by the message
that is found where its token begins another: rows are rows again, although
columns are written first, and the robot is where it was and the obstacle as well
(`ChecksPayload`). All this is put together in `payloads_checked`.
-/

namespace GridRobot

/-! ### Numbers in texts -/

theorem repr_inj {n k : Nat} (h : n.repr = k.repr) : n = k := by
  have hdigits : Nat.toDigits 10 n = Nat.toDigits 10 k := by
    rw [← Nat.toList_repr, h, Nat.toList_repr]
  rw [← Nat.ofDigitChars_ten_toDigits (n := n), hdigits, Nat.ofDigitChars_ten_toDigits]

theorem minus_append_repr_ne (n k : Nat) : "-" ++ n.repr ≠ k.repr := by
  intro h
  have hminus : '-' ∈ Nat.toDigits 10 k := by
    rw [← Nat.toList_repr, ← h, String.toList_append]
    exact List.mem_append_left _ (by decide)
  exact absurd (Nat.isDigit_of_mem_toDigits (by decide) (by decide) hminus) (by decide)

/-- Integers that are shown alike are the same: none of the digits is a minus. -/
theorem toString_inj {n k : Int} (h : toString n = toString k) : n = k := by
  cases n with
  | ofNat n =>
    cases k with
    | ofNat k => exact congrArg Int.ofNat (repr_inj h)
    | negSucc k => exact absurd h.symm (minus_append_repr_ne _ n)
  | negSucc n =>
    cases k with
    | ofNat k => exact absurd h (minus_append_repr_ne _ k)
    | negSucc k =>
      have hrepr : (n + 1).repr = (k + 1).repr := (String.append_right_inj "-").1 h
      rw [Nat.succ.inj (repr_inj hrepr)]

/-! ### Faults -/

theorem Digit.ofInt?_eq_none_iff {n : Int} : ofInt? n = none ↔ ¬(0 ≤ n ∧ n ≤ 9) := by
  rw [ofInt?, dite_eq_right_iff]
  constructor
  · intro h hn
    cases h (by omega)
  · intro h hn
    omega

theorem Digit.of_ofInt? {n : Int} {d : Digit} (h : ofInt? n = some d) : 0 ≤ n ∧ n ≤ 9 := by
  have hn := ofInt?_eq_some.1 h
  omega

namespace PayloadFault

/-- The number that is at fault. -/
def value : PayloadFault → Int
  | instructionCount n | coordinate _ n => n

/-- The number is indeed no digit. -/
abbrev Holds (fault : PayloadFault) : Prop := ¬(0 ≤ fault.value ∧ fault.value ≤ 9)

/-- The reason that is given for a coordinate tells its axis and the number. -/
theorem reason_coordinate_inj {axis axis' : Axis} {n n' : Int}
    (h : (coordinate axis n).reason = (coordinate axis' n').reason) : axis = axis' ∧ n = n' := by
  have hnumber := (String.append_left_inj _).1 h
  have haxis : axis = axis' := by
    -- The names of the axes differ in their first character.
    have hfirst := congrArg (·.toList.head?) hnumber
    cases axis <;> cases axis' <;> first | rfl | simp [Axis.name] at hfirst
  subst haxis
  exact ⟨rfl, toString_inj ((String.append_right_inj _).1 hnumber)⟩

end PayloadFault

/-- What can be wrong with a point that is to be written, in the order of the checks. -/
def Point.faults (p : Point) : List PayloadFault :=
  [.coordinate .row p.row.val, .coordinate .column p.col.val]

theorem Point.kind_of_mem_faults (p : Point) : ∀ fault ∈ p.faults, fault.kind = .location := by
  simp [faults, PayloadFault.kind]

/-! ### Checks in order -/

variable {β γ : Type} {outcome : Except MessageError β} {faults faults' : List PayloadFault}

/-- The outcome of looking for faults, one after the other: the first that is there is reported, and
    if none is, the outcome is a success. -/
inductive Checked : Except MessageError β → List PayloadFault → Prop
  | done (b : β) : Checked (.ok b) []
  | refused {fault : PayloadFault} (h : fault.Holds) (faults : List PayloadFault) :
    Checked (.error (.malformed fault)) (fault :: faults)
  | next {fault : PayloadFault} {outcome : Except MessageError β} {faults : List PayloadFault}
    (h : ¬fault.Holds) (hrest : Checked outcome faults) : Checked outcome (fault :: faults)

namespace Checked

/-- Checks go on where those before them have succeeded. -/
theorem bind {f : β → Except MessageError γ} (h : Checked outcome faults)
    (hf : ∀ b, Checked (f b) faults') : Checked (outcome >>= f) (faults ++ faults') := by
  induction h with
  | done b => exact hf b
  | refused h faults => exact .refused h _
  | next h _ ih => exact .next h ih

theorem map {f : β → γ} (h : Checked outcome faults) :
    Checked (outcome >>= fun b => pure (f b)) faults := by
  rw [← List.append_nil faults]
  exact h.bind fun b => .done (f b)

/-- The checks succeed just if all the numbers are digits. -/
theorem exists_ok_iff (h : Checked outcome faults) :
    (∃ b, outcome = .ok b) ↔ ∀ fault ∈ faults, 0 ≤ fault.value ∧ fault.value ≤ 9 := by
  induction h with
  | done b => simp
  | refused h faults =>
    refine iff_of_false nofun fun hall => h (hall _ List.mem_cons_self)
  | next h _ ih => rw [ih, List.forall_mem_cons, and_iff_right (not_not.1 h)]

/-- An error reports the first number that is no digit. -/
theorem of_error {e : MessageError} (h : Checked outcome faults) (he : outcome = .error e) :
    ∃ fault, faults.find? (·.Holds) = some fault ∧ e = .malformed fault := by
  induction h with
  | done b => cases he
  | refused h faults =>
    cases he
    exact ⟨_, List.find?_cons_of_pos (decide_eq_true h), rfl⟩
  | next h _ ih =>
    rw [List.find?_cons_of_neg (by simpa using h)]
    exact ih he

end Checked

/-! ### The checking constructors -/

theorem Cell.checked_ofPoint (p : Point) : Checked (ofPoint p) p.faults := by
  rw [ofPoint]
  split
  · next row col hrow hcol =>
    exact .next (not_not.2 (Digit.of_ofInt? hrow))
      (.next (not_not.2 (Digit.of_ofInt? hcol)) (.done _))
  · next hrow =>
    have hfault : (PayloadFault.coordinate .row p.row.val).Holds := Digit.ofInt?_eq_none_iff.1 hrow
    exact .refused hfault _
  · next row hrow hcol =>
    have hfault : (PayloadFault.coordinate .column p.col.val).Holds :=
      Digit.ofInt?_eq_none_iff.1 hcol
    exact .next (not_not.2 (Digit.of_ofInt? hrow)) (.refused hfault _)

namespace Message

variable {m : Message} {robot block : Point} {n : Int}

theorem checked_warning? (n : Int) : Checked (warning? n) [.instructionCount n] := by
  rw [warning?]
  split
  · next d hd => exact .next (not_not.2 (Digit.of_ofInt? hd)) (.done (warning d))
  · next hd =>
    have hfault : (PayloadFault.instructionCount n).Holds := Digit.ofInt?_eq_none_iff.1 hd
    exact .refused hfault _

theorem checked_location? (p : Point) : Checked (location? p) p.faults :=
  (Cell.checked_ofPoint p).map

theorem checked_blockDetected? (robot block : Point) :
    Checked (blockDetected? robot block) (robot.faults ++ block.faults) :=
  (Cell.checked_ofPoint robot).bind fun _ => (Cell.checked_ofPoint block).map

theorem of_warning? (h : warning? n = .ok m) : ∃ d : Digit, (d.val : Int) = n ∧ m = .warning d := by
  rw [warning?] at h
  split at h
  · next d hd =>
    cases h
    exact ⟨d, Digit.ofInt?_eq_some.1 hd, rfl⟩
  · cases h

theorem of_blockDetected? (h : blockDetected? robot block = .ok m) :
    ∃ r b : Cell, (r.toPoint = robot ∧ b.toPoint = block) ∧ m = .blockDetected r b := by
  rw [blockDetected?] at h
  cases hrobot : Cell.ofPoint robot with
  | error e =>
    rw [hrobot] at h
    cases h
  | ok r =>
    cases hblock : Cell.ofPoint block with
    | error e =>
      rw [hrobot, hblock] at h
      cases h
    | ok b =>
      rw [hrobot, hblock] at h
      cases h
      exact ⟨r, b, ⟨Cell.toPoint_of_ofPoint hrobot, Cell.toPoint_of_ofPoint hblock⟩, rfl⟩

end Message

/-! ### What messages tell -/

/-- A constructor of messages of kind `kind` that looks for `faults` in what it is given, and whose
    messages tell what they were made of. -/
structure ChecksPayload {α : Type} (make : α → Except MessageError Message)
    (faults : α → List PayloadFault) (Tells : Message → α → Prop) (kind : Kind) : Prop where
  /-- It succeeds just if all the numbers are digits. -/
  exists_ok_iff (a : α) :
    (∃ m, make a = .ok m) ↔ ∀ fault ∈ faults a, 0 ≤ fault.value ∧ fault.value ≤ 9
  /-- The message tells what it was made of. -/
  tells {a : α} {m : Message} (h : make a = .ok m) : m.kind = kind ∧ Tells m a
  /-- And so does the message that is found where the token of the message begins another. -/
  classified {a : α} {m : Message} (h : make a = .ok m) (rest : String) :
    ∃ m', classify (m.encode ++ rest) = .ok m' ∧ m'.kind = kind ∧ Tells m' a
  /-- If it fails, the first number that is no digit is reported, as one of this kind. -/
  refused {a : α} {e : MessageError} (h : make a = .error e) :
    ∃ fault, (faults a).find? (·.Holds) = some fault ∧ e = .malformed fault ∧ fault.kind = kind

theorem checksPayload {α : Type} {make : α → Except MessageError Message}
    {faults : α → List PayloadFault} {Tells : Message → α → Prop} {kind : Kind}
    (hchecked : ∀ a, Checked (make a) (faults a))
    (hkind : ∀ a, ∀ fault ∈ faults a, fault.kind = kind)
    (htells : ∀ a m, make a = .ok m → m.kind = kind ∧ Tells m a) :
    ChecksPayload make faults Tells kind where
  exists_ok_iff a := (hchecked a).exists_ok_iff
  tells {a m} h := htells a m h
  classified {a m} h rest := ⟨m, classify_eq_ok_iff.2 ⟨rest, rfl⟩, htells a m h⟩
  refused {a e} h := by
    obtain ⟨fault, hfind, rfl⟩ := (hchecked a).of_error h
    exact ⟨fault, hfind, rfl, hkind a fault (List.mem_of_find?_eq_some hfind)⟩

/-- The checking constructors of messages and what their messages tell. -/
structure ChecksPayloads : Prop where
  warning : ChecksPayload Message.warning? (fun n => [.instructionCount n])
    (fun m n => m.instructions? = some n) .warning
  location : ChecksPayload Message.location? Point.faults
    (fun m robot => m.robot? = some robot ∧ m.block? = none) .location
  /-- The coordinates of the robot are checked before those of the obstacle. -/
  blockDetected : ChecksPayload
    (fun points : Point × Point => Message.blockDetected? points.1 points.2)
    (fun points => points.1.faults ++ points.2.faults)
    (fun m points => m.robot? = some points.1 ∧ m.block? = some points.2) .location
  /-- The reason that is given for a coordinate says which axis it is on and what it is. -/
  reason (axis : Axis) (n : Int) : (PayloadFault.coordinate axis n).reason =
    axis.name ++ " " ++ toString n ++ " does not fit in a single digit"
  /-- It can be told from the reason of any other coordinate. -/
  reason_inj {axis axis' : Axis} {n n' : Int}
    (h : (PayloadFault.coordinate axis n).reason = (PayloadFault.coordinate axis' n').reason) :
    axis = axis' ∧ n = n'

theorem payloads_checked : ChecksPayloads where
  warning := checksPayload Message.checked_warning? (by simp [PayloadFault.kind]) fun n m h => by
    obtain ⟨d, rfl, rfl⟩ := Message.of_warning? h
    exact ⟨rfl, rfl⟩
  location := checksPayload Message.checked_location? Point.kind_of_mem_faults fun p m h => by
    obtain ⟨c, rfl, rfl⟩ := Message.location?_eq_ok_iff.1 h
    exact ⟨rfl, rfl, rfl⟩
  blockDetected := checksPayload (fun points => Message.checked_blockDetected? points.1 points.2)
    (fun points => List.forall_mem_append.2
      ⟨points.1.kind_of_mem_faults, points.2.kind_of_mem_faults⟩)
    fun points m h => by
      obtain ⟨r, b, ⟨hrobot, hblock⟩, rfl⟩ := Message.of_blockDetected? h
      exact ⟨rfl, congrArg some hrobot, congrArg some hblock⟩
  reason _ _ := rfl
  reason_inj := PayloadFault.reason_coordinate_inj

/-- A robot on row 1 and column 2 and an obstacle on row 3 and column 0 are written the other way
    round, and found again where a digit follows. If the robot were on column -1, it is this that
    would be reported, even if the obstacle was off the grid as well. -/
theorem payloads_checked_apart :
    let robot : Point := ⟨.one, .ofDigit .two⟩
    let block : Point := ⟨.ofDigit .three, .zero⟩
    let outside : Point := ⟨.one, .minusOne⟩
    let above : Point := ⟨.minusOne, .zero⟩
    (∃ m, classify ("L2103" ++ "7") = .ok m ∧ m.kind = .location ∧
      m.robot? = some robot ∧ m.block? = some block) ∧
    Message.blockDetected? outside above = .error (.malformed (.coordinate .column (-1))) ∧
    (outside.faults ++ above.faults).find? (·.Holds) = some (.coordinate .column (-1)) := by
  intro robot block outside above
  have hmade : Message.blockDetected? robot block =
      .ok (.blockDetected ⟨.one, .two⟩ ⟨.three, .zero⟩) := rfl
  have hrefused : Message.blockDetected? outside above =
      .error (.malformed (.coordinate .column (-1))) := rfl
  obtain ⟨fault, hfind, herror, -⟩ := payloads_checked.blockDetected.refused
    (a := (outside, above)) hrefused
  cases herror
  exact ⟨payloads_checked.blockDetected.classified (a := (robot, block)) hmade "7",
    hrefused, hfind⟩

end GridRobot
