import GridRobot.Proofs.Line.Run

/-!
# What is written to a stream

A stream takes bytes in the order in which they are written. Writing comes to an
end with everything taken, or with a stream that takes no more (`Sink.write_cases`).

So a token that a line link accepts has been written whole, with a line feed
after it, and the tokens accepted in a run one after the other
(`LineLink.taken_run`).
-/

namespace GridRobot

namespace Sink

variable {s : Sink} {bytes more : List UInt8}

/-! ### Taking bytes -/

@[simp] theorem taken_take (bytes : List UInt8) (s : Sink) :
    (s.take bytes).taken = s.taken ++ bytes := rfl

@[simp] theorem take_nil (s : Sink) : s.take [] = s := by
  rw [take, List.append_nil]
  cases h : s.room <;> simp [← h]

theorem take_take (bytes more : List UInt8) (s : Sink) :
    (s.take bytes).take more = s.take (bytes ++ more) := by
  simp only [take, List.append_assoc, List.length_append, Option.map_map, Function.comp_def,
    Nat.sub_sub]

/-! ### Writing -/

/-- The stream takes no more. -/
def Full (s : Sink) : Prop := s.chunk = some 0 ∨ s.room = some 0

theorem limit_le (n : Nat) (most : Option Nat) : limit n most ≤ n := by
  cases most with
  | none => exact Nat.le_refl n
  | some m => exact Nat.min_le_left n m

theorem limit_eq_zero {n : Nat} {most : Option Nat} (h : limit n most = 0) :
    n = 0 ∨ most = some 0 := by
  cases most with
  | none => exact .inl h
  | some m => exact (Nat.min_eq_zero_iff.1 h).imp id (congrArg some)

/-- A write to a full stream takes nothing; any other write takes some of the bytes. -/
theorem accepts_cases (s : Sink) (hbytes : bytes ≠ []) :
    (s.Full ∧ ((∃ fault, s.accepts bytes = .error fault) ∨ s.accepts bytes = .ok 0)) ∨
      ∃ n, s.accepts bytes = .ok (n + 1) ∧ n + 1 ≤ bytes.length := by
  rw [accepts]
  split
  · next fault hroom _ => exact .inl ⟨.inr hroom, .inl ⟨fault, rfl⟩⟩
  · cases htaken : limit (limit bytes.length s.chunk) s.room with
    | zero =>
      refine .inl ⟨?_, .inr rfl⟩
      rcases limit_eq_zero htaken with hchunk | hroom
      · exact .inl <| (limit_eq_zero hchunk).resolve_left <|
          Nat.ne_of_gt (List.length_pos_iff.2 hbytes)
      · exact .inr hroom
    | succ n =>
      refine .inr ⟨n, rfl, ?_⟩
      rw [← htaken]
      exact Nat.le_trans (limit_le _ _) (limit_le _ _)

theorem writeWithin_succ (fuel : Nat) (hbytes : bytes ≠ []) (s : Sink) :
    writeWithin (fuel + 1) bytes s =
      match s.accepts bytes with
      | .error fault => (.error fault, s)
      | .ok 0 => (.error "write zero", s)
      | .ok n => writeWithin fuel (bytes.drop n) (s.take (bytes.take n)) := by
  cases bytes with
  | nil => exact absurd rfl hbytes
  | cons b bytes => rfl

theorem writeWithin_step (fuel : Nat) (s : Sink) (hbytes : bytes ≠ []) :
    (s.Full ∧ ∃ fault, writeWithin (fuel + 1) bytes s = (.error fault, s)) ∨
      ∃ n, n + 1 ≤ bytes.length ∧ writeWithin (fuel + 1) bytes s =
        writeWithin fuel (bytes.drop (n + 1)) (s.take (bytes.take (n + 1))) := by
  rw [writeWithin_succ fuel hbytes]
  rcases s.accepts_cases hbytes with ⟨hfull, ⟨fault, haccepts⟩ | haccepts⟩ | ⟨n, haccepts, hn⟩
  · rw [haccepts]
    exact .inl ⟨hfull, fault, rfl⟩
  · rw [haccepts]
    exact .inl ⟨hfull, _, rfl⟩
  · rw [haccepts]
    exact .inr ⟨n, hn, rfl⟩

theorem writeWithin_cases {fuel : Nat} (hfuel : bytes.length ≤ fuel) (s : Sink) :
    writeWithin fuel bytes s = (.ok (), s.take bytes) ∨
      ∃ fault n, n < bytes.length ∧ (s.take (bytes.take n)).Full ∧
        writeWithin fuel bytes s = (.error fault, s.take (bytes.take n)) := by
  induction fuel generalizing bytes s with
  | zero =>
    cases List.eq_nil_of_length_eq_zero (Nat.le_zero.1 hfuel)
    rw [writeWithin, take_nil]
    exact .inl rfl
  | succ fuel ih =>
    by_cases hbytes : bytes = []
    · subst hbytes
      rw [writeWithin, take_nil]
      exact .inl rfl
    · rcases writeWithin_step fuel s hbytes with ⟨hfull, fault, hwrite⟩ | ⟨n, hn, hwrite⟩
      · refine .inr ⟨fault, 0, List.length_pos_iff.2 hbytes, ?_, ?_⟩
        · rw [List.take_zero, take_nil]
          exact hfull
        · rw [List.take_zero, take_nil, hwrite]
      · -- What one write takes and the writes after it is taken in one go.
        have hdrop : (bytes.drop (n + 1)).length ≤ fuel := by
          rw [List.length_drop]
          omega
        rw [hwrite]
        rcases ih hdrop (s.take (bytes.take (n + 1))) with hrest | ⟨fault, m, hm, hfull, hrest⟩
        · rw [hrest, take_take, List.take_append_drop]
          exact .inl rfl
        · rw [take_take, ← List.take_add] at hfull hrest
          refine .inr ⟨fault, n + 1 + m, ?_, hfull, hrest⟩
          rw [List.length_drop] at hm
          omega

/-- Writing comes to an end with everything taken, or with a full stream. -/
theorem write_cases (bytes : List UInt8) (s : Sink) :
    s.write bytes = (.ok (), s.take bytes) ∨
      ∃ fault n, n < bytes.length ∧ (s.take (bytes.take n)).Full ∧
        s.write bytes = (.error fault, s.take (bytes.take n)) :=
  writeWithin_cases (Nat.le_refl _) s

/-- The stream has room for `n` bytes, and each write takes at least one. -/
structure Roomy (n : Nat) (s : Sink) : Prop where
  chunk_ne : s.chunk ≠ some 0
  le_room : ∀ room, s.room = some room → n ≤ room

theorem Roomy.take {n : Nat} (h : s.Roomy n) (bytes : List UInt8) :
    (s.take bytes).Roomy (n - bytes.length) := by
  refine ⟨h.chunk_ne, fun room hroom => ?_⟩
  obtain ⟨room', hroom', rfl⟩ := Option.map_eq_some_iff.1 hroom
  exact Nat.sub_le_sub_right (h.le_room room' hroom') _

theorem Roomy.mono {n m : Nat} (h : s.Roomy n) (hm : m ≤ n) : s.Roomy m :=
  ⟨h.chunk_ne, fun room hroom => Nat.le_trans hm (h.le_room room hroom)⟩

theorem Roomy.not_full {n : Nat} (h : s.Roomy n) (hn : 0 < n) : ¬s.Full := by
  rintro (hchunk | hroom)
  · exact h.chunk_ne hchunk
  · exact absurd (h.le_room 0 hroom) (Nat.not_le_of_lt hn)

/-- A stream with room for the bytes is not full before it has taken all of them. -/
theorem Roomy.not_full_take {n : Nat} (h : s.Roomy bytes.length) (hn : n < bytes.length) :
    ¬(s.take (bytes.take n)).Full := by
  refine (h.take (bytes.take n)).not_full ?_
  rw [List.length_take_of_le (Nat.le_of_lt hn)]
  exact Nat.sub_pos_of_lt hn

theorem flush_eq_ok (h : s.flushFault = none) : s.flush = .ok () := by
  rw [flush, h]

end Sink

/-- A token as it is written. -/
def frame (t : Token) : List UInt8 := t ++ [lineFeed]

theorem length_frame (t : Token) : (frame t).length = t.length + 1 := List.length_append

namespace LineLink

variable {l : LineLink} {t : Token}

/-- Sending a token writes it and the line feed as one, or as much of it as there is room for. -/
theorem send_cases (hfeed : lineFeed ∉ t) (hwritable : l.writable = true) :
    l.send t = ((l.sink.take (frame t)).flush.mapError .sendFailed,
        { l with sink := l.sink.take (frame t) }) ∨
      ∃ fault n, n < (frame t).length ∧ (l.sink.take ((frame t).take n)).Full ∧
        l.send t =
          (.error (.sendFailed fault), { l with sink := l.sink.take ((frame t).take n) }) := by
  rw [send, if_neg hfeed, hwritable]
  rcases l.sink.write_cases t with htoken | ⟨fault, n, hn, hfull, htoken⟩
  · rw [htoken]
    rcases (l.sink.take t).write_cases [lineFeed] with hend | ⟨fault, n, hn, hfull, hend⟩
    · refine .inl ?_
      dsimp only
      rw [hend, Sink.take_take]
      rfl
    · -- The token was taken, but nothing after it.
      cases Nat.lt_one_iff.1 hn
      rw [List.take_zero, Sink.take_nil] at hfull hend
      refine .inr ⟨fault, t.length, length_frame t ▸ Nat.lt_succ_self _, ?_, ?_⟩
      · rw [frame, List.take_left]
        exact hfull
      · rw [frame, List.take_left]
        dsimp only
        rw [hend]
        rfl
  · have hfirst : (frame t).take n = t.take n := List.take_append_of_le_length (Nat.le_of_lt hn)
    refine .inr ⟨fault, n, length_frame t ▸ Nat.lt_succ_of_lt hn, ?_, ?_⟩
    · rw [hfirst]
      exact hfull
    · rw [hfirst, htoken]
      rfl

/-- A token that is accepted has been written whole, with a line feed after it. -/
theorem of_send_eq_ok (h : (l.send t).1 = .ok ()) :
    lineFeed ∉ t ∧ (l.send t).2 = { l with sink := l.sink.take (frame t) } := by
  by_cases hfeed : lineFeed ∈ t
  · rw [send, if_pos hfeed] at h
    cases h
  · by_cases hwritable : l.writable = true
    · rcases send_cases hfeed hwritable with hsend | ⟨fault, n, -, -, hsend⟩
      · exact ⟨hfeed, by rw [hsend]⟩
      · rw [hsend] at h
        cases h
    · rw [Bool.not_eq_true] at hwritable
      rw [send, if_neg hfeed, hwritable] at h
      cases h

/-- A link that is open accepts a token for which there is room. -/
theorem send_eq_ok (hfeed : lineFeed ∉ t) (hwritable : l.writable = true)
    (hroom : l.sink.Roomy (frame t).length) (hflush : l.sink.flushFault = none) :
    l.send t = (.ok (), { l with sink := l.sink.take (frame t) }) := by
  rcases send_cases hfeed hwritable with hsend | ⟨fault, n, hn, hfull, -⟩
  · rw [hsend, Sink.flush_eq_ok (s := l.sink.take (frame t)) hflush]
    rfl
  · exact absurd hfull (hroom.not_full_take hn)

/-! ### Runs -/

theorem taken_close (l : LineLink) : l.close.2.sink.taken = l.sink.taken := by
  rw [close]
  split
  · rfl
  · rfl

/-- The tokens accepted in a run have been written one after the other. -/
theorem taken_run {calls : List Call} (h : ∀ r ∈ machine.log sending calls l, r = .ok ()) :
    (∀ t ∈ calls.filterMap Call.token?, lineFeed ∉ t) ∧
      (machine.run calls l).sink.taken =
        l.sink.taken ++ (calls.filterMap Call.token?).flatMap frame := by
  induction calls generalizing l with
  | nil => exact ⟨List.forall_mem_nil _, (List.append_nil _).symm⟩
  | cons call calls ih =>
    rw [Machine.log_cons] at h
    rw [Machine.run_cons]
    cases call with
    | send t =>
      obtain ⟨hfeed, hsend⟩ := of_send_eq_ok (h _ (List.mem_append_left _ List.mem_cons_self))
      obtain ⟨hfeeds, htaken⟩ := ih fun r hr => h r (List.mem_append_right _ hr)
      refine ⟨List.forall_mem_cons.2 ⟨hfeed, hfeeds⟩, htaken.trans ?_⟩
      show (l.send t).2.sink.taken ++ _ = _
      rw [hsend, Sink.taken_take, List.append_assoc]
      rfl
    | receive => exact ih h
    | close =>
      obtain ⟨hfeeds, htaken⟩ := ih h
      refine ⟨hfeeds, htaken.trans ?_⟩
      exact congrArg (· ++ _) l.taken_close

/-- A link that is open accepts tokens for which there is room. -/
theorem sending_of_roomy {ts : List Token} (hfeeds : ∀ t ∈ ts, lineFeed ∉ t)
    (hwritable : l.writable = true) (hroom : l.sink.Roomy (ts.flatMap frame).length)
    (hflush : l.sink.flushFault = none) :
    machine.log sending (ts.map .send) l = ts.map fun _ => .ok () := by
  -- The room that a token takes up leaves enough for the tokens after it.
  induction ts generalizing l with
  | nil => rfl
  | cons t ts ih =>
    obtain ⟨hfeed, hfeeds⟩ := List.forall_mem_cons.1 hfeeds
    rw [List.flatMap_cons, List.length_append] at hroom
    have hsend := send_eq_ok hfeed hwritable (hroom.mono (Nat.le_add_right _ _)) hflush
    have hrest := hroom.take (frame t)
    rw [Nat.add_sub_cancel_left] at hrest
    show (l.send t).1 :: machine.log sending (ts.map .send) (l.send t).2 = _
    rw [hsend]
    exact congrArg (.ok () :: ·)
      (ih (l := { l with sink := l.sink.take (frame t) }) hfeeds hwritable hrest hflush)

end LineLink

end GridRobot
