import GridRobot.Proofs.Line.Writing

/-!
# What a line link writes, call by call

A stream takes what is written to it as far as there is room, however many bytes
it takes at a time (`Sink.write_eq`). So the calls alone tell what a line link has
written, and what it says to the next one:

* it takes up the tokens without line feeds, until it is closed (`offered`), and
  their frames stand one after the other in the stream, as far as there is room
  (`LineLink.run_eq`);
* it accepts a token just if there is room for all of them up to the end of that
  one, and the stream passes on what it took;
* it shuts the stream down when it is closed for the first time, and has no part
  in it from then on.

What is found has no part in this, nor this in what is found
(`LineLink.finding_eq`). All this is put together in `LineLink.writes_frames`.
-/

namespace GridRobot

namespace Sink

variable {s : Sink} {bytes : List UInt8} {n : Nat}

/-- There is room for `n` more bytes. -/
def Fits (s : Sink) (n : Nat) : Prop := ∀ room ∈ s.room, n ≤ room

instance (s : Sink) (n : Nat) : Decidable (s.Fits n) :=
  inferInstanceAs (Decidable (∀ room ∈ s.room, n ≤ room))

/-- As many of the bytes as there is room for. -/
def fitting (s : Sink) (bytes : List UInt8) : List UInt8 :=
  match s.room with
  | some room => bytes.take room
  | none => bytes

/-- The failure of a write to a stream without room. -/
def stop (s : Sink) : String := s.writeFault.getD "write zero"

/-! ### Room -/

theorem fits_of_room_none (h : s.room = none) (n : Nat) : s.Fits n := by
  rw [Fits, h]
  exact fun _ hroom => absurd hroom (Option.not_mem_none _)

theorem fits_iff {room : Nat} (h : s.room = some room) : s.Fits n ↔ n ≤ room := by
  rw [Fits, h]
  exact ⟨fun hall => hall room rfl, fun hn _ hroom => Option.some.inj hroom ▸ hn⟩

theorem fits_zero (s : Sink) : s.Fits 0 := fun room _ => Nat.zero_le room

theorem fitting_of_room_none (h : s.room = none) (bytes : List UInt8) :
    s.fitting bytes = bytes := by
  rw [fitting, h]

theorem fitting_of_room {room : Nat} (h : s.room = some room) (bytes : List UInt8) :
    s.fitting bytes = bytes.take room := by
  rw [fitting, h]

theorem fitting_nil (s : Sink) : s.fitting [] = [] := by
  rw [fitting]
  split
  · exact List.take_nil
  · rfl

theorem fitting_eq_self (h : s.Fits bytes.length) : s.fitting bytes = bytes := by
  rw [fitting]
  split
  · next room hroom => exact List.take_of_length_le (h room hroom)
  · rfl

theorem room_take_none (h : s.room = none) (bytes : List UInt8) : (s.take bytes).room = none := by
  rw [take, h]
  rfl

theorem room_take {room : Nat} (h : s.room = some room) (bytes : List UInt8) :
    (s.take bytes).room = some (room - bytes.length) := by
  rw [take, h]
  rfl

/-- Bytes that were taken have used up their room. -/
theorem fits_take (h : s.Fits bytes.length) (n : Nat) :
    (s.take bytes).Fits n ↔ s.Fits (bytes.length + n) := by
  cases hroom : s.room with
  | none =>
    exact iff_of_true (fits_of_room_none (room_take_none hroom bytes) n) (fits_of_room_none hroom _)
  | some room =>
    rw [fits_iff hroom] at h
    rw [fits_iff (room_take hroom bytes), fits_iff hroom, Nat.le_sub_iff_add_le' h]

/-- What fits of two pieces is what fits of the first one, and what fits of the second one then. -/
theorem fitting_append (s : Sink) (bytes more : List UInt8) :
    s.fitting (bytes ++ more) =
      s.fitting bytes ++ (s.take (s.fitting bytes)).fitting more := by
  cases hroom : s.room with
  | none =>
    rw [fitting_of_room_none hroom, fitting_of_room_none hroom,
      fitting_of_room_none (room_take_none hroom bytes)]
  | some room =>
    rw [fitting_of_room hroom, fitting_of_room hroom, fitting_of_room (room_take hroom _),
      List.length_take, List.take_append]
    congr 2
    omega

/-- Nothing fits after bytes that did not. -/
theorem fitting_take_of_not_fits (h : ¬s.Fits bytes.length) (more : List UInt8) :
    (s.take (s.fitting bytes)).fitting more = [] := by
  cases hroom : s.room with
  | none => exact absurd (fits_of_room_none hroom _) h
  | some room =>
    rw [fits_iff hroom] at h
    rw [fitting_of_room hroom, fitting_of_room (room_take hroom _), List.length_take,
      Nat.min_eq_left (by omega), Nat.sub_self, List.take_zero]

/-- More bytes fit after the first ones just if all of them fit. -/
theorem fits_take_fitting (bytes : List UInt8) {more : List UInt8} (hmore : more ≠ []) :
    (s.take (s.fitting bytes)).Fits more.length ↔ s.Fits (bytes ++ more).length := by
  rw [List.length_append]
  by_cases h : s.Fits bytes.length
  · rw [fitting_eq_self h, fits_take h]
  · refine iff_of_false (fun hfits => hmore ?_) fun hfits => h fun room hroom => ?_
    · rw [← fitting_eq_self hfits, fitting_take_of_not_fits h]
    · exact Nat.le_trans (Nat.le_add_right _ _) (hfits room hroom)

/-! ### Writing as far as there is room -/

theorem writeWithin_nil (fuel : Nat) (s : Sink) : writeWithin fuel [] s = (.ok (), s) := by
  cases fuel <;> rfl

theorem writeWithin_of_no_room (hroom : s.room = some 0) (hbytes : bytes ≠ []) (fuel : Nat) :
    writeWithin (fuel + 1) bytes s = (.error s.stop, s) := by
  rw [writeWithin_succ fuel hbytes, accepts, stop, hroom]
  cases s.writeFault with
  | some fault => rfl
  | none => simp [limit]

theorem fits_of_accepts (h : s.accepts bytes = .ok n) : s.Fits n := by
  rw [accepts] at h
  split at h
  · cases h
  · cases h
    intro room hroom
    rw [Option.mem_def.1 hroom]
    exact Nat.min_le_right _ _

theorem writeWithin_of_room (hchunk : s.chunk ≠ some 0) (hroom : s.room ≠ some 0)
    (hbytes : bytes ≠ []) (fuel : Nat) :
    ∃ n, n + 1 ≤ bytes.length ∧ s.Fits (n + 1) ∧ writeWithin (fuel + 1) bytes s =
      writeWithin fuel (bytes.drop (n + 1)) (s.take (bytes.take (n + 1))) := by
  rcases s.accepts_cases hbytes with ⟨hfull, -⟩ | ⟨n, haccepts, hn⟩
  · exact absurd hfull (not_or.2 ⟨hchunk, hroom⟩)
  · refine ⟨n, hn, fits_of_accepts haccepts, ?_⟩
    rw [writeWithin_succ fuel hbytes, haccepts]
    rfl

theorem writeWithin_eq {fuel : Nat} (hfuel : bytes.length ≤ fuel) (hchunk : s.chunk ≠ some 0) :
    writeWithin fuel bytes s =
      (if s.Fits bytes.length then .ok () else .error s.stop, s.take (s.fitting bytes)) := by
  induction fuel generalizing bytes s with
  | zero =>
    cases List.eq_nil_of_length_eq_zero (Nat.le_zero.1 hfuel)
    rw [writeWithin_nil, List.length_nil, if_pos s.fits_zero, fitting_nil, take_nil]
  | succ fuel ih =>
    by_cases hbytes : bytes = []
    · subst hbytes
      rw [writeWithin_nil, List.length_nil, if_pos s.fits_zero, fitting_nil, take_nil]
    by_cases hroom : s.room = some 0
    · have hfits : ¬s.Fits bytes.length := by
        rw [fits_iff hroom, Nat.le_zero, List.length_eq_zero_iff]
        exact hbytes
      rw [writeWithin_of_no_room hroom hbytes, if_neg hfits, fitting_of_room hroom, List.take_zero,
        take_nil]
    · -- One write takes some bytes that fit; the others are written into the room that is left.
      obtain ⟨n, hn, hfits, hwrite⟩ := writeWithin_of_room hchunk hroom hbytes fuel
      have hlength : (bytes.take (n + 1)).length = n + 1 := List.length_take_of_le hn
      have hrest : (bytes.drop (n + 1)).length ≤ fuel := by
        rw [List.length_drop]
        omega
      rw [← hlength] at hfits
      have htaken := s.fitting_append (bytes.take (n + 1)) (bytes.drop (n + 1))
      rw [List.take_append_drop, fitting_eq_self hfits] at htaken
      rw [hwrite, ih hrest (s := s.take (bytes.take (n + 1))) hchunk, take_take, ← htaken]
      simp only [fits_take hfits, ← List.length_append, List.take_append_drop]
      rfl

/-- Writing takes as many of the bytes as there is room for, and fails just if that is not all. -/
theorem write_eq (hchunk : s.chunk ≠ some 0) (bytes : List UInt8) :
    s.write bytes =
      (if s.Fits bytes.length then .ok () else .error s.stop, s.take (s.fitting bytes)) :=
  writeWithin_eq (Nat.le_refl _) hchunk

end Sink

namespace LineLink

variable {l : LineLink} {t : Token} {calls : List Call}

/-! ### Single calls -/

theorem send_of_mem (hfeed : lineFeed ∈ t) (l : LineLink) : l.send t = (.error .lineBreak, l) :=
  if_pos hfeed

theorem send_of_not_writable (hfeed : lineFeed ∉ t) (hclosed : l.writable = false) :
    l.send t = (.error (.closedHere l.id), l) := by
  rw [send, if_neg hfeed, hclosed]
  rfl

/-- Of the frame of a token is written what fits. -/
theorem send_eq (hfeed : lineFeed ∉ t) (hopen : l.writable = true)
    (hchunk : l.sink.chunk ≠ some 0) :
    l.send t =
      (if l.sink.Fits (frame t).length then l.sink.flush.mapError .sendFailed
        else .error (.sendFailed l.sink.stop),
      { l with sink := l.sink.take (l.sink.fitting (frame t)) }) := by
  rw [send, if_neg hfeed, hopen, l.sink.write_eq hchunk t, frame, Sink.fitting_append,
    ← Sink.take_take]
  by_cases hfits : l.sink.Fits t.length
  · have hchunk' : (l.sink.take t).chunk ≠ some 0 := hchunk
    rw [if_pos hfits, Sink.fitting_eq_self hfits, List.length_append]
    simp only [← Sink.fits_take hfits, Sink.write_eq hchunk' [lineFeed]]
    by_cases hend : (l.sink.take t).Fits [lineFeed].length
    · rw [if_pos hend, if_pos hend]
      rfl
    · rw [if_neg hend, if_neg hend]
      rfl
  · have hframe : ¬l.sink.Fits (t ++ [lineFeed]).length := fun h =>
      hfits fun room hroom => Nat.le_trans (by rw [List.length_append]; omega) (h room hroom)
    rw [if_neg hfits, if_neg hframe, Sink.fitting_take_of_not_fits hfits, Sink.take_nil]
    rfl

theorem close_of_not_writable (hclosed : l.writable = false) : l.close = (.ok (), l) := by
  rw [close, hclosed]
  rfl

theorem close_of_writable (hopen : l.writable = true) :
    l.close = (l.sink.shutdown.1.mapError .sendFailed,
      { l with sink := { l.sink with shut := true }, writable := false }) := by
  rw [close, hopen]
  rfl

/-! ### Runs -/

/-- The tokens that a link takes up: those without line feeds, until it is closed. -/
def offered (calls : List Call) : List Token :=
  ((calls.takeWhile (· ≠ .close)).filterMap Call.token?).filter (lineFeed ∉ ·)

theorem offered_close (calls : List Call) : offered (.close :: calls) = [] := rfl

theorem offered_receive (calls : List Call) : offered (.receive :: calls) = offered calls := rfl

theorem offered_send_of_mem (hfeed : lineFeed ∈ t) (calls : List Call) :
    offered (.send t :: calls) = offered calls := by
  simp [offered, Call.token?, hfeed]

theorem offered_send (hfeed : lineFeed ∉ t) (calls : List Call) :
    offered (.send t :: calls) = t :: offered calls := by
  simp [offered, Call.token?, hfeed]

theorem offered_concat (hopen : .close ∉ calls) (hfeed : lineFeed ∉ t) :
    offered (calls ++ [.send t]) = offered calls ++ [t] := by
  have hall : ∀ call ∈ calls, decide (call ≠ .close) = true := fun call hcall =>
    decide_eq_true fun h => hopen (h ▸ hcall)
  have hself : calls.takeWhile (· ≠ .close) = calls := by
    rw [← List.append_nil calls, List.takeWhile_append_of_pos hall, List.takeWhile_nil]
  rw [offered, offered, List.takeWhile_append_of_pos hall, hself, List.filterMap_append,
    List.filter_append]
  exact congrArg (_ ++ ·) (offered_send hfeed [])

/-- A link that was closed has no part in its stream any more. -/
theorem run_of_not_writable (hclosed : l.writable = false) (calls : List Call) :
    (machine.run calls l).sink = l.sink ∧ (machine.run calls l).writable = false ∧
      (machine.run calls l).id = l.id := by
  refine machine.run_preserves (P := fun l' => l'.sink = l.sink ∧ l'.writable = false ∧
    l'.id = l.id) (fun call l' h => ?_) calls ⟨rfl, hclosed, rfl⟩
  cases call with
  | send t =>
    show (l'.send t).2.sink = _ ∧ (l'.send t).2.writable = _ ∧ (l'.send t).2.id = _
    by_cases hfeed : lineFeed ∈ t
    · rw [send_of_mem hfeed]
      exact h
    · rw [send_of_not_writable hfeed h.2.1]
      exact h
  | receive => exact h
  | close =>
    show l'.close.2.sink = _ ∧ l'.close.2.writable = _ ∧ l'.close.2.id = _
    rw [close_of_not_writable h.2.1]
    exact h

/-- The frames of the tokens that a link takes up stand one after the other in its stream, as far
    as there is room. -/
theorem run_eq (hopen : l.writable = true) (hchunk : l.sink.chunk ≠ some 0) (calls : List Call) :
    (machine.run calls l).sink =
        { l.sink.take (l.sink.fitting ((offered calls).flatMap frame)) with
          shut := l.sink.shut || decide (.close ∈ calls) } ∧
      (machine.run calls l).writable = decide (.close ∉ calls) ∧
      (machine.run calls l).id = l.id := by
  induction calls generalizing l with
  | nil =>
    refine ⟨?_, hopen, rfl⟩
    show l.sink = { l.sink.take (l.sink.fitting []) with shut := l.sink.shut || false }
    rw [Sink.fitting_nil, Sink.take_nil, Bool.or_false]
  | cons call calls ih =>
    rw [Machine.run_cons]
    cases call with
    | send t =>
      have hmem : .close ∈ Call.send t :: calls ↔ .close ∈ calls := by simp
      rw [decide_eq_decide.2 hmem, decide_eq_decide.2 (not_congr hmem)]
      show (machine.run calls (l.send t).2).sink = _ ∧ (machine.run calls (l.send t).2).writable = _
        ∧ (machine.run calls (l.send t).2).id = _
      by_cases hfeed : lineFeed ∈ t
      · rw [send_of_mem hfeed, offered_send_of_mem hfeed]
        exact ih hopen hchunk
      · -- What was taken of this token has used up its room before the next one comes.
        rw [send_eq hfeed hopen hchunk, offered_send hfeed, List.flatMap_cons,
          Sink.fitting_append, ← Sink.take_take]
        exact ih (l := { l with sink := l.sink.take (l.sink.fitting (frame t)) }) hopen hchunk
    | receive =>
      have hmem : .close ∈ Call.receive :: calls ↔ .close ∈ calls := by simp
      rw [decide_eq_decide.2 hmem, decide_eq_decide.2 (not_congr hmem), offered_receive]
      exact ih hopen hchunk
    | close =>
      have hmem : .close ∈ Call.close :: calls := List.mem_cons_self
      rw [decide_eq_true hmem, decide_eq_false (not_not_intro hmem), offered_close, Bool.or_true]
      show (machine.run calls l.close.2).sink = _ ∧ (machine.run calls l.close.2).writable = _ ∧
        (machine.run calls l.close.2).id = _
      obtain ⟨hsink, hwritable, hid⟩ := run_of_not_writable (l := l.close.2)
        (by rw [close_of_writable hopen]) calls
      rw [hsink, hwritable, hid, close_of_writable hopen, List.flatMap_nil, Sink.fitting_nil,
        Sink.take_nil]
      exact ⟨rfl, rfl, rfl⟩

/-! ### All together -/

/-- What a link that was asked `calls` has written, and what it says to the next call. -/
structure WritesFrames (l : LineLink) (calls : List Call) : Prop where
  /-- The frames of the tokens taken up, as far as there is room. -/
  taken : (machine.run calls l).sink.taken =
    l.sink.taken ++ l.sink.fitting ((offered calls).flatMap frame)
  accepts (t : Token) : ((machine.run calls l).send t).1 = .ok () ↔
    lineFeed ∉ t ∧ .close ∉ calls ∧
      l.sink.Fits ((offered (calls ++ [.send t])).flatMap frame).length ∧
      l.sink.flushFault = none
  /-- A line feed is refused whether the link was closed or not, and nothing is written. -/
  lineBreak {t : Token} (hfeed : lineFeed ∈ t) :
    (machine.run calls l).send t = (.error .lineBreak, machine.run calls l)
  /-- After the link was closed nothing is written. -/
  closed {t : Token} (hfeed : lineFeed ∉ t) (hclosed : .close ∈ calls) :
    (machine.run calls l).send t = (.error (.closedHere l.id), machine.run calls l)
  unfit {t : Token} (hfeed : lineFeed ∉ t) (hopen : .close ∉ calls)
    (hfits : ¬l.sink.Fits ((offered (calls ++ [.send t])).flatMap frame).length) :
    ((machine.run calls l).send t).1 = .error (.sendFailed l.sink.stop)
  unflushed {t : Token} (hfeed : lineFeed ∉ t) (hopen : .close ∉ calls)
    (hfits : l.sink.Fits ((offered (calls ++ [.send t])).flatMap frame).length) {fault : String}
    (hfault : l.sink.flushFault = some fault) :
    ((machine.run calls l).send t).1 = .error (.sendFailed fault)
  shut : (machine.run calls l).sink.shut = (l.sink.shut || decide (.close ∈ calls))
  /-- To close the link for the first time shuts the stream down. Even if that fails the link is
      closed. -/
  closes (hopen : .close ∉ calls) :
    (machine.run calls l).close = (l.sink.shutdown.1.mapError .sendFailed,
      { machine.run calls l with
        sink := { (machine.run calls l).sink with shut := true }, writable := false })
  /-- To close the link again does nothing. -/
  closesAgain (hclosed : .close ∈ calls) :
    (machine.run calls l).close = (.ok (), machine.run calls l)
  /-- Looks find what they would find at a link that is asked nothing else. -/
  finds {l' : LineLink} (hsource : l.source = l'.source) :
    machine.log finding calls l = machine.log finding (calls.filter (· = .receive)) l'

/-- Whatever a link that is open is asked, its calls tell what it has written and what it says to
    the next call, however many bytes its stream takes at a time. -/
theorem writes_frames (hopen : l.writable = true) (hchunk : l.sink.chunk ≠ some 0)
    (calls : List Call) : l.WritesFrames calls := by
  obtain ⟨hsink, hwritable, hid⟩ := run_eq hopen hchunk calls
  have hstill (hclosed : .close ∈ calls) : (machine.run calls l).writable = false :=
    hwritable.trans (decide_eq_false (not_not_intro hclosed))
  have hgoes (hopen : .close ∉ calls) : (machine.run calls l).writable = true :=
    hwritable.trans (decide_eq_true hopen)
  -- As long as the link is open, the frame of the next token comes after those taken up.
  have hsend {t : Token} (hfeed : lineFeed ∉ t) (hopen : .close ∉ calls) :
      ((machine.run calls l).send t).1 =
        if l.sink.Fits ((offered (calls ++ [.send t])).flatMap frame).length then
          l.sink.flush.mapError .sendFailed
        else .error (.sendFailed l.sink.stop) := by
    have hframe : frame t ≠ [] := List.append_ne_nil_of_right_ne_nil _ (List.cons_ne_nil _ _)
    have hfits := l.sink.fits_take_fitting ((offered calls).flatMap frame) hframe
    rw [offered_concat hopen hfeed, List.flatMap_append, List.flatMap_singleton,
      send_eq hfeed (hgoes hopen) (by rw [hsink]; exact hchunk), hsink]
    simp only [← hfits]
    rfl
  have hopen_of {t : Token} (hfeed : lineFeed ∉ t)
      (hok : ((machine.run calls l).send t).1 = .ok ()) : .close ∉ calls := by
    intro hclosed
    rw [send_of_not_writable hfeed (hstill hclosed)] at hok
    cases hok
  constructor
  case taken => rw [hsink]; rfl
  case accepts =>
    intro t
    constructor
    · intro hok
      have hfeed := (of_send_eq_ok hok).1
      have hopen := hopen_of hfeed hok
      rw [hsend hfeed hopen] at hok
      split at hok
      · next hfits =>
        refine ⟨hfeed, hopen, hfits, ?_⟩
        rw [Sink.flush] at hok
        split at hok
        · cases hok
        · assumption
      · cases hok
    · rintro ⟨hfeed, hopen, hfits, hfault⟩
      rw [hsend hfeed hopen, if_pos hfits, Sink.flush_eq_ok hfault]
      rfl
  case lineBreak => exact fun hfeed => send_of_mem hfeed _
  case closed =>
    intro t hfeed hclosed
    rw [send_of_not_writable hfeed (hstill hclosed), hid]
  case unfit =>
    intro t hfeed hopen hfits
    rw [hsend hfeed hopen, if_neg hfits]
  case unflushed =>
    intro t hfeed hopen hfits fault hfault
    rw [hsend hfeed hopen, if_pos hfits, Sink.flush, hfault]
    rfl
  case shut => rw [hsink]
  case closes =>
    intro hopen
    rw [close_of_writable (hgoes hopen), hsink]
    rfl
  case closesAgain => exact fun hclosed => close_of_not_writable (hstill hclosed)
  case finds => exact fun hsource => finding_eq hsource calls

/-- The room ends within the second frame, and the stream fails when it is shut down. -/
theorem writes_frames_short_room :
    let l : LineLink :=
      { id := ⟨1⟩, sink := { chunk := some 2, room := some 4, shutdownFault := some "stuck" } }
    let before : List Call := [.send [0x44], .receive, .send [0x44, 0x0A]]
    let calls : List Call := before ++ [.send [0x44, 0x44, 0x44], .send [], .close]
    l.writable = true ∧ l.sink.chunk ≠ some 0 ∧
      (machine.run calls l).sink.taken = [0x44, 0x0A, 0x44, 0x44] ∧
      ((machine.run before l).send [0x44]).1 = .ok () ∧
      ((machine.run before l).send [0x44, 0x44]).1 = .error (.sendFailed "write zero") ∧
      (machine.run before l).close.1 = .error (.sendFailed "stuck") ∧
      (machine.run calls l).send [0x44] = (.error (.closedHere ⟨1⟩), machine.run calls l) ∧
      (machine.run calls l).close = (.ok (), machine.run calls l) := by
  intro l before calls
  have hchunk : l.sink.chunk ≠ some 0 := by decide
  have hbefore := writes_frames (l := l) rfl hchunk before
  have hcalls := writes_frames (l := l) rfl hchunk calls
  refine ⟨rfl, hchunk, hcalls.taken.trans (by decide), (hbefore.accepts _).2 (by decide),
    hbefore.unfit (by decide) (by decide) (by decide), ?_, hcalls.closed (by decide) (by decide),
    hcalls.closesAgain (by decide)⟩
  rw [hbefore.closes (by decide)]
  rfl

end LineLink

end GridRobot
