import GridRobot.Proofs.Line.Reading
import GridRobot.Proofs.Line.Writing
import GridRobot.Proofs.Wire.Lossless

/-!
# From one line link to another

What one line link writes, another one reads, in whatever pieces.

* `LineLink.finds_accepted`: the tokens that the first link accepts are found at
  the second one in their order, each once, and then the end. A carriage return
  at the end of a token is taken for a part of the end of its line: the tokens
  are found as they were sent just if none has one (`LineLink.return_lost`).
* `LineLink.finds_messages`: the tokens of messages have none, so that messages
  arrive as they were sent, also if the lines come to end with carriage returns
  and line feeds on their way.
-/

namespace GridRobot

/-- A token loses nothing if there is no carriage return at its end. -/
theorem chomp_eq_self_iff {t : Token} : chomp t = t ↔ t.getLast? ≠ some carriageReturn := by
  rw [chomp]
  split
  · next h =>
    refine ⟨fun hsame => ?_, fun hnot => absurd h hnot⟩
    have hne : t ≠ [] := by
      rintro rfl
      cases h
    have hlength := congrArg List.length hsame
    rw [List.length_dropLast] at hlength
    have := List.length_pos_iff.2 hne
    omega
  · next h => exact ⟨fun _ => h, fun _ => rfl⟩

theorem map_chomp_eq_self_iff {ts : List Token} :
    ts.map chomp = ts ↔ ∀ t ∈ ts, t.getLast? ≠ some carriageReturn := by
  conv_lhs => rhs; rw [← List.map_id ts]
  rw [List.map_inj_left]
  exact forall₂_congr fun t _ => chomp_eq_self_iff

/-- Tokens that were written are the lines of what was written. -/
theorem exists_lined_frames {ts : List Token} (h : ∀ t ∈ ts, lineFeed ∉ t) :
    ∃ lines, Lined (ts.flatMap frame) lines [] ∧ tokensOfLines lines [] = ts.map chomp := by
  induction ts with
  | nil => exact ⟨[], Lined.nil_iff.2 ⟨rfl, List.not_mem_nil⟩, rfl⟩
  | cons t ts ih =>
    obtain ⟨ht, hts⟩ := List.forall_mem_cons.1 h
    obtain ⟨lines, hlined, htokens⟩ := ih hts
    refine ⟨Line.ofSegment t ht :: lines, Lined.cons_iff.2 ⟨ts.flatMap frame, ?_, hlined⟩, ?_⟩
    · rw [Line.segment_ofSegment, List.flatMap_cons, frame, List.append_assoc]
      rfl
    · rw [List.map_cons, ← htokens, ← Line.text_ofSegment ht]
      rfl

/-- The bytes with a carriage return before each line feed. -/
def withReturns (bytes : List UInt8) : List UInt8 :=
  bytes.flatMap fun b => if b = lineFeed then [carriageReturn, lineFeed] else [b]

theorem withReturns_of_not_mem {bytes : List UInt8} (h : lineFeed ∉ bytes) :
    withReturns bytes = bytes := by
  induction bytes with
  | nil => rfl
  | cons b bytes ih =>
    rw [List.mem_cons, not_or] at h
    rw [withReturns, List.flatMap_cons, if_neg (Ne.symm h.1)]
    exact congrArg (b :: ·) (ih h.2)

theorem withReturns_frames {ts : List Token} (h : ∀ t ∈ ts, lineFeed ∉ t) :
    withReturns (ts.flatMap frame) = (ts.map (· ++ [carriageReturn])).flatMap frame := by
  induction ts with
  | nil => rfl
  | cons t ts ih =>
    obtain ⟨ht, hts⟩ := List.forall_mem_cons.1 h
    have hframe : withReturns (frame t) = frame (t ++ [carriageReturn]) := by
      rw [frame, withReturns, List.flatMap_append, ← withReturns, withReturns_of_not_mem ht,
        frame, List.append_assoc]
      rfl
    rw [List.flatMap_cons, withReturns, List.flatMap_append, ← withReturns, ← withReturns, hframe,
      ih hts, List.map_cons, List.flatMap_cons]

namespace LineLink

open Arrival

variable {near far : LineLink} {calls : List Call} {pieces : List (List UInt8)}

theorem finding_frames {ts : List Token} (h : ∀ t ∈ ts, lineFeed ∉ t)
    (hcut : Cut (ts.flatMap frame) pieces) (hfar : far.source = .ofPieces pieces)
    (calls : List Call) :
    machine.log finding calls far = looks (calls.count .receive) (ts.map chomp) := by
  obtain ⟨lines, hlined, htokens⟩ := exists_lined_frames h
  rw [finding_of_lined (hfar ▸ Source.gives_ofPieces hcut) hlined, htokens]

/-- The tokens that a link accepts are found, each once and in their order, at a link that reads
    what the first one writes, and then the end. A carriage return at the end of a token is lost:
    tokens are found as they were sent just if none of them has one. -/
theorem finds_accepted (hfresh : near.sink.taken = [])
    (haccepted : ∀ r ∈ machine.log sending calls near, r = .ok ())
    (hcut : Cut (machine.run calls near).sink.taken pieces)
    (hfar : far.source = .ofPieces pieces) :
    (∀ looking, machine.log finding looking far =
        looks (looking.count .receive) ((calls.filterMap Call.token?).map chomp)) ∧
      ((∀ looking, machine.log finding looking far =
          looks (looking.count .receive) (calls.filterMap Call.token?)) ↔
        ∀ t ∈ calls.filterMap Call.token?, t.getLast? ≠ some carriageReturn) := by
  obtain ⟨hfeeds, htaken⟩ := taken_run haccepted
  rw [hfresh, List.nil_append] at htaken
  rw [htaken] at hcut
  have hfinds := finding_frames hfeeds hcut hfar
  refine ⟨hfinds, Iff.trans ⟨fun hsame => ?_, fun hsame looking => ?_⟩ map_chomp_eq_self_iff⟩
  · -- As many looks as there are tokens tell all of them.
    have hlooks := hsame (List.replicate (calls.filterMap Call.token?).length .receive)
    rw [hfinds, List.count_replicate_self, looks_length, ← List.length_map chomp, looks_length]
      at hlooks
    exact List.map_injective_iff.2 (fun _ _ => Arrival.token.inj) hlooks
  · rw [hfinds, hsame]

/-- An empty token, one with a carriage return inside it and one that ends with two. -/
theorem finds_accepted_returns :
    let near : LineLink := { id := ⟨1⟩, sink := { chunk := some 2, room := some 10 } }
    let calls : List Call :=
      [.send [], .receive, .send [0x44, 0x0D, 0x44], .send [0x0D, 0x0D], .close]
    let pieces : List (List UInt8) := [[0x0A, 0x44], [0x0D], [0x44, 0x0A, 0x0D, 0x0D], [0x0A]]
    let far : LineLink := { id := ⟨2⟩, source := .ofPieces pieces }
    near.sink.taken = [] ∧ (∀ r ∈ machine.log sending calls near, r = .ok ()) ∧
      Cut (machine.run calls near).sink.taken pieces ∧
      machine.log finding (List.replicate 4 .receive) far =
        [.token [], .token [0x44, 0x0D, 0x44], .token [0x0D], .ended] := by
  intro near calls pieces far
  have haccepted : ∀ r ∈ machine.log sending calls near, r = .ok () := by decide
  have hcut : Cut (machine.run calls near).sink.taken pieces := ⟨by decide, by decide⟩
  refine ⟨rfl, haccepted, hcut, ?_⟩
  exact (finds_accepted rfl haccepted hcut rfl).1 _

/-- The carriage return at the end of a token that was accepted is not found at the other link. -/
theorem return_lost :
    let near : LineLink := { id := ⟨1⟩ }
    let calls : List Call := [.send [0x44, 0x0D]]
    let pieces : List (List UInt8) := [[0x44, 0x0D, 0x0A]]
    let far : LineLink := { id := ⟨2⟩, source := .ofPieces pieces }
    machine.log sending calls near = [.ok ()] ∧ Cut (machine.run calls near).sink.taken pieces ∧
      machine.log finding [.receive] far = [.token [0x44]] ∧
      machine.log finding [.receive] far ≠ looks 1 (calls.filterMap Call.token?) :=
  ⟨by decide, ⟨by decide, by decide⟩, by decide, by decide⟩

end LineLink

/-! ### Messages -/

theorem Digit.visible_toChar (d : Digit) : 0x20 < d.toChar.toNat := by
  revert d
  decide

namespace Message

/-- A message is written in visible characters. -/
theorem visible_wire (m : Message) : ∀ c ∈ m.wire, 0x20 < c.toNat := by
  cases m <;>
    simp [wire, kind, payload, Cell.wire, terminator, Kind.identifier, Digit.visible_toChar] <;>
    decide

theorem visible_bytes (m : Message) : ∀ b ∈ m.bytes, 0x20 < b.toNat := by
  intro b hb
  obtain ⟨c, hc, hb⟩ := List.mem_flatMap.1 hb
  rw [Utf8.encodeChar_of_isAscii (m.isAscii_wire c hc), List.mem_singleton] at hb
  have hsmall : c.val.toNat < 2 ^ 8 := Nat.lt_trans (m.isAscii_wire c hc) (by decide)
  rw [hb, UInt32.toNat_toUInt8, Nat.mod_eq_of_lt hsmall]
  exact m.visible_wire c hc

theorem lineFeed_not_mem_bytes (m : Message) : lineFeed ∉ m.bytes :=
  fun h => absurd (m.visible_bytes _ h) (by decide)

theorem getLast?_bytes_ne (m : Message) : m.bytes.getLast? ≠ some carriageReturn :=
  fun h => absurd (m.visible_bytes _ (List.mem_of_getLast? h)) (by decide)

end Message

/-- The message of a token that was found. -/
def Arrival.classified? : Arrival → Option (Except MessageError Message)
  | .token t => some (classifyBytes t)
  | .ended | .pending | .failed _ | .crashed => none

theorem Arrival.classified_looks (n : Nat) (ms : List Message) :
    (looks n (ms.map Message.bytes)).filterMap classified? = (ms.take n).map .ok := by
  induction n generalizing ms with
  | zero => rfl
  | succ n ih =>
    cases ms with
    | nil => exact (ih []).trans (by rw [List.take_nil, List.take_nil])
    | cons m ms =>
      rw [List.map_cons, looks, List.take_succ_cons, List.map_cons, ← ih ms]
      exact congrArg (· :: _) m.classifyBytes_bytes

namespace LineLink

open Arrival

variable {near far : LineLink} {calls : List Call} {pieces : List (List UInt8)}

theorem filterMap_token?_map_send (ts : List Token) :
    (ts.map Call.send).filterMap Call.token? = ts := by
  rw [List.filterMap_map]
  exact List.filterMap_some

/-- Tokens without line feeds, none with a carriage return at its end, are found as they are,
    whether their lines end with line feeds or with carriage returns and line feeds. -/
theorem finding_frames_of_ends {ts : List Token} {stream : List UInt8}
    (hfeeds : ∀ t ∈ ts, lineFeed ∉ t) (hends : ∀ t ∈ ts, t.getLast? ≠ some carriageReturn)
    (hstream : stream = ts.flatMap frame ∨ stream = withReturns (ts.flatMap frame))
    (hcut : Cut stream pieces) (hfar : far.source = .ofPieces pieces) (calls : List Call) :
    machine.log finding calls far = looks (calls.count .receive) ts := by
  rcases hstream with rfl | rfl
  · rw [finding_frames hfeeds hcut hfar, map_chomp_eq_self_iff.2 hends]
  · -- On the way each token has got a carriage return at its end, and loses it where it is found.
    rw [withReturns_frames hfeeds] at hcut
    have hreturns : ∀ t ∈ ts.map (· ++ [carriageReturn]), lineFeed ∉ t := by
      refine List.forall_mem_map.2 fun t ht => ?_
      rw [List.mem_append, not_or]
      exact ⟨hfeeds t ht, by decide⟩
    rw [finding_frames hreturns hcut hfar, List.map_map]
    congr 1
    exact (List.map_congr_left fun t _ => chomp_append_return t).trans (List.map_id ts)

/-- The tokens of messages are all accepted by a link that is open and has room for them. A link
    that reads what the first one writes finds just these messages in their order, and then the
    end, also if a carriage return has come before each line feed on the way. -/
theorem finds_messages {ms : List Message} (hfresh : near.sink.taken = [])
    (hopen : near.writable = true)
    (hroom : near.sink.Roomy (ms.flatMap fun m => frame m.bytes).length)
    (hflush : near.sink.flushFault = none) (hcalls : calls = ms.map fun m => .send m.bytes) :
    machine.log sending calls near = ms.map (fun _ => .ok ()) ∧
      ∀ stream, stream = (machine.run calls near).sink.taken ∨
          stream = withReturns (machine.run calls near).sink.taken →
        ∀ pieces, Cut stream pieces → ∀ far : LineLink, far.source = .ofPieces pieces →
          ∀ looking, machine.log finding looking far =
              looks (looking.count .receive) (ms.map Message.bytes) ∧
            (machine.log finding looking far).filterMap classified? =
              (ms.take (looking.count .receive)).map .ok := by
  have hfeeds : ∀ t ∈ ms.map Message.bytes, lineFeed ∉ t :=
    List.forall_mem_map.2 fun m _ => m.lineFeed_not_mem_bytes
  have hends : ∀ t ∈ ms.map Message.bytes, t.getLast? ≠ some carriageReturn :=
    List.forall_mem_map.2 fun m _ => m.getLast?_bytes_ne
  have hsend : calls = (ms.map Message.bytes).map .send := by rw [hcalls, List.map_map]; rfl
  rw [← List.flatMap_map] at hroom
  have hsends : machine.log sending calls near = ms.map fun _ => .ok () := by
    rw [hsend, sending_of_roomy hfeeds hopen hroom hflush, List.map_map]
    rfl
  have haccepted : ∀ r ∈ machine.log sending calls near, r = .ok () := by
    rw [hsends]
    exact List.forall_mem_map.2 fun _ _ => rfl
  have htaken : (machine.run calls near).sink.taken = (ms.map Message.bytes).flatMap frame := by
    rw [(taken_run haccepted).2, hfresh, List.nil_append, hsend, filterMap_token?_map_send]
  refine ⟨hsends, fun stream hstream pieces hcut far hfar looking => ?_⟩
  rw [htaken] at hstream
  have hfinds := finding_frames_of_ends hfeeds hends hstream hcut hfar looking
  refine ⟨hfinds, ?_⟩
  rw [hfinds, classified_looks]

/-- Two messages, written three bytes at a time, whose lines come to end otherwise on the way. -/
theorem finds_messages_returns :
    let near : LineLink := { id := ⟨1⟩, sink := { chunk := some 3, room := some 8 } }
    let ms : List Message := [.finish, .movement .right .advance]
    let calls : List Call := ms.map fun m => .send m.bytes
    let pieces : List (List UInt8) :=
      [[0x45], [0x23, 0x0D], [0x0A, 0x4D, 0x23, 0x31, 0x30, 0x0D, 0x0A]]
    let far : LineLink := { id := ⟨2⟩, source := .ofPieces pieces }
    near.sink.Roomy (ms.flatMap fun m => frame m.bytes).length ∧
      Cut (withReturns (machine.run calls near).sink.taken) pieces ∧
      (machine.log finding (List.replicate 3 .receive) far).filterMap classified? =
        ms.map .ok := by
  intro near ms calls pieces far
  have hroom : near.sink.Roomy (ms.flatMap fun m => frame m.bytes).length := by
    refine ⟨by decide, fun room h => ?_⟩
    cases h
    decide
  have hcut : Cut (withReturns (machine.run calls near).sink.taken) pieces :=
    ⟨by decide, by decide⟩
  have hfresh : near.sink.taken = [] := rfl
  have hcalls : calls = ms.map fun m => .send m.bytes := rfl
  obtain ⟨-, hfinds⟩ := finds_messages hfresh rfl hroom rfl hcalls
  exact ⟨hroom, hcut, (hfinds _ (.inr rfl) pieces hcut far rfl _).2⟩

end LineLink

end GridRobot
