import GridRobot.Proofs.Line.Run
import Mathlib.Data.List.Basic

/-!
# The lines of a stream

Bytes are made of lines and of what stands after the last of them (`Lined`). A
line ends with a line feed, or with a carriage return and a line feed, so that
a carriage return just before a line feed is never part of the text of a line.

* `exists_lined`, `Lined.unique`: all bytes are made of lines in one way;
* `LineLink.finding_of_lined`: a link whose stream gives the bytes, in whatever
  pieces, finds the texts of the lines, then what stands after them unless that
  is nothing, and then the end;
* `LineLink.finds_lines`: both together.
-/

namespace GridRobot

/-! ### Lines -/

theorem chomp_append_return (t : Token) : chomp (t ++ [carriageReturn]) = t := by
  rw [chomp, if_pos List.getLast?_concat, List.dropLast_concat]

/-- What a line ends with. -/
inductive LineEnd
  | feed
  | returnFeed
  deriving DecidableEq

/-- The bytes that end a line. -/
def LineEnd.bytes : LineEnd → List UInt8
  | feed => [lineFeed]
  | returnFeed => [carriageReturn, lineFeed]

/-- A text and what ends it. A carriage return just before the line feed belongs to the end. -/
structure Line where
  text : Token
  ending : LineEnd
  feedless : lineFeed ∉ text
  whole : ending = .feed → text.getLast? ≠ some carriageReturn

namespace Line

variable {l l' : Line} {s : List UInt8}

/-- The bytes of a line in the stream. -/
def bytes (l : Line) : List UInt8 := l.text ++ l.ending.bytes

/-- What stands before the line feed. -/
def segment (l : Line) : List UInt8 :=
  match l.ending with
  | .feed => l.text
  | .returnFeed => l.text ++ [carriageReturn]

theorem bytes_eq_segment_append (l : Line) : l.bytes = l.segment ++ [lineFeed] := by
  rw [bytes, segment]
  cases l.ending with
  | feed => rfl
  | returnFeed => exact (List.append_assoc l.text [carriageReturn] [lineFeed]).symm

theorem feedless_segment (l : Line) : lineFeed ∉ l.segment := by
  rw [segment]
  split
  · exact l.feedless
  · rw [List.mem_append, not_or]
    exact ⟨l.feedless, by decide⟩

theorem chomp_segment (l : Line) : chomp l.segment = l.text := by
  rw [segment]
  split
  · next h => rw [chomp, if_neg (l.whole h)]
  · exact chomp_append_return _

/-- The line that has `s` before its line feed. -/
def ofSegment (s : List UInt8) (h : lineFeed ∉ s) : Line :=
  if hreturn : s.getLast? = some carriageReturn then
    { text := s.dropLast
      ending := .returnFeed
      feedless := fun hmem => h (List.dropLast_subset s hmem)
      whole := nofun }
  else { text := s, ending := .feed, feedless := h, whole := fun _ => hreturn }

theorem segment_ofSegment (h : lineFeed ∉ s) : (ofSegment s h).segment = s := by
  rw [ofSegment]
  split
  · next hreturn => exact List.dropLast_append_getLast? _ hreturn
  · rfl

theorem text_ofSegment (h : lineFeed ∉ s) : (ofSegment s h).text = chomp s := by
  rw [← chomp_segment, segment_ofSegment]

theorem eq_of_segment_eq (h : l.segment = l'.segment) : l = l' := by
  have htext : l.text = l'.text := by rw [← l.chomp_segment, h, l'.chomp_segment]
  have hending : l.ending = l'.ending := by
    rw [segment, segment, htext] at h
    cases hl : l.ending with
    | feed =>
      cases hl' : l'.ending with
      | feed => rfl
      | returnFeed =>
        rw [hl, hl'] at h
        exact absurd (List.self_eq_append_right.1 h) (List.cons_ne_nil _ _)
    | returnFeed =>
      cases hl' : l'.ending with
      | feed =>
        rw [hl, hl'] at h
        exact absurd (List.append_right_eq_self.1 h) (List.cons_ne_nil _ _)
      | returnFeed => rfl
  cases l
  cases l'
  cases htext
  cases hending
  rfl

end Line

/-! ### The first line -/

theorem splitLine?_eq_none {bytes : List UInt8} (h : lineFeed ∉ bytes) :
    splitLine? bytes = none := by
  induction bytes with
  | nil => rfl
  | cons b bytes ih =>
    rw [List.mem_cons, not_or] at h
    rw [splitLine?, if_neg (Ne.symm h.1), ih h.2, Option.map_none]

theorem splitLine?_eq_some {segment : List UInt8} (h : lineFeed ∉ segment) (after : List UInt8) :
    splitLine? (segment ++ lineFeed :: after) = some (segment, after) := by
  induction segment with
  | nil => rfl
  | cons b segment ih =>
    rw [List.mem_cons, not_or] at h
    rw [List.cons_append, splitLine?, if_neg (Ne.symm h.1), ih h.2, Option.map_some]

/-! ### Bytes made of lines -/

/-- The bytes are those of the lines, then `rest`, in which no line ends. -/
structure Lined (bytes : List UInt8) (lines : List Line) (rest : Token) : Prop where
  eq_append : bytes = lines.flatMap Line.bytes ++ rest
  feedless : lineFeed ∉ rest

/-- The texts of lines, then what stands after them, unless that is nothing. -/
def tokensOfLines (lines : List Line) (rest : Token) : List Token :=
  lines.map Line.text ++ if rest = [] then [] else [rest]

namespace Lined

variable {bytes rest rest' after : List UInt8} {line : Line} {lines lines' : List Line}

theorem nil_iff : Lined bytes [] rest ↔ bytes = rest ∧ lineFeed ∉ rest :=
  ⟨fun h => ⟨h.eq_append, h.feedless⟩, fun h => ⟨h.1, h.2⟩⟩

theorem flatMap_cons_append (line : Line) (lines : List Line) (rest : Token) :
    (line :: lines).flatMap Line.bytes ++ rest =
      line.segment ++ lineFeed :: (lines.flatMap Line.bytes ++ rest) := by
  rw [List.flatMap_cons, line.bytes_eq_segment_append, List.append_assoc, List.append_assoc]
  rfl

theorem cons_iff : Lined bytes (line :: lines) rest ↔
    ∃ after, bytes = line.segment ++ lineFeed :: after ∧ Lined after lines rest := by
  constructor
  · rintro ⟨rfl, hrest⟩
    exact ⟨_, flatMap_cons_append line lines rest, rfl, hrest⟩
  · rintro ⟨after, rfl, rfl, hrest⟩
    exact ⟨(flatMap_cons_append line lines rest).symm, hrest⟩

theorem splitLine?_of_nil (h : Lined bytes [] rest) : splitLine? bytes = none := by
  obtain ⟨rfl, hrest⟩ := nil_iff.1 h
  exact splitLine?_eq_none hrest

/-- Bytes are made of lines in one way only. -/
theorem unique (h : Lined bytes lines rest) (h' : Lined bytes lines' rest') :
    lines = lines' ∧ rest = rest' := by
  -- Where the first line ends is seen from the bytes alone.
  induction lines generalizing bytes lines' with
  | nil =>
    have hsplit := h.splitLine?_of_nil
    cases lines' with
    | nil => exact ⟨rfl, (nil_iff.1 h).1.symm.trans (nil_iff.1 h').1⟩
    | cons line' lines' =>
      obtain ⟨after', rfl, -⟩ := cons_iff.1 h'
      rw [splitLine?_eq_some line'.feedless_segment] at hsplit
      cases hsplit
  | cons line lines ih =>
    obtain ⟨after, rfl, hafter⟩ := cons_iff.1 h
    have hsplit := splitLine?_eq_some line.feedless_segment after
    cases lines' with
    | nil =>
      rw [h'.splitLine?_of_nil] at hsplit
      cases hsplit
    | cons line' lines' =>
      obtain ⟨after', hbytes, hafter'⟩ := cons_iff.1 h'
      rw [hbytes, splitLine?_eq_some line'.feedless_segment] at hsplit
      injection hsplit with hpair
      obtain ⟨hsegment, rfl⟩ := Prod.mk.inj hpair
      obtain ⟨rfl, rfl⟩ := ih hafter hafter'
      exact ⟨by rw [Line.eq_of_segment_eq hsegment], rfl⟩

end Lined

/-- All bytes are made of lines. -/
theorem exists_lined (bytes : List UInt8) : ∃ lines rest, Lined bytes lines rest := by
  -- What stands after the first line is shorter, though by more than one byte.
  induction hn : bytes.length using Nat.strongRecOn generalizing bytes with
  | ind n ih =>
    by_cases hfeed : lineFeed ∈ bytes
    · obtain ⟨segment, after, rfl, hsegment⟩ := List.eq_append_cons_of_mem hfeed
      rw [List.length_append, List.length_cons] at hn
      obtain ⟨lines, rest, hafter⟩ := ih after.length (by omega) after rfl
      refine ⟨Line.ofSegment segment hsegment :: lines, rest, Lined.cons_iff.2 ⟨after, ?_, hafter⟩⟩
      rw [Line.segment_ofSegment]
    · exact ⟨[], bytes, Lined.nil_iff.2 ⟨rfl, hfeed⟩⟩

/-! ### Reading a line -/

/-- The bytes cut into pieces, none of which is empty. -/
structure Cut (bytes : List UInt8) (pieces : List (List UInt8)) : Prop where
  flatten_eq : pieces.flatten = bytes
  ne_nil : ∀ piece ∈ pieces, piece ≠ []

namespace Source

/-- The stream that is read piece by piece and then ends. -/
def ofPieces (pieces : List (List UInt8)) : Source := { reads := pieces.map .bytes }

/-- What is still to be read of the stream, in whatever pieces, is the bytes. -/
def Gives (s : Source) (bytes : List UInt8) : Prop :=
  ∃ (buffer : List UInt8) (pieces : List (List UInt8)),
    s = { reads := pieces.map .bytes, buffer } ∧
      (∀ piece ∈ pieces, piece ≠ []) ∧ buffer ++ pieces.flatten = bytes

/-- What is still to be read of the stream up to `later`, in whatever pieces, is the bytes. -/
def Brings (s : Source) (bytes : List UInt8) (later : List Read) : Prop :=
  ∃ (buffer : List UInt8) (pieces : List (List UInt8)),
    s = { reads := pieces.map .bytes ++ later, buffer } ∧
      (∀ piece ∈ pieces, piece ≠ []) ∧ buffer ++ pieces.flatten = bytes

variable {s : Source} {bytes segment after line buffer : List UInt8} {pieces : List (List UInt8)}
  {later : List Read}

theorem gives_iff : s.Gives bytes ↔ s.Brings bytes [] := by
  simp only [Gives, Brings, List.append_nil]

theorem gives_ofPieces (h : Cut bytes pieces) : (ofPieces pieces).Gives bytes :=
  ⟨[], pieces, rfl, h.ne_nil, h.flatten_eq⟩

theorem next_of_some {rest more : List UInt8} (hsplit : splitLine? buffer = some (rest, more))
    (live : Bool) (line : List UInt8) (reads : List Read) :
    next live line buffer reads =
      (.token (chomp (line ++ rest)), { reads, live, buffer := more }) := by
  cases reads <;> simp only [next.eq_def, hsplit]

theorem next_bytes_of_none {piece : List UInt8} (hsplit : splitLine? buffer = none)
    (hpiece : piece ≠ []) (live : Bool) (line : List UInt8) (reads : List Read) :
    next live line buffer (.bytes piece :: reads) = next live (line ++ buffer) piece reads := by
  rw [next.eq_def]
  cases piece with
  | nil => exact absurd rfl hpiece
  | cons b piece => simp only [hsplit]

theorem next_nil_of_none (hsplit : splitLine? buffer = none) (line : List UInt8) :
    next false line buffer [] = (atEnd (line ++ buffer), {}) := by
  simp only [next, hsplit, Bool.false_eq_true, if_false]

/-- A line that ends in the buffer is put together without a read. -/
theorem next_of_mem_buffer {later : List UInt8} (hbuffer : lineFeed ∈ buffer)
    (hline : lineFeed ∉ line) (hsegment : lineFeed ∉ segment)
    (hbytes : line ++ (buffer ++ later) = segment ++ lineFeed :: after) (live : Bool)
    (reads : List Read) :
    ∃ more, next live line buffer reads =
        (.token (chomp segment), { reads, live, buffer := more }) ∧ more ++ later = after := by
  obtain ⟨rest, more, rfl, hrest⟩ := List.eq_append_cons_of_mem hbuffer
  have hfirst : lineFeed ∉ line ++ rest := by
    rw [List.mem_append, not_or]
    exact ⟨hline, hrest⟩
  -- Both sides are cut at their first line feed.
  have hsame := congrArg splitLine? hbytes
  rw [List.append_assoc, ← List.append_assoc, List.cons_append, splitLine?_eq_some hfirst,
    splitLine?_eq_some hsegment] at hsame
  injection hsame with hpair
  obtain ⟨rfl, rfl⟩ := Prod.mk.inj hpair
  exact ⟨more, next_of_some (splitLine?_eq_some hrest more) .., rfl⟩

/-- A buffer without a line feed goes to what was read of the line. -/
theorem next_of_not_mem_buffer (hbuffer : lineFeed ∉ buffer) (line : List UInt8)
    (reads : List Read) : next false line buffer reads = next false (line ++ buffer) [] reads := by
  have hsplit := splitLine?_eq_none hbuffer
  have hnil : splitLine? [] = none := rfl
  cases reads with
  | nil => rw [next_nil_of_none hsplit, next_nil_of_none hnil, List.append_nil]
  | cons read reads =>
    rw [next.eq_def, next.eq_def false (line ++ buffer)]
    simp only [hsplit, hnil, List.append_nil]

/-- A line is put together of what was read of it before and what the pieces bring. -/
theorem next_of_lineFeed (hne : ∀ piece ∈ pieces, piece ≠ []) (hline : lineFeed ∉ line)
    (hsegment : lineFeed ∉ segment)
    (hbytes : line ++ (buffer ++ pieces.flatten) = segment ++ lineFeed :: after)
    (later : List Read) :
    ∃ s : Source, next false line buffer (pieces.map .bytes ++ later) =
        (.token (chomp segment), s) ∧ s.Brings after later := by
  -- A buffer without a line feed goes to what was read of the line, and the next piece replaces it.
  induction pieces generalizing line buffer with
  | nil =>
    have hbuffer : lineFeed ∈ buffer := by
      rw [List.flatten_nil, List.append_nil] at hbytes
      have hmem : lineFeed ∈ line ++ buffer := hbytes ▸ List.mem_append_right _ List.mem_cons_self
      exact (List.mem_append.1 hmem).resolve_left hline
    obtain ⟨more, hnext, hmore⟩ := next_of_mem_buffer hbuffer hline hsegment hbytes false later
    exact ⟨_, hnext, more, [], rfl, hne, hmore⟩
  | cons piece pieces ih =>
    by_cases hbuffer : lineFeed ∈ buffer
    · obtain ⟨more, hnext, hmore⟩ := next_of_mem_buffer hbuffer hline hsegment hbytes false _
      exact ⟨_, hnext, more, piece :: pieces, rfl, hne, hmore⟩
    · obtain ⟨hpiece, hpieces⟩ := List.forall_mem_cons.1 hne
      rw [List.map_cons, List.cons_append,
        next_bytes_of_none (splitLine?_eq_none hbuffer) hpiece]
      rw [← List.append_assoc] at hbytes
      refine ih hpieces ?_ hbytes
      rw [List.mem_append, not_or]
      exact ⟨hline, hbuffer⟩

/-- Without a line feed, everything that the pieces bring goes to what was read of the line. -/
theorem next_of_not_lineFeed (hne : ∀ piece ∈ pieces, piece ≠ [])
    (hbytes : lineFeed ∉ buffer ++ pieces.flatten) (later : List Read) :
    next false line buffer (pieces.map .bytes ++ later) =
      next false (line ++ (buffer ++ pieces.flatten)) [] later := by
  induction pieces generalizing line buffer with
  | nil =>
    rw [List.flatten_nil, List.append_nil] at hbytes ⊢
    exact next_of_not_mem_buffer hbytes line later
  | cons piece pieces ih =>
    obtain ⟨hpiece, hpieces⟩ := List.forall_mem_cons.1 hne
    rw [List.mem_append, not_or] at hbytes
    rw [List.map_cons, List.cons_append,
      next_bytes_of_none (splitLine?_eq_none hbytes.1) hpiece, ih hpieces hbytes.2,
      List.append_assoc]
    rfl

theorem Brings.line_of_lineFeed (h : s.Brings (segment ++ lineFeed :: after) later)
    (hsegment : lineFeed ∉ segment) : ∃ s' : Source, s.line = (.token (chomp segment), s') ∧
      s'.Brings after later := by
  obtain ⟨buffer, pieces, rfl, hne, hbytes⟩ := h
  exact next_of_lineFeed hne List.not_mem_nil hsegment hbytes later

theorem Brings.line_of_not_lineFeed (h : s.Brings bytes later) (hbytes : lineFeed ∉ bytes) :
    s.line = next false bytes [] later := by
  obtain ⟨buffer, pieces, rfl, hne, rfl⟩ := h
  exact next_of_not_lineFeed hne hbytes later

theorem Gives.line_of_lineFeed (h : s.Gives (segment ++ lineFeed :: after))
    (hsegment : lineFeed ∉ segment) : ∃ s' : Source, s.line = (.token (chomp segment), s') ∧
      s'.Gives after := by
  simp only [gives_iff] at h ⊢
  exact h.line_of_lineFeed hsegment

theorem Gives.line_of_not_lineFeed (h : s.Gives bytes) (hbytes : lineFeed ∉ bytes) :
    s.line = (atEnd bytes, {}) := by
  rw [(gives_iff.1 h).line_of_not_lineFeed hbytes, next_nil_of_none rfl, List.append_nil]

theorem gives_nil : ({} : Source).Gives [] :=
  ⟨[], [], rfl, List.forall_mem_nil _, rfl⟩

end Source

/-! ### What a link finds -/

namespace LineLink

open Arrival

variable {l : LineLink} {bytes rest : List UInt8} {lines : List Line}

/-- A look takes the first line, or what stands after the lines, or finds the end. -/
theorem receive_of_lined (hgives : l.source.Gives bytes) (h : Lined bytes lines rest) :
    ∃ bytes' lines' rest', l.receive.2.source.Gives bytes' ∧ Lined bytes' lines' rest' ∧
      ∀ n, looks (n + 1) (tokensOfLines lines rest) =
        l.receive.1 :: looks n (tokensOfLines lines' rest') := by
  rw [receive]
  cases lines with
  | cons line lines =>
    obtain ⟨after, rfl, hafter⟩ := Lined.cons_iff.1 h
    obtain ⟨s, hline, hs⟩ := hgives.line_of_lineFeed line.feedless_segment
    rw [hline, line.chomp_segment]
    exact ⟨after, lines, rest, hs, hafter, fun n => rfl⟩
  | nil =>
    obtain ⟨rfl, hrest⟩ := Lined.nil_iff.1 h
    rw [hgives.line_of_not_lineFeed hrest, Source.atEnd, tokensOfLines]
    refine ⟨[], [], [], Source.gives_nil, Lined.nil_iff.2 ⟨rfl, List.not_mem_nil⟩, fun n => ?_⟩
    split <;> rfl

/-- Looks at a link find the tokens of the lines of its stream, and then the end, whatever else the
    link is asked to do meanwhile. -/
theorem finding_of_lined (hgives : l.source.Gives bytes) (h : Lined bytes lines rest)
    (calls : List Call) :
    machine.log finding calls l = looks (calls.count .receive) (tokensOfLines lines rest) := by
  -- Only looks move on in the stream; what is still to be read is made of the lines still to come.
  induction calls generalizing l bytes lines rest with
  | nil => rfl
  | cons call calls ih =>
    rw [Machine.log_cons]
    cases call with
    | send t =>
      rw [List.count_cons_of_ne (show Call.send t ≠ .receive from nofun)]
      exact ih (l := (l.send t).2) ((source_send t l).symm ▸ hgives) h
    | close =>
      rw [List.count_cons_of_ne (show Call.close ≠ .receive from nofun)]
      exact ih (l := l.close.2) ((source_close l).symm ▸ hgives) h
    | receive =>
      obtain ⟨bytes', lines', rest', hgives', h', hlooks⟩ := receive_of_lined hgives h
      rw [List.count_cons_self, hlooks]
      exact congrArg (l.receive.1 :: ·) (ih hgives' h')

/-- Bytes are made of lines in one way, and a link whose stream gives the bytes finds the texts of
    the lines, then what stands after them, if anything does, and then the end: in whatever pieces
    the bytes come, and whatever else the link is asked to do. -/
theorem finds_lines (bytes : List UInt8) :
    ∃ lines rest, Lined bytes lines rest ∧
      (∀ lines' rest', Lined bytes lines' rest' → lines' = lines ∧ rest' = rest) ∧
      ∀ pieces, Cut bytes pieces → ∀ l : LineLink, l.source = .ofPieces pieces →
        ∀ calls, machine.log finding calls l =
          looks (calls.count .receive) (tokensOfLines lines rest) := by
  obtain ⟨lines, rest, h⟩ := exists_lined bytes
  refine ⟨lines, rest, h, fun lines' rest' h' => h'.unique h, ?_⟩
  intro pieces hcut l hl calls
  exact finding_of_lined (hl ▸ Source.gives_ofPieces hcut) h calls

/-- Of two carriage returns before a line feed one is left, however the bytes are cut. -/
theorem finds_lines_returns :
    let bytes : List UInt8 := [0x44, 0x0D, 0x0D, 0x0A, 0x0A, 0x0D]
    let whole : List (List UInt8) := [bytes]
    let parts : List (List UInt8) := [[0x44, 0x0D], [0x0D], [0x0A, 0x0A], [0x0D]]
    let looking : List Call := List.replicate 5 .receive
    Cut bytes whole ∧ Cut bytes parts ∧
      machine.log finding looking { id := ⟨1⟩, source := .ofPieces parts } =
        machine.log finding looking { id := ⟨2⟩, source := .ofPieces whole } ∧
      machine.log finding looking { id := ⟨2⟩, source := .ofPieces whole } =
        [.token [0x44, 0x0D], .token [], .token [0x0D], .ended, .ended] := by
  intro bytes whole parts looking
  have hwhole : Cut bytes whole := ⟨by decide, by decide⟩
  have hparts : Cut bytes parts := ⟨by decide, by decide⟩
  obtain ⟨lines, rest, -, -, hfinds⟩ := finds_lines bytes
  refine ⟨hwhole, hparts, ?_, by decide⟩
  rw [hfinds parts hparts _ rfl, hfinds whole hwhole _ rfl]

end LineLink

end GridRobot
