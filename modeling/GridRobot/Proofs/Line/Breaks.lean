import GridRobot.Proofs.Line.Reading

/-!
# Reads that break off

A read that fails breaks off the line that is being put together, and so does a
read that gives no byte. Up to there and from there on the stream is read as if
there were nothing else (`LineLink.finding_stretch`): a fault is found in place
of what was read of the line, which is lost; a read without bytes ends it, as the
end of the stream does.

So what looks find falls into stretches (`Told`), and whatever the reads give, a
link finds just that, and then the end (`LineLink.finds_despite_breaks`).
-/

namespace GridRobot

/-- What breaks off a line: a read that gives no byte, or one that fails. -/
inductive Break
  | gap
  | fault (text : String)
  deriving DecidableEq

namespace Break

/-- The read that breaks off the line. -/
def read : Break → Read
  | gap => .bytes []
  | fault text => .fault text

/-- What a look finds that had put `part` together before. -/
def arrival (part : Token) : Break → Arrival
  | gap => Source.atEnd part
  | fault text => .failed (.receiveFailed text)

theorem read_ne_bytes {piece : List UInt8} (hpiece : piece ≠ []) (brk : Break) :
    brk.read ≠ .bytes piece := by
  cases brk with
  | gap => exact fun h => hpiece (Read.bytes.inj h).symm
  | fault text => exact fun h => by cases h

theorem read_inj {brk brk' : Break} (h : brk.read = brk'.read) : brk = brk' := by
  cases brk <;> cases brk' <;> cases h <;> rfl

end Break

/-- The fault of a read. -/
def Read.fault? : Read → Option String
  | .fault text => some text
  | .bytes _ => none

/-- The fault that was found. -/
def Arrival.fault? : Arrival → Option String
  | .failed (.receiveFailed text) => some text
  | _ => none

/-- What is found of a stream up to its end, if the reads give this: in each stretch the texts of
    its lines, and then what its end makes of the bytes after them. -/
inductive Told : List Read → List Arrival → Prop
  | last {bytes : List UInt8} {pieces : List (List UInt8)} {lines : List Line} {rest : Token}
    (hcut : Cut bytes pieces) (hlined : Lined bytes lines rest) :
    Told (pieces.map .bytes) ((tokensOfLines lines rest).map .token)
  | broken {bytes : List UInt8} {pieces : List (List UInt8)} {lines : List Line} {part : Token}
    {later : List Read} {found : List Arrival} (brk : Break) (hcut : Cut bytes pieces)
    (hlined : Lined bytes lines part) (h : Told later found) :
    Told (pieces.map .bytes ++ brk.read :: later)
      (lines.map (fun line => .token line.text) ++ brk.arrival part :: found)

/-! ### Stretches -/

theorem cut_flatten {pieces : List (List UInt8)} (h : ∀ piece ∈ pieces, piece ≠ []) :
    Cut pieces.flatten pieces := ⟨rfl, h⟩

/-- Either nothing breaks off a stream, or something does so first. -/
theorem exists_pieces (reads : List Read) : ∃ pieces : List (List UInt8),
    (∀ piece ∈ pieces, piece ≠ []) ∧ (reads = pieces.map .bytes ∨
      ∃ (brk : Break) (later : List Read), reads = pieces.map .bytes ++ brk.read :: later) := by
  induction reads with
  | nil => exact ⟨[], List.forall_mem_nil _, .inl rfl⟩
  | cons read reads ih =>
    obtain ⟨pieces, hne, hreads⟩ := ih
    match read with
    | .bytes [] => exact ⟨[], List.forall_mem_nil _, .inr ⟨.gap, reads, rfl⟩⟩
    | .fault text => exact ⟨[], List.forall_mem_nil _, .inr ⟨.fault text, reads, rfl⟩⟩
    | .bytes (b :: chunk) =>
      refine ⟨(b :: chunk) :: pieces, List.forall_mem_cons.2 ⟨List.cons_ne_nil b chunk, hne⟩, ?_⟩
      rcases hreads with rfl | ⟨brk, later, rfl⟩
      · exact .inl rfl
      · exact .inr ⟨brk, later, rfl⟩

theorem exists_told (reads : List Read) : ∃ found, Told reads found := by
  induction hn : reads.length using Nat.strongRecOn generalizing reads with
  | ind n ih =>
    obtain ⟨pieces, hne, hreads⟩ := exists_pieces reads
    obtain ⟨lines, rest, hlined⟩ := exists_lined pieces.flatten
    rcases hreads with rfl | ⟨brk, later, rfl⟩
    · exact ⟨_, .last (cut_flatten hne) hlined⟩
    · rw [List.length_append, List.length_cons] at hn
      obtain ⟨found, hfound⟩ := ih later.length (by omega) later rfl
      exact ⟨_, .broken brk (cut_flatten hne) hlined hfound⟩

theorem read_not_mem {pieces : List (List UInt8)} (hne : ∀ piece ∈ pieces, piece ≠ [])
    (brk : Break) : brk.read ∉ pieces.map Read.bytes := by
  intro hmem
  obtain ⟨piece, hpiece, hread⟩ := List.mem_map.1 hmem
  exact brk.read_ne_bytes (hne piece hpiece) hread.symm

/-- Where a stream is broken off for the first time is seen from the reads alone. -/
theorem pieces_unique {pieces pieces' : List (List UInt8)} {brk brk' : Break}
    {later later' : List Read} (hne : ∀ piece ∈ pieces, piece ≠ [])
    (hne' : ∀ piece ∈ pieces', piece ≠ [])
    (h : pieces.map .bytes ++ brk.read :: later = pieces'.map .bytes ++ brk'.read :: later') :
    pieces = pieces' ∧ brk = brk' ∧ later = later' := by
  induction pieces generalizing pieces' with
  | nil =>
    cases pieces' with
    | nil =>
      obtain ⟨hread, hlater⟩ := List.cons.inj h
      exact ⟨rfl, Break.read_inj hread, hlater⟩
    | cons piece' pieces' =>
      exact absurd (List.cons.inj h).1 (brk.read_ne_bytes (hne' piece' List.mem_cons_self))
  | cons piece pieces ih =>
    obtain ⟨hpiece, hpieces⟩ := List.forall_mem_cons.1 hne
    cases pieces' with
    | nil => exact absurd (List.cons.inj h).1.symm (brk'.read_ne_bytes hpiece)
    | cons piece' pieces' =>
      obtain ⟨hread, hrest⟩ := List.cons.inj h
      cases Read.bytes.inj hread
      obtain ⟨rfl, hends⟩ := ih hpieces (List.forall_mem_cons.1 hne').2 hrest
      exact ⟨rfl, hends⟩

theorem cut_unique {bytes bytes' : List UInt8} {pieces : List (List UInt8)} (h : Cut bytes pieces)
    (h' : Cut bytes' pieces) : bytes = bytes' :=
  h.flatten_eq.symm.trans h'.flatten_eq

/-- One thing is told of the reads. -/
theorem Told.unique {reads : List Read} {found found' : List Arrival} (h : Told reads found)
    (h' : Told reads found') : found' = found := by
  induction h generalizing found' with
  | @last bytes pieces lines rest hcut hlined =>
    generalize hreads : pieces.map Read.bytes = reads at h'
    cases h' with
    | last hcut' hlined' =>
      cases List.map_injective_iff.2 (fun _ _ => Read.bytes.inj) hreads
      cases cut_unique hcut hcut'
      obtain ⟨rfl, rfl⟩ := hlined.unique hlined'
      rfl
    | broken brk =>
      exact absurd (hreads ▸ List.mem_append_right _ List.mem_cons_self)
        (read_not_mem hcut.ne_nil brk)
  | @broken bytes pieces lines part later found brk hcut hlined h ih =>
    generalize hreads : pieces.map Read.bytes ++ brk.read :: later = reads at h'
    cases h' with
    | last hcut' hlined' =>
      exact absurd (hreads ▸ List.mem_append_right _ List.mem_cons_self)
        (read_not_mem hcut'.ne_nil brk)
    | broken brk' hcut' hlined' hrest =>
      obtain ⟨rfl, rfl, rfl⟩ := pieces_unique hcut.ne_nil hcut'.ne_nil hreads
      cases cut_unique hcut hcut'
      obtain ⟨rfl, rfl⟩ := hlined.unique hlined'
      rw [ih hrest]

theorem told_nil : Told [] [] := by
  have hcut : Cut [] [] := ⟨rfl, List.forall_mem_nil _⟩
  exact .last hcut (Lined.nil_iff.2 ⟨rfl, List.not_mem_nil⟩)

namespace LineLink

variable {l : LineLink} {bytes part : List UInt8} {lines : List Line} {later : List Read}
  {brk : Break}

/-! ### What looks find -/

/-- `n` looks and nothing else. -/
abbrev looking (n : Nat) : List Call := List.replicate n .receive

theorem looking_add (m n : Nat) : looking (m + n) = looking m ++ looking n := by
  rw [looking, List.replicate_add]

theorem length_finding (n : Nat) (l : LineLink) :
    (machine.log finding (looking n) l).length = n := by
  induction n generalizing l with
  | zero => rfl
  | succ n ih => exact congrArg (· + 1) (ih l.receive.2)

theorem finding_take {n m : Nat} (h : n ≤ m) (l : LineLink) :
    machine.log finding (looking n) l = (machine.log finding (looking m) l).take n := by
  obtain ⟨k, rfl⟩ := Nat.exists_eq_add_of_le h
  rw [looking_add, Machine.log_append, List.take_left' (length_finding n l)]

theorem next_break (part : Token) (brk : Break) (later : List Read) :
    Source.next false part [] (brk.read :: later) = (brk.arrival part, { reads := later }) := by
  cases brk with
  | gap => exact congrArg (Source.atEnd ·, _) (List.append_nil part)
  | fault text => rfl

/-- In a stretch the texts of its lines are found, and then what breaks it off. The looks after
    that are those at a fresh stream of the reads to come. -/
theorem finding_stretch (hbrings : l.source.Brings bytes (brk.read :: later))
    (h : Lined bytes lines part) :
    machine.log finding (looking (lines.length + 1)) l =
        lines.map (fun line => .token line.text) ++ [brk.arrival part] ∧
      (machine.run (looking (lines.length + 1)) l).source = { reads := later } := by
  induction lines generalizing l bytes with
  | nil =>
    obtain ⟨rfl, hpart⟩ := Lined.nil_iff.1 h
    have hline := hbrings.line_of_not_lineFeed hpart
    rw [next_break] at hline
    show [l.source.line.1] = [_] ∧ l.source.line.2 = _
    rw [hline]
    exact ⟨rfl, rfl⟩
  | cons line lines ih =>
    obtain ⟨after, rfl, hafter⟩ := Lined.cons_iff.1 h
    obtain ⟨s, hline, hs⟩ := hbrings.line_of_lineFeed line.feedless_segment
    have hreceive : l.receive = (.token line.text, { l with source := s }) := by
      rw [receive, hline, line.chomp_segment]
    obtain ⟨hlog, hsource⟩ := ih (l := { l with source := s }) hs hafter
    show l.receive.1 :: machine.log finding (looking (lines.length + 1)) l.receive.2 = _ ∧
      (machine.run (looking (lines.length + 1)) l.receive.2).source = _
    rw [hreceive]
    exact ⟨congrArg (_ :: ·) hlog, hsource⟩

/-- What is told of the reads is found, and then the end. -/
theorem finding_told {reads : List Read} {found : List Arrival} (h : Told reads found)
    (hl : l.source = { reads }) (n : Nat) :
    machine.log finding (looking (found.length + n)) l = found ++ List.replicate n .ended := by
  induction h generalizing l with
  | @last bytes pieces lines rest hcut hlined =>
    have hgives : l.source.Gives bytes := hl ▸ Source.gives_ofPieces hcut
    rw [finding_of_lined hgives hlined, List.count_replicate_self, List.length_map,
      Arrival.looks_add]
  | @broken bytes pieces lines part later found brk hcut hlined h ih =>
    have hbrings : l.source.Brings bytes (brk.read :: later) :=
      ⟨[], pieces, hl, hcut.ne_nil, hcut.flatten_eq⟩
    obtain ⟨hlog, hsource⟩ := finding_stretch hbrings hlined
    have hcount : (lines.map (fun line => Arrival.token line.text) ++
        brk.arrival part :: found).length + n = (lines.length + 1) + (found.length + n) := by
      rw [List.length_append, List.length_map, List.length_cons]
      omega
    rw [hcount, looking_add, Machine.log_append, hlog, ih hsource, List.append_assoc,
      List.append_assoc]
    rfl

/-- After the reads up to a break, the link is one that reads what comes later. -/
theorem finding_broken {reads before : List Read} {found : List Arrival} (h : Told reads found)
    (hreads : reads = before ++ [brk.read]) (hl : l.source = { reads := reads ++ later }) :
    machine.log finding (looking found.length) l = found ∧
      (machine.run (looking found.length) l).source = { reads := later } := by
  induction h generalizing l before with
  | @last bytes pieces lines rest hcut hlined =>
    -- The reads end with a break, which is no piece.
    exact absurd (hreads ▸ List.mem_concat_self) (read_not_mem hcut.ne_nil brk)
  | @broken bytes pieces lines part more found brk' hcut hlined h ih =>
    have hbrings : l.source.Brings bytes (brk'.read :: (more ++ later)) := by
      refine ⟨[], pieces, ?_, hcut.ne_nil, hcut.flatten_eq⟩
      rw [hl, List.append_assoc, List.cons_append]
    obtain ⟨hlog, hsource⟩ := finding_stretch hbrings hlined
    have hcount : (lines.map (fun line => Arrival.token line.text) ++
        brk'.arrival part :: found).length = (lines.length + 1) + found.length := by
      rw [List.length_append, List.length_map, List.length_cons]
      omega
    have hrest : machine.log finding (looking found.length)
          (machine.run (looking (lines.length + 1)) l) = found ∧
        (machine.run (looking found.length)
          (machine.run (looking (lines.length + 1)) l)).source = { reads := later } := by
      rcases List.eq_nil_or_concat more with rfl | ⟨more, read, rfl⟩
      · cases told_nil.unique h
        exact ⟨rfl, hsource⟩
      · rw [List.concat_eq_append] at hreads hsource ih
        rw [← List.cons_append, ← List.append_assoc] at hreads
        have hmore : more ++ [read] = more ++ [brk.read] := by
          rw [(List.append_inj' hreads rfl).2]
        exact ih hmore hsource
    rw [hcount, looking_add, Machine.log_append, Machine.run_append, hlog, hrest.1,
      List.append_assoc]
    exact ⟨rfl, hrest.2⟩

theorem filter_receive (calls : List Call) :
    calls.filter (· = .receive) = looking (calls.count .receive) := by
  rw [looking, ← List.filter_eq]

/-! ### Faults -/

theorem fault?_atEnd (part : Token) : (Source.atEnd part).fault? = none := by
  rw [Source.atEnd]
  split <;> rfl

/-- A look finds the first fault among the reads that it takes, and takes none after it. -/
theorem fault_next (live : Bool) (line buffer : List UInt8) (reads : List Read) :
    (Source.next live line buffer reads).1.fault?.toList ++
        (Source.next live line buffer reads).2.reads.filterMap Read.fault? =
      reads.filterMap Read.fault? := by
  induction reads generalizing line buffer with
  | nil =>
    rw [Source.next.eq_def]
    dsimp only
    split
    · rfl
    · split
      · rfl
      · rw [fault?_atEnd]
        rfl
  | cons read reads ih =>
    rw [Source.next.eq_def]
    dsimp only
    split
    · rfl
    · match read with
      | .bytes [] =>
        dsimp only
        rw [fault?_atEnd]
        rfl
      | .bytes (b :: chunk) => exact ih (line ++ buffer) (b :: chunk)
      | .fault text => rfl

/-- Each fault among the reads that were taken was found once, in their order. -/
theorem faults_run (calls : List Call) (l : LineLink) :
    (machine.log finding calls l).filterMap Arrival.fault? ++
        (machine.run calls l).source.reads.filterMap Read.fault? =
      l.source.reads.filterMap Read.fault? := by
  induction calls generalizing l with
  | nil => rfl
  | cons call calls ih =>
    rw [Machine.log_cons, Machine.run_cons, List.filterMap_append, List.append_assoc, ih]
    cases call with
    | send t => exact congrArg (·.reads.filterMap Read.fault?) (source_send t l)
    | close => exact congrArg (·.reads.filterMap Read.fault?) (source_close l)
    | receive =>
      have hline := fault_next l.source.live l.source.begun l.source.buffer l.source.reads
      refine Eq.trans (congrArg (· ++ _) ?_) hline
      show [l.source.line.1].filterMap Arrival.fault? = _
      rw [List.filterMap_cons, List.filterMap_nil]
      cases h : l.source.line.1.fault? <;> exact (congrArg Option.toList h).symm

/-! ### All together -/

/-- What a link of these reads finds when it is asked `calls`, if `found` is told of them. -/
structure ReadsOn (reads : List Read) (found : List Arrival) (l : LineLink)
    (calls : List Call) : Prop where
  /-- What is told of the reads is found in its order, and then the end. -/
  finds : machine.log finding calls l =
    (found ++ List.replicate (calls.count Call.receive) Arrival.ended).take
      (calls.count Call.receive)
  /-- Each fault that was met with was found once. -/
  faults : (machine.log finding calls l).filterMap Arrival.fault? ++
    (machine.run calls l).source.reads.filterMap Read.fault? = reads.filterMap Read.fault?
  /-- With the look that meets with a break, what is told of the reads up to there has been found,
      and the link is one that reads what comes later. -/
  afresh {before later : List Read} {brk : Break} {first : List Arrival}
    (hreads : reads = before ++ brk.read :: later) (hfirst : Told (before ++ [brk.read]) first)
    (hcount : calls.count Call.receive = first.length) :
    machine.log finding calls l = first ∧ (machine.run calls l).source = { reads := later }

/-- Whatever the reads of a stream give, one thing is told of them, and a link finds it, however
    often it looks and whatever else it is asked. -/
theorem finds_despite_breaks (reads : List Read) :
    ∃ found, Told reads found ∧ (∀ found', Told reads found' → found' = found) ∧
      ∀ l : LineLink, l.source = { reads } → ∀ calls, l.ReadsOn reads found calls := by
  obtain ⟨found, h⟩ := exists_told reads
  refine ⟨found, h, fun found' h' => h.unique h', fun l hl calls => ?_⟩
  have hcalls := finding_eq (l := l) rfl calls
  have hsource := source_run (l := l) rfl calls
  rw [filter_receive] at hcalls hsource
  constructor
  case finds =>
    rw [hcalls, finding_take (Nat.le_add_left _ found.length) l, finding_told h hl]
  case faults => rw [faults_run, hl]
  case afresh =>
    intro before later brk first hreads hfirst hcount
    have hl' : l.source = { reads := before ++ [brk.read] ++ later } := by
      rw [hl, hreads, List.append_assoc]
      rfl
    rw [hcalls, hsource, hcount]
    exact finding_broken hfirst rfl hl'

/-- A fault within a line, a read without bytes after a line and part of another one, and a line
    that is cut before its line feed. -/
theorem finds_despite_breaks_within_lines :
    let reads : List Read := [.bytes [0x44, 0x0D], .fault "noise", .bytes [0x0A, 0x45],
      .bytes [], .bytes [0x44, 0x0D], .bytes [0x0A, 0x0D]]
    let found : List Arrival := [.failed (.receiveFailed "noise"), .token [], .token [0x45],
      .token [0x44], .token [0x0D]]
    let l : LineLink := { id := ⟨1⟩, source := { reads } }
    Told reads found ∧ machine.log finding (looking 6) l = found ++ [.ended] ∧
      (machine.run (looking 1) l).source = { reads := reads.drop 2 } := by
  intro reads found l
  have hfault : Cut [0x44, 0x0D] [[0x44, 0x0D]] := ⟨rfl, by decide⟩
  have hlost : Lined [0x44, 0x0D] [] [0x44, 0x0D] := ⟨rfl, by decide⟩
  have hgap : Cut [0x0A, 0x45] [[0x0A, 0x45]] := ⟨rfl, by decide⟩
  have hended : Lined [0x0A, 0x45] [⟨[], .feed, by decide, by decide⟩] [0x45] := ⟨rfl, by decide⟩
  have hend : Cut [0x44, 0x0D, 0x0A, 0x0D] [[0x44, 0x0D], [0x0A, 0x0D]] := ⟨rfl, by decide⟩
  have hrest : Lined [0x44, 0x0D, 0x0A, 0x0D] [⟨[0x44], .returnFeed, by decide, by decide⟩]
    [0x0D] := ⟨rfl, by decide⟩
  have htold : Told reads found :=
    .broken (.fault "noise") hfault hlost (.broken .gap hgap hended (.last hend hrest))
  have hfirst : Told (reads.take 1 ++ [Break.read (.fault "noise")]) (found.take 1) :=
    .broken (.fault "noise") hfault hlost told_nil
  have hsplit : reads = reads.take 1 ++ Break.read (.fault "noise") :: reads.drop 2 := rfl
  obtain ⟨found', -, hunique, hreads⟩ := finds_despite_breaks reads
  obtain rfl := hunique found htold
  refine ⟨htold, (hreads l rfl (looking 6)).finds.trans (by decide), ?_⟩
  exact ((hreads l rfl (looking 1)).afresh hsplit hfirst rfl).2

end LineLink

end GridRobot
