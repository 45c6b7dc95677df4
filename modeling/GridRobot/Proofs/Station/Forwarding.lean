import GridRobot.Proofs.Station.Coupling

/-!
# What a bridge does to its link

A run of a coupling leaves a list of deeds: messages were published, wire forms
were handed to the link, which took or refused them, the reader failed, the link
was closed. Whatever the link is and whatever else happens to it, the wire forms
that were handed over are a beginning of those published, and no more are handed
over after a refusal; when the link is closed, all has been handed over that was
published before the bridge was asked to close, unless the link refused
something (`Forwards`).

The writer is the one to watch. As long as it goes on, what was published is
what was handed over, then what waits for it (`Coupling.Writing`); it ends with
the first refusal, or once it was asked to and nothing waits for it any more.
-/

namespace GridRobot

/-- What is done by and to a bridge. -/
inductive Deed
  /-- A message was published, with its wire form; `asked` tells whether the bridge had been asked
      to close by then. -/
  | published (wire : Token) (asked : Bool)
  /-- The writer handed a wire form to the link, which took or refused it. -/
  | sent (wire : Token) (result : Except LinkError Unit)
  /-- The reader ended with an error. -/
  | readFailed (e : LinkError)
  /-- The link was closed, with an outcome of its own, and the call that closes the bridge
      returned. -/
  | closed (closing result : Except LinkError Unit)

namespace Deed

/-- The link was closed. -/
def isClosed : Deed → Bool
  | closed _ _ => true
  | _ => false

/-- The wire form that was published. -/
def wire? : Deed → Option Token
  | published wire _ => some wire
  | _ => none

/-- The wire form that was published, if the bridge had not been asked to close by then. -/
def earlyWire? : Deed → Option Token
  | published wire false => some wire
  | _ => none

/-- The wire form that was handed to the link, and what the link said to it. -/
def send? : Deed → Option (Token × Except LinkError Unit)
  | sent wire result => some (wire, result)
  | _ => none

/-- The error that ended the reader. -/
def readFault? : Deed → Option LinkError
  | readFailed e => some e
  | _ => none

end Deed

/-- The wire forms published. -/
def wires (ds : List Deed) : List Token := ds.filterMap Deed.wire?

/-- The wire forms published before the bridge was asked to close. -/
def earlyWires (ds : List Deed) : List Token := ds.filterMap Deed.earlyWire?

/-- The wire forms handed to the link, and whether it took them. -/
def sends (ds : List Deed) : List (Token × Except LinkError Unit) := ds.filterMap Deed.send?

/-- The errors that ended the reader. -/
def readFaults (ds : List Deed) : List LinkError := ds.filterMap Deed.readFault?

/-- What the link said to what was handed to it. -/
def results (ds : List Deed) : List (Except LinkError Unit) := (sends ds).map Prod.snd

/-- The wire forms handed to the link. -/
def handed (ds : List Deed) : List Token := (sends ds).map Prod.fst

/-- The errors among some results. -/
def failures (rs : List (Except LinkError Unit)) : List LinkError :=
  rs.filterMap fun
    | .error e => some e
    | .ok () => none

/-- The first error, if there is one. -/
def outcome : List LinkError → Except LinkError Unit
  | [] => .ok ()
  | e :: _ => .error e

/-- The link was closed. -/
structure Closed (ds before after : List Deed) (closing result : Except LinkError Unit) : Prop where
  eq : ds = before ++ .closed closing result :: after
  first : ∀ d ∈ before, d.isClosed = false
  /-- From then on messages are published, but not handed to the link. -/
  last : ∀ d ∈ after, d.wire?.isSome = true
  /-- If the link has refused nothing then it was handed all that was published before the bridge
      was asked to close. -/
  flushed (h : ∀ r ∈ results before, r = .ok ()) : earlyWires ds <+: handed before
  /-- Reported is the error of the writer, else that of the reader, else that of closing. -/
  reported : result = outcome (failures (results before) ++ readFaults before ++ failures [closing])

/-- How a bridge treats its link. -/
structure Forwards (ds : List Deed) : Prop where
  /-- What is handed to the link is what was published, in order and each once. -/
  inOrder : handed ds <+: wires ds
  /-- After a refusal nothing more is handed to the link. -/
  stopsAtFault : ∀ r ∈ (results ds).dropLast, r = .ok ()
  /-- The link is closed once, if at all. -/
  closing : (∀ d ∈ ds, d.isClosed = false) ∨
    ∃ before after closing result, Closed ds before after closing result

section Lists

variable (ds ds' : List Deed)

theorem wires_append : wires (ds ++ ds') = wires ds ++ wires ds' := List.filterMap_append

theorem earlyWires_append : earlyWires (ds ++ ds') = earlyWires ds ++ earlyWires ds' :=
  List.filterMap_append

theorem readFaults_append : readFaults (ds ++ ds') = readFaults ds ++ readFaults ds' :=
  List.filterMap_append

theorem sends_append : sends (ds ++ ds') = sends ds ++ sends ds' := List.filterMap_append

theorem results_append : results (ds ++ ds') = results ds ++ results ds' := by
  rw [results, sends_append, List.map_append, results, results]

theorem handed_append : handed (ds ++ ds') = handed ds ++ handed ds' := by
  rw [handed, sends_append, List.map_append, handed, handed]

end Lists

/-- What is done when events are published. -/
def publishedDeeds (asked : Bool) (es : List SentEvent) : List Deed :=
  es.map fun e => .published e.bytes asked

section Published

variable (ds : List Deed) (asked : Bool) (es : List SentEvent)

theorem wires_published : wires (publishedDeeds asked es) = es.map SentEvent.bytes := by
  induction es with
  | nil => rfl
  | cons e es ih => exact congrArg (e.bytes :: ·) ih

theorem earlyWires_published : earlyWires (publishedDeeds asked es) =
    if asked then [] else es.map SentEvent.bytes := by
  induction es with
  | nil => cases asked <;> rfl
  | cons e es ih =>
    cases asked with
    | true => exact ih
    | false => exact congrArg (e.bytes :: ·) ih

theorem isClosed_published : ∀ d ∈ publishedDeeds asked es, d.isClosed = false :=
  List.forall_mem_map.2 fun _ _ => rfl

theorem sends_published : sends (publishedDeeds asked es) = [] :=
  List.filterMap_eq_nil_iff.2 (List.forall_mem_map.2 fun _ _ => rfl)

theorem sends_append_published : sends (ds ++ publishedDeeds asked es) = sends ds := by
  rw [sends_append, sends_published, List.append_nil]

theorem readFaults_append_published :
    readFaults (ds ++ publishedDeeds asked es) = readFaults ds := by
  have hnone : readFaults (publishedDeeds asked es) = [] :=
    List.filterMap_eq_nil_iff.2 (List.forall_mem_map.2 fun _ _ => rfl)
  rw [readFaults_append, hnone, List.append_nil]

end Published

/-- What the writer hands to the link is neither published nor the reader's. -/
theorem neutral_sent (ds : List Deed) (send? : Option (Token × Except LinkError Unit)) :
    let ds' := ds ++ (send?.map fun send => Deed.sent send.1 send.2).toList
    wires ds' = wires ds ∧ earlyWires ds' = earlyWires ds ∧ readFaults ds' = readFaults ds ∧
      ∀ d ∈ (send?.map fun send => Deed.sent send.1 send.2).toList, d.isClosed = false := by
  cases send? with
  | none => simp
  | some send =>
    exact ⟨(wires_append _ _).trans (List.append_nil _),
      (earlyWires_append _ _).trans (List.append_nil _),
      (readFaults_append _ _).trans (List.append_nil _), by simp [Deed.isClosed]⟩

/-- Errors of the reader are neither published nor the writer's. -/
theorem neutral_readFailed (ds : List Deed) (es : List LinkError) :
    let ds' := ds ++ es.map Deed.readFailed
    sends ds' = sends ds ∧ wires ds' = wires ds ∧ earlyWires ds' = earlyWires ds ∧
      readFaults ds' = readFaults ds ++ es ∧ ∀ d ∈ es.map Deed.readFailed, d.isClosed = false := by
  have hnone {γ : Type} (f : Deed → Option γ) (hf : ∀ e, f (.readFailed e) = none) :
      (ds ++ es.map Deed.readFailed).filterMap f = ds.filterMap f := by
    rw [List.filterMap_append, List.filterMap_eq_nil_iff.2 (List.forall_mem_map.2 fun e _ => hf e),
      List.append_nil]
  refine ⟨hnone _ fun _ => rfl, hnone _ fun _ => rfl, hnone _ fun _ => rfl, ?_,
    List.forall_mem_map.2 fun _ _ => rfl⟩
  rw [readFaults_append, readFaults, readFaults, List.filterMap_map]
  exact congrArg (_ ++ ·) List.filterMap_some

/-- The result of the call that closes a bridge: of all errors, the first one. -/
theorem Bridge.close_fst {σ : Type} [Link σ] (b : Bridge σ) : b.close.1 =
    outcome (failures [b.writer.result] ++ failures [b.reader.result] ++
      failures [(Link.close b.link).1]) := by
  rw [Bridge.close]
  rcases b.writer.result with _ | _ <;> rcases b.reader.result with _ | _ <;>
    rcases Link.close b.link with ⟨_ | _, _⟩ <;> rfl

namespace Coupling

variable {σ ε : Type}

/-! ### The writer -/

/-- How far the writer has come, given what was done and what waits for it. -/
inductive Writing (ds : List Deed) (writer : TaskState) (stopping : Bool) (feed : Nat)
    (p : Publisher SentEvent) : Prop
  | running (hw : writer = .running) (hlive : p.Live feed) (hok : ∀ r ∈ results ds, r = .ok ())
      (hwires : wires ds = handed ds ++ (p.pending feed).map SentEvent.bytes)
  | finished (hw : writer = .finished (.ok ())) (hok : ∀ r ∈ results ds, r = .ok ())
      (hbegins : handed ds <+: wires ds) (hstop : stopping = true)
      (hflushed : earlyWires ds <+: handed ds)
  | failed (fault : LinkError) (hw : writer = .finished (.error fault))
      (rs : List (Except LinkError Unit)) (hresults : results ds = rs ++ [.error fault])
      (hok : ∀ r ∈ rs, r = .ok ()) (hbegins : handed ds <+: wires ds)

variable {ds : List Deed} {writer : TaskState} {stopping : Bool} {feed : Nat}
  {p p' : Publisher SentEvent}

theorem Writing.inOrder (h : Writing ds writer stopping feed p) : handed ds <+: wires ds := by
  cases h with
  | running hw hlive hok hwires => exact ⟨_, hwires.symm⟩
  | finished hw hok hbegins hstop hflushed => exact hbegins
  | failed fault hw rs hresults hok hbegins => exact hbegins

theorem Writing.live (h : Writing ds writer stopping feed p) (hw : writer.isRunning = true) :
    p.Live feed := by
  cases h with
  | running _ hlive hok hwires => exact hlive
  | finished hw' => rw [hw'] at hw; cases hw
  | failed fault hw' => rw [hw'] at hw; cases hw

theorem Writing.stopsAtFault (h : Writing ds writer stopping feed p) :
    ∀ r ∈ (results ds).dropLast, r = .ok () := by
  cases h with
  | running hw hlive hok hwires => exact fun r hr => hok r (List.dropLast_subset _ hr)
  | finished hw hok hbegins hstop hflushed => exact fun r hr => hok r (List.dropLast_subset _ hr)
  | failed fault hw rs hresults hok hbegins =>
    rw [hresults, List.dropLast_concat]
    exact hok

theorem failures_append (rs rs' : List (Except LinkError Unit)) :
    failures (rs ++ rs') = failures rs ++ failures rs' :=
  List.filterMap_append

theorem failures_eq_nil {rs : List (Except LinkError Unit)} (h : ∀ r ∈ rs, r = .ok ()) :
    failures rs = [] :=
  List.filterMap_eq_nil_iff.2 fun r hr => by rw [h r hr]

/-- What the writer reports when it is over. -/
theorem Writing.failures_result (h : Writing ds writer stopping feed p)
    (hover : writer.isRunning = false) : failures [writer.result] = failures (results ds) := by
  cases h with
  | running hw hlive hok hwires =>
    rw [hw] at hover
    cases hover
  | finished hw hok hbegins hstop hflushed =>
    rw [hw, failures_eq_nil hok]
    rfl
  | failed fault hw rs hresults hok hbegins =>
    rw [hw, hresults, failures_append, failures_eq_nil hok]
    rfl

theorem Writing.flushed (h : Writing ds writer stopping feed p) (hover : writer.isRunning = false)
    (hok : ∀ r ∈ results ds, r = .ok ()) : earlyWires ds <+: handed ds := by
  cases h with
  | running hw hlive hok hwires =>
    rw [hw] at hover
    cases hover
  | finished hw hok hbegins hstop hflushed => exact hflushed
  | failed fault hw rs hresults hok' hbegins =>
    cases hok (.error fault) (hresults ▸ List.mem_concat_self)

theorem Writing.congr {ds' : List Deed} (h : Writing ds writer stopping feed p)
    (hsends : sends ds' = sends ds) (hwires : wires ds' = wires ds)
    (hearly : earlyWires ds' = earlyWires ds) : Writing ds' writer stopping feed p := by
  have hresults : results ds' = results ds := congrArg (List.map Prod.snd) hsends
  have hhanded : handed ds' = handed ds := congrArg (List.map Prod.fst) hsends
  cases h with
  | running hw hlive hok h =>
    exact .running hw hlive (hresults ▸ hok) (by rw [hwires, hhanded, h])
  | finished hw hok hbegins hstop hflushed =>
    exact .finished hw (hresults ▸ hok) (by rwa [hhanded, hwires]) hstop (by rwa [hearly, hhanded])
  | failed fault hw rs hrs hok hbegins =>
    exact .failed fault hw rs (hresults ▸ hrs) hok (by rwa [hhanded, hwires])

theorem Writing.asked (h : Writing ds writer stopping feed p) :
    Writing ds writer true feed p := by
  cases h with
  | running hw hlive hok hwires => exact .running hw hlive hok hwires
  | finished hw hok hbegins hstop hflushed => exact .finished hw hok hbegins rfl hflushed
  | failed fault hw rs hrs hok hbegins => exact .failed fault hw rs hrs hok hbegins

theorem Writing.published (h : Writing ds writer stopping feed p) {es : List SentEvent}
    (hp : p.Live feed → p'.Live feed ∧ p'.pending feed = p.pending feed ++ es) :
    Writing (ds ++ publishedDeeds stopping es) writer stopping feed p' := by
  have hsends := sends_append_published ds stopping es
  have hresults : results (ds ++ publishedDeeds stopping es) = results ds :=
    congrArg (List.map Prod.snd) hsends
  have hhanded : handed (ds ++ publishedDeeds stopping es) = handed ds :=
    congrArg (List.map Prod.fst) hsends
  have hwires' : wires (ds ++ publishedDeeds stopping es) = wires ds ++ es.map SentEvent.bytes := by
    rw [wires_append, wires_published]
  cases h with
  | running hw hlive hok hwires =>
    obtain ⟨hlive', hpending⟩ := hp hlive
    refine .running hw hlive' (hresults ▸ hok) ?_
    rw [hhanded, hwires', hwires, hpending, List.map_append, List.append_assoc]
  | finished hw hok hbegins hstop hflushed =>
    refine .finished hw (hresults ▸ hok) ?_ hstop ?_
    · rw [hhanded, hwires']
      exact hbegins.trans (List.prefix_append _ _)
    · -- The writer has ended as it was asked to, so that this was published too late.
      rw [hhanded, earlyWires_append, earlyWires_published, if_pos hstop, List.append_nil]
      exact hflushed
  | failed fault hw rs hrs hok hbegins =>
    refine .failed fault hw rs (hresults ▸ hrs) hok ?_
    rw [hhanded, hwires']
    exact hbegins.trans (List.prefix_append _ _)

/-! ### The bridge -/

/-- What is known of a bridge from what was done by and to it. -/
structure Bridged (ds : List Deed) (b : Bridge σ) (p : Publisher SentEvent) : Prop where
  alive : p.handles.alive = true
  writing : Writing ds b.writer b.stopping b.feed p
  early : earlyWires ds <+: wires ds
  early_eq : b.stopping = false → earlyWires ds = wires ds
  faults : readFaults ds = failures [b.reader.result]
  reader : b.stopping = true → b.reader.isRunning = false
  closing : (b.held = true ∧ ∀ d ∈ ds, d.isClosed = false) ∨
    (b.held = false ∧ b.stopping = true ∧ b.isFinished = true) ∧
      ∃ before after closing result, Closed ds before after closing result

variable {b : Bridge σ}

theorem Bridged.forwards (h : Bridged ds b p) : Forwards ds :=
  ⟨h.writing.inOrder, h.writing.stopsAtFault, h.closing.imp And.right And.right⟩

/-- While a task is running, the bridge is held and its link was not closed. -/
theorem Bridged.held_of_not_isFinished (h : Bridged ds b p) (hrun : b.isFinished = false) :
    b.held = true ∧ ∀ d ∈ ds, d.isClosed = false := by
  rcases h.closing with hheld | ⟨⟨-, -, hover⟩, -⟩
  · exact hheld
  · rw [hover] at hrun
    cases hrun

theorem Bridged.published (h : Bridged ds b p) {es : List SentEvent}
    (halive : p'.handles.alive = true)
    (hp : p.Live b.feed → p'.Live b.feed ∧ p'.pending b.feed = p.pending b.feed ++ es) :
    Bridged (ds ++ publishedDeeds b.stopping es) b p' := by
  refine ⟨halive, h.writing.published hp, ?_, fun hstop => ?_, ?_, h.reader, ?_⟩
  · rw [earlyWires_append, wires_append, earlyWires_published, wires_published]
    cases hstop : b.stopping with
    | false =>
      rw [h.early_eq hstop]
      exact List.prefix_refl _
    | true =>
      rw [if_pos rfl, List.append_nil]
      exact h.early.trans (List.prefix_append _ _)
  · rw [earlyWires_append, wires_append, earlyWires_published, wires_published, hstop,
      h.early_eq hstop]
    rfl
  · rw [readFaults_append_published, h.faults]
  · rcases h.closing with ⟨hheld, hnone⟩ | ⟨hover, before, after, closing, result, hclosed⟩
    · exact .inl ⟨hheld, List.forall_mem_append.2 ⟨hnone, isClosed_published _ es⟩⟩
    · refine .inr ⟨hover, before, after ++ publishedDeeds b.stopping es, closing, result, ?_⟩
      refine ⟨?_, hclosed.first, ?_, fun hok => ?_, hclosed.reported⟩
      · rw [hclosed.eq, List.append_assoc, List.cons_append]
      · exact List.forall_mem_append.2 ⟨hclosed.last, List.forall_mem_map.2 fun _ _ => rfl⟩
      · rw [earlyWires_append, earlyWires_published, if_pos hover.2.1, List.append_nil]
        exact hclosed.flushed hok

theorem Bridged.requestClose (h : Bridged ds b p) (hheld : b.held = true) :
    Bridged ds b.requestClose p := by
  have hreader : failures [b.reader.cancel.result] = failures [b.reader.result] := by
    cases b.reader <;> rfl
  refine ⟨h.alive, h.writing.asked, h.early, fun hstop => (by cases hstop), ?_, fun _ => ?_, ?_⟩
  · exact h.faults.trans hreader.symm
  · show b.reader.cancel.isRunning = false
    cases b.reader <;> rfl
  · rcases h.closing with hopen | ⟨⟨hnot, -⟩, -⟩
    · exact .inl hopen
    · rw [hheld] at hnot
      cases hnot

theorem Bridged.withLink (h : Bridged ds b p) (link : σ) : Bridged ds { b with link } p :=
  ⟨h.alive, h.writing, h.early, h.early_eq, h.faults, h.reader, h.closing⟩

/-- What is known of a coupling from what was done by and to its bridge. -/
def Known (ds : List Deed) (s : Coupling σ) : Prop :=
  match s.span with
  | .loose _ => ds = [] ∧ s.station.outbound.worker.events.handles.alive = true
  | .joined b => Bridged ds b s.station.outbound.worker.events

theorem Known.alive {s : Coupling σ} (h : Known ds s) :
    s.station.outbound.worker.events.handles.alive = true := by
  obtain ⟨station, link | b⟩ := s
  · exact h.2
  · exact Bridged.alive h

/-- The link is open until it was closed. -/
theorem Known.isOpen {s : Coupling σ} (h : Known ds s) :
    s.span.isOpen = true ↔ ∀ d ∈ ds, d.isClosed = false := by
  obtain ⟨station, link | b⟩ := s
  · rw [h.1]
    exact ⟨fun _ => List.forall_mem_nil _, fun _ => rfl⟩
  · rcases Bridged.closing h with ⟨hheld, hnone⟩ |
      ⟨⟨hheld, -⟩, before, after, closing, result, hclosed⟩
    · exact ⟨fun _ => hnone, fun _ => hheld⟩
    · refine ⟨fun hopen => (by cases hheld.symm.trans hopen), fun hnone => ?_⟩
      cases hnone (.closed closing result) (hclosed.eq ▸ List.mem_append_right _ List.mem_cons_self)

theorem bridged_spawn {link : σ} {s : Station}
    (halive : s.outbound.worker.events.handles.alive = true) :
    Bridged [] (Bridge.spawn link s).1 (Bridge.spawn link s).2.outbound.worker.events := by
  refine ⟨halive, .running rfl (Publisher.live_subscribe_next _) (List.forall_mem_nil _) ?_,
    List.prefix_refl _, fun _ => rfl, rfl, fun hstop => (by cases hstop), .inl ⟨rfl, List.forall_mem_nil _⟩⟩
  exact (congrArg (List.map _) (Publisher.pending_subscribe_next _)).symm

/-! ### Steps -/

variable [Link σ]

/-- What is done by and to the bridge. -/
def deeds (act : Act ε) (s : Coupling σ) : List Deed :=
  match s.span with
  | .loose _ => []
  | .joined b =>
    match act with
    | .station act =>
      publishedDeeds b.stopping ((Station.takenSent act s.station).map fun m => (sending m).1)
    | .write => ((b.handed? s.station).map fun send => .sent send.1 send.2).toList
    | .read => if b.reader.isRunning then (failures [b.readerAfter.result]).map .readFailed else []
    | .close => if b.canClose then [.closed (Link.close b.link).1 b.close.1] else []
    | _ => []

theorem Writing.writerStep {b : Bridge σ} {s : Station}
    (h : Writing ds b.writer b.stopping b.feed s.outbound.worker.events)
    (halive : s.outbound.worker.events.handles.alive = true) (hearly : earlyWires ds <+: wires ds) :
    Writing (ds ++ ((b.handed? s).map fun send => .sent send.1 send.2).toList)
      (b.writerStep s).1.writer b.stopping b.feed (b.writerStep s).2.outbound.worker.events := by
  have hrunning : b.writer.isRunning = true → s.outbound.worker.events.Live b.feed ∧
      (∀ r ∈ results ds, r = .ok ()) ∧
        wires ds = handed ds ++ (s.outbound.worker.events.pending b.feed).map SentEvent.bytes := by
    intro hw
    cases h with
    | running _ hlive hok hwires => exact ⟨hlive, hok, hwires⟩
    | finished hw' => rw [hw'] at hw; cases hw
    | failed fault hw' => rw [hw'] at hw; cases hw
  have hsent (t : Token) (r : Except LinkError Unit) :
      wires (ds ++ [.sent t r]) = wires ds ∧ handed (ds ++ [.sent t r]) = handed ds ++ [t] ∧
        results (ds ++ [.sent t r]) = results ds ++ [r] :=
    ⟨(wires_append _ _).trans (List.append_nil _), handed_append _ _, results_append _ _⟩
  rcases b.writerStep_cases s halive with ⟨hstep, hhanded, -⟩ |
    ⟨e, rest, link, hw, hpending, -, hstep, hhanded⟩ |
    ⟨e, rest, fault, link, hw, hpending, -, hstep, hhanded⟩ |
    ⟨hw, hpending, hstop, hstep, hhanded⟩
  · rw [hstep, hhanded, Option.map_none, Option.toList_none, List.append_nil]
    exact h
  · obtain ⟨hlive, hok, hwires⟩ := hrunning hw
    obtain ⟨hwires', hhanded', hresults'⟩ := hsent e.bytes (.ok ())
    rw [hstep, hhanded, Option.map_some, Option.toList_some]
    refine .running ?_ (hlive.poll b.feed) ?_ ?_
    · exact TaskState.eq_running hw
    · rw [hresults']
      exact List.forall_mem_append.2 ⟨hok, List.forall_mem_singleton.2 rfl⟩
    · have hrest : (s.callSent (.poll b.feed)).outbound.worker.events.pending b.feed = rest :=
        hlive.pending_poll hpending
      rw [hrest, hwires', hwires, hpending, hhanded', List.append_assoc]
      rfl
  · obtain ⟨hlive, hok, hwires⟩ := hrunning hw
    obtain ⟨hwires', hhanded', hresults'⟩ := hsent e.bytes (.error fault)
    rw [hstep, hhanded, Option.map_some, Option.toList_some]
    refine .failed fault rfl (results ds) hresults' hok ?_
    rw [hwires', hhanded', hwires, hpending]
    exact ⟨rest.map SentEvent.bytes, List.append_assoc _ _ _⟩
  · -- Nothing waits any more: all that was published has been handed over.
    obtain ⟨hlive, hok, hwires⟩ := hrunning hw
    rw [hpending, List.map_nil, List.append_nil] at hwires
    rw [hstep, hhanded, Option.map_none, Option.toList_none, List.append_nil]
    exact .finished rfl hok ⟨[], by rw [hwires, List.append_nil]⟩ hstop (hwires ▸ hearly)

theorem Bridged.writerStep {s : Station} (h : Bridged ds b s.outbound.worker.events)
    (halive : (b.writerStep s).2.outbound.worker.events.handles.alive = true) :
    Bridged (ds ++ ((b.handed? s).map fun send => .sent send.1 send.2).toList) (b.writerStep s).1
      (b.writerStep s).2.outbound.worker.events := by
  have hwriting := h.writing.writerStep h.alive h.early
  obtain ⟨link, writer, hstep, hsame⟩ := b.writerStep_fst s h.alive
  obtain ⟨hwires, hearly, hfaults, hclosed⟩ := neutral_sent ds (b.handed? s)
  rw [hstep] at hwriting ⊢
  refine ⟨halive, hwriting, ?_, fun hstop => ?_, hfaults.trans h.faults, h.reader, ?_⟩
  · rw [hearly, hwires]
    exact h.early
  · rw [hearly, hwires]
    exact h.early_eq hstop
  · rcases h.closing with ⟨hheld, hnone⟩ | ⟨⟨hheld, hstop, hover⟩, hclosing⟩
    · exact .inl ⟨hheld, List.forall_mem_append.2 ⟨hnone, hclosed⟩⟩
    · -- The writer of a bridge that was closed does nothing any more.
      have hw : b.writer.isRunning = false := by
        rw [Bridge.isFinished, Bool.and_eq_true, Bool.not_eq_true'] at hover
        exact hover.1
      have hnothing : b.handed? s = none := by
        rw [Bridge.handed?, hw]
        rfl
      rw [hnothing, Option.map_none, Option.toList_none, List.append_nil, hsame hw]
      exact .inr ⟨⟨hheld, hstop, hover⟩, hclosing⟩

theorem Bridged.readerStep {s : Station} (h : Bridged ds b s.outbound.worker.events) :
    Bridged (ds ++ if b.reader.isRunning then (failures [b.readerAfter.result]).map .readFailed
        else []) (b.readerStep s).1 (b.readerStep s).2.outbound.worker.events := by
  rw [b.readerStep_fst, b.outbound_readerStep]
  by_cases hr : b.reader.isRunning = true
  · rw [if_pos hr, if_pos hr]
    obtain ⟨hsends, hwires, hearly, hfaults, hclosed⟩ :=
      neutral_readFailed ds (failures [b.readerAfter.result])
    obtain ⟨hheld, hnone⟩ := h.held_of_not_isFinished (by simp [Bridge.isFinished, hr])
    refine ⟨h.alive, h.writing.congr hsends hwires hearly, ?_, fun hstop => ?_, ?_,
      fun hstop => ?_, ?_⟩
    · rw [hearly, hwires]
      exact h.early
    · rw [hearly, hwires]
      exact h.early_eq hstop
    · -- As long as it goes on, the reader has nothing to report.
      rw [hfaults, h.faults, TaskState.eq_running hr]
      rfl
    · rw [h.reader hstop] at hr
      cases hr
    · exact .inl ⟨hheld, List.forall_mem_append.2 ⟨hnone, hclosed⟩⟩
  · rw [if_neg hr, if_neg hr, List.append_nil]
    exact h

theorem Bridged.close (h : Bridged ds b p) (hclose : b.canClose = true) :
    Bridged (ds ++ [.closed (Link.close b.link).1 b.close.1]) b.close.2 p := by
  rw [Bridge.canClose, Bool.and_eq_true, Bool.and_eq_true] at hclose
  obtain ⟨⟨hheld, hstop⟩, hover⟩ := hclose
  have hw : b.writer.isRunning = false := by
    rw [Bridge.isFinished, Bool.and_eq_true, Bool.not_eq_true'] at hover
    exact hover.1
  have hsends : sends (ds ++ [.closed (Link.close b.link).1 b.close.1]) = sends ds :=
    (sends_append _ _).trans (List.append_nil _)
  have hwires : wires (ds ++ [.closed (Link.close b.link).1 b.close.1]) = wires ds :=
    (wires_append _ _).trans (List.append_nil _)
  have hearly : earlyWires (ds ++ [.closed (Link.close b.link).1 b.close.1]) = earlyWires ds :=
    (earlyWires_append _ _).trans (List.append_nil _)
  refine ⟨h.alive, h.writing.congr hsends hwires hearly, ?_, fun hstop' => ?_, ?_, h.reader,
    .inr ?_⟩
  · rw [hearly, hwires]
    exact h.early
  · rw [hearly, hwires]
    exact h.early_eq hstop'
  · exact (readFaults_append _ _).trans ((List.append_nil _).trans h.faults)
  · refine ⟨⟨rfl, hstop, hover⟩, ds, [], _, _, rfl, ?_, List.forall_mem_nil _, fun hok => ?_, ?_⟩
    · rcases h.closing with ⟨-, hnone⟩ | ⟨⟨hnot, -⟩, -⟩
      · exact hnone
      · rw [hheld] at hnot
        cases hnot
    · rw [hearly]
      exact h.writing.flushed hw hok
    · rw [b.close_fst, h.writing.failures_result hw, h.faults]

variable (other : ε → σ → σ)

theorem known_step (act : Act ε) (s : Coupling σ) (h : Known ds s) :
    Known (ds ++ deeds act s) ((machine other).step act s) := by
  have halive := alive_step other act h.alive
  obtain ⟨station, span⟩ := s
  cases span with
  | loose link =>
    obtain ⟨rfl, halive'⟩ := h
    cases act with
    | spawn => exact bridged_spawn halive'
    | _ => exact ⟨rfl, halive⟩
  | joined b =>
    have hb : Bridged ds b station.outbound.worker.events := h
    cases act with
    | station act =>
      by_cases howns : owns act (.joined b) = true
      · have hstep : (machine other).step (.station act) ⟨station, .joined b⟩ =
            ⟨station, .joined b⟩ := if_pos howns
        have hnone : deeds (.station act : Act ε) ⟨station, .joined b⟩ = [] := by
          show publishedDeeds b.stopping ((Station.takenSent act station).map _) = []
          rw [takenSent_of_owns howns station]
          rfl
        rw [hstep, hnone, List.append_nil]
        exact hb
      · have hstep : (machine other).step (.station act) ⟨station, .joined b⟩ =
            ⟨Station.machine.step act station, .joined b⟩ := if_neg howns
        obtain ⟨hpoll, hdrop⟩ := ne_of_owns (Bool.eq_false_iff.2 howns)
        rw [hstep] at halive ⊢
        exact hb.published halive (Station.received_sent hpoll hdrop)
    | spawn => exact (List.append_nil ds).symm ▸ hb
    | write => exact hb.writerStep halive
    | read => exact hb.readerStep
    | requestClose =>
      show Bridged (ds ++ []) (if b.held && !b.stopping then b.requestClose else b) _
      rw [List.append_nil]
      split
      · next hheld => exact hb.requestClose (Bool.and_eq_true_iff.1 hheld).1
      · exact hb
    | close =>
      show Bridged (ds ++ if b.canClose then _ else []) (if b.canClose then b.close.2 else b) _
      split
      · next hclose => exact hb.close hclose
      · exact (List.append_nil ds).symm ▸ hb
    | release =>
      show Bridged (ds ++ []) b.releaseUnused _
      rw [List.append_nil, Bridge.releaseUnused]
      split
      · exact hb.withLink _
      · exact hb
    | link e =>
      show Bridged (ds ++ []) { b with link := other e b.link } _
      rw [List.append_nil]
      exact hb.withLink _

theorem known_run (c : Cadence) (link : σ) (acts : List (Act ε)) :
    Known ((machine other).log deeds acts (start c link))
      ((machine other).run acts (start c link)) :=
  (machine other).run_log_preserves (P := Known) (fun _ act s h => known_step other act s h) acts
    (s := start c link) (show Known [] _ from ⟨rfl, rfl⟩)

theorem forwards_run (c : Cadence) (link : σ) (acts : List (Act ε)) :
    Forwards ((machine other).log deeds acts (start c link)) := by
  have hknown := known_run other c link acts
  rw [Known] at hknown
  split at hknown
  · rw [hknown.1]
    exact ⟨List.prefix_refl _, List.forall_mem_nil _, .inl (List.forall_mem_nil _)⟩
  · exact hknown.forwards

/-- Only the writer hands something to the link. -/
theorem sends_deeds {act : Act ε} (h : act ≠ .write) (s : Coupling σ) :
    sends (deeds act s) = [] := by
  obtain ⟨station, link | b⟩ := s
  · rfl
  · cases act with
    | station act => exact sends_published _ _
    | write => exact absurd rfl h
    | read =>
      show sends (if b.reader.isRunning then _ else []) = []
      split
      · exact List.filterMap_eq_nil_iff.2 (List.forall_mem_map.2 fun _ _ => rfl)
      · rfl
    | close =>
      show sends (if b.canClose then _ else []) = []
      split
      · rfl
      · rfl
    | _ => rfl

/-! ### The end of the call that closes the bridge -/

theorem step_write {s : Coupling σ} (hb : s.span = .joined b) :
    (machine other).step .write s =
      ⟨(b.writerStep s.station).2, .joined (b.writerStep s.station).1⟩ := by
  obtain ⟨station, span⟩ := s
  cases hb
  rfl

/-- A writer that is over takes no steps. -/
theorem run_write_of_over {s : Coupling σ} (hb : s.span = .joined b)
    (hw : b.writer.isRunning = false) (n : Nat) :
    (machine other).run (List.replicate n .write) s = s := by
  have hstep : (machine other).step .write s = s := by
    have hnothing : b.writerStep s.station = (b, s.station) := by
      rw [Bridge.writerStep, hw]
      rfl
    rw [step_write other hb, hnothing, ← hb]
  induction n with
  | zero => rfl
  | succ n ih => rw [List.replicate_succ, Machine.run_cons, hstep, ih]

/-- A writer that was asked to end takes a step for each event that waits for it, and one more. -/
theorem writer_over {s : Coupling σ} {n : Nat} (h : Known ds s) (hb : s.span = .joined b)
    (hstop : b.stopping = true)
    (hn : (s.station.outbound.worker.events.pending b.feed).length < n) :
    ∃ link writer,
      ((machine other).run (List.replicate n .write) s).span = .joined { b with link, writer } ∧
        writer.isRunning = false := by
  induction n generalizing ds s b with
  | zero => exact absurd hn (Nat.not_lt_zero _)
  | succ n ih =>
    have hknown := known_step other .write s h
    have hbridged : Bridged ds b s.station.outbound.worker.events := by
      rw [Known, hb] at h
      exact h
    rw [List.replicate_succ, Machine.run_cons]
    rw [step_write other hb] at hknown ⊢
    rcases b.writerStep_cases s.station h.alive with ⟨hstep, -, hrest⟩ |
      ⟨e, rest, link, hw, hpending, -, hstep, -⟩ | ⟨e, rest, fault, link, hw, -, -, hstep, -⟩ |
      ⟨hw, -, -, hstep, -⟩
    · -- A writer that was asked to end rests only when it is over.
      have hw : b.writer.isRunning = false := by
        refine Bool.eq_false_iff.2 fun hw => ?_
        rw [(hrest hw).1] at hstop
        cases hstop
      rw [hstep, run_write_of_over other rfl hw]
      exact ⟨b.link, b.writer, rfl, hw⟩
    · rw [hstep] at hknown ⊢
      have hrest : (s.station.callSent (.poll b.feed)).outbound.worker.events.pending b.feed =
          rest := (hbridged.writing.live hw).pending_poll hpending
      obtain ⟨link', writer, hspan, hover⟩ := ih (b := { b with link }) hknown rfl hstop (by
        rw [hpending, List.length_cons] at hn
        exact hrest ▸ Nat.lt_of_succ_lt_succ hn)
      exact ⟨link', writer, hspan, hover⟩
    · rw [hstep, run_write_of_over other rfl rfl]
      exact ⟨link, _, rfl, rfl⟩
    · rw [hstep, run_write_of_over other rfl rfl]
      exact ⟨b.link, _, rfl, rfl⟩

/-- What the call that closes the bridge does. -/
structure Closing (other : ε → σ → σ) (s : Coupling σ) : Prop where
  /-- The call comes to its end, as soon as the writer has sent what waits for it. -/
  returns {b : Bridge σ} (hb : s.span = .joined b) (hheld : b.held = true) {n : Nat}
    (hn : (s.station.outbound.worker.events.pending b.feed).length < n) :
    ∃ b', ((machine other).run (.requestClose :: List.replicate n .write) s).span = .joined b' ∧
      b'.canClose = true
  /-- At its end, the link is closed. -/
  closes {b : Bridge σ} (hb : s.span = .joined b) (hclose : b.canClose = true) :
    ((machine other).step .close s).span =
        .joined { b with link := (Link.close b.link).2, held := false } ∧
      deeds (.close : Act ε) s = [.closed (Link.close b.link).1 b.close.1]

theorem closing_of_known {s : Coupling σ} (h : Known ds s) : Closing other s where
  returns {b} hb hheld {n} hn := by
    have hknown := known_step other .requestClose s h
    obtain ⟨station, span⟩ := s
    cases hb
    -- The bridge that was asked to close, now or before.
    obtain ⟨asked, hstep, hstop, hheld', hfeed⟩ : ∃ asked : Bridge σ,
        (machine other).step .requestClose ⟨station, .joined b⟩ = ⟨station, .joined asked⟩ ∧
          asked.stopping = true ∧ asked.held = true ∧ asked.feed = b.feed := by
      refine ⟨if b.held && !b.stopping then b.requestClose else b, rfl, ?_⟩
      cases hstop : b.stopping with
      | true => simp [hheld, hstop]
      | false => simp [hheld, Bridge.requestClose]
    rw [hstep] at hknown
    rw [Machine.run_cons, hstep]
    obtain ⟨link, writer, hspan, hover⟩ :=
      writer_over other hknown rfl hstop (by rw [hfeed]; exact hn)
    refine ⟨_, hspan, ?_⟩
    have hreader : asked.reader.isRunning = false := Bridged.reader hknown hstop
    simp [Bridge.canClose, Bridge.isFinished, hheld', hstop, hover, hreader]
  closes {b} hb hclose := by
    obtain ⟨station, span⟩ := s
    cases hb
    have hstep : (machine other).step .close ⟨station, .joined b⟩ =
        ⟨station, .joined (if b.canClose then b.close.2 else b)⟩ := rfl
    rw [hstep, if_pos hclose]
    exact ⟨rfl, if_pos hclose⟩

end Coupling

end GridRobot
