import GridRobot.Proofs.Loopback
import GridRobot.Proofs.Station.Forwarding
import Mathlib.Data.List.Induction

/-!
# What the far end receives

The near end of a loopback link is the bridge's. As long as the far end is not
dropped, the link refuses nothing, and what looks at the far end have found, then
what is on its way there, is what the writer handed to the link
(`Coupling.Delivers`). Further looks find that, one token each; when the link was
closed, the far end learns so after it has found everything.

With what a bridge does to any link, this is `Coupling.bridge_forwards`.
-/

namespace GridRobot

namespace Loopback

/-- What is done at the far end, unless it is dropped. -/
inductive FarCall
  | send (t : Token)
  | receive
  | close

/-- What this makes of the link. -/
def callFar : FarCall → Loopback → Loopback
  | .send t, l => (l.send .far t).2
  | .receive, l => (l.receive .far).2
  | .close, l => l.close .far

/-- The token that a look at the far end finds. -/
def foundFar : FarCall → Loopback → List Token
  | .receive, l => (l.receive .far).1.token?.toList
  | .send _, _ | .close, _ => []

/-- What is done at the far end takes tokens that have arrived there, and has no part in whether
    the near end can send. -/
theorem callFar_spec (call : FarCall) (l : Loopback) :
    foundFar call l ++ (callFar call l).far.arriving = l.far.arriving ∧
      (callFar call l).near.standing = l.near.standing ∧
      (l.far.standing ≠ .dropped → (callFar call l).far.standing ≠ .dropped) := by
  cases call with
  | send t =>
    rw [foundFar, callFar, send]
    split
    · exact ⟨rfl, rfl, id⟩
    · split
      · exact ⟨rfl, rfl, id⟩
      · exact ⟨rfl, rfl, id⟩
  | receive =>
    obtain ⟨hnear, hstanding⟩ : (l.receive .far).2.near = l.near ∧
        (l.receive .far).2.far.standing = l.far.standing := l.receive_frame .far
    exact ⟨l.receive_spec .far, congrArg Endpoint.standing hnear,
      fun hfar hdropped => hfar (hstanding.symm.trans hdropped)⟩
  | close =>
    refine ⟨?_, rfl, fun hfar => ?_⟩
    · show (if l.far.standing = .active then _ else _ : Endpoint).arriving = _
      split <;> rfl
    · show (if l.far.standing = .active then _ else _ : Endpoint).standing ≠ _
      split
      · exact fun h => by cases h
      · exact hfar

end Loopback

namespace Coupling

open Loopback (FarCall callFar foundFar)

/-- The token that a look at the far end finds, among all that happens to a coupling. -/
def takenFar : Act FarCall → Coupling Loopback → List Token
  | .link call, s => foundFar call s.span.link
  | _, _ => []

/-- What is known of a loopback link from what was done by and to the bridge, and found at the
    far end. -/
structure Delivering (ds : List Deed) (taken : List Token) (span : Span Loopback) : Prop where
  far : span.link.far.standing ≠ .dropped
  near : span.isOpen = true ↔ span.link.near.standing = .active
  inOrder : taken ++ span.link.far.arriving = handed ds
  ok : ∀ r ∈ results ds, r = .ok ()

variable {ds : List Deed} {taken : List Token}

/-- An action that is not the writer's, and after which the near end can send if the link was not
    closed. -/
theorem Delivering.of_results {ds' : List Deed} {taken' : List Token} {span span' : Span Loopback}
    (h : Delivering ds taken span) (hfar : span'.link.far.standing ≠ .dropped)
    (hnear : span'.isOpen = true ↔ span'.link.near.standing = .active)
    (harriving : taken' ++ span'.link.far.arriving = span.link.far.arriving)
    (hsends : sends ds' = []) : Delivering (ds ++ ds') (taken ++ taken') span' := by
  have hnone : sends (ds ++ ds') = sends ds := by rw [sends_append, hsends, List.append_nil]
  refine ⟨hfar, hnear, ?_, ?_⟩
  · rw [List.append_assoc, harriving, h.inOrder, handed, handed, hnone]
  · rw [results, hnone]
    exact h.ok

/-- The writer hands to the link what arrives at the far end, and is not refused. -/
theorem delivering_write {s : Coupling Loopback} (hknown : Known ds s)
    (h : Delivering ds taken s.span) :
    Delivering (ds ++ deeds (.write : Act FarCall) s) taken
      ((machine callFar).step .write s).span := by
  obtain ⟨station, link | b⟩ := s
  · exact (List.append_nil ds).symm ▸ h
  · have hbridged : Bridged ds b station.outbound.worker.events := hknown
    -- The link is not closed before the writer is over.
    have hactive : b.writer.isRunning = true → b.link.near.standing = .active := fun hw =>
      h.near.1 (hbridged.held_of_not_isFinished (by simp [Bridge.isFinished, hw])).1
    rw [step_write callFar rfl]
    show Delivering (ds ++ ((b.handed? station).map _).toList) taken _
    rcases b.writerStep_cases station hbridged.alive with ⟨hstep, hhanded, -⟩ |
      ⟨e, rest, link, hw, -, hsend, hstep, hhanded⟩ | ⟨e, rest, fault, link, hw, -, hsend, -, -⟩ |
      ⟨hw, -, -, hstep, hhanded⟩
    · rw [hstep, hhanded, Option.map_none, Option.toList_none, List.append_nil]
      exact h
    · have hlink := (Loopback.send_eq_ok (s := .near) (hactive hw) h.far e.bytes).symm.trans hsend
      cases hlink
      rw [hstep, hhanded, Option.map_some, Option.toList_some]
      refine ⟨h.far, h.near, ?_, ?_⟩
      · rw [handed_append, ← h.inOrder, List.append_assoc]
        rfl
      · rw [results_append]
        exact List.forall_mem_append.2 ⟨h.ok, List.forall_mem_singleton.2 rfl⟩
    · have hlink := (Loopback.send_eq_ok (s := .near) (hactive hw) h.far e.bytes).symm.trans hsend
      cases hlink
    · rw [hstep, hhanded, Option.map_none, Option.toList_none, List.append_nil]
      exact ⟨h.far, h.near, h.inOrder, h.ok⟩

theorem delivering_step (act : Act FarCall) {s : Coupling Loopback} (hknown : Known ds s)
    (h : Delivering ds taken s.span) :
    Delivering (ds ++ deeds act s) (taken ++ takenFar act s)
      ((machine callFar).step act s).span := by
  by_cases hwrite : act = .write
  · subst hwrite
    rw [show takenFar .write s = [] from rfl, List.append_nil]
    exact delivering_write hknown h
  · have hsends := sends_deeds hwrite s
    obtain ⟨station, link | b⟩ := s
    · cases act with
      | station act => exact h.of_results h.far h.near rfl hsends
      | link call =>
        obtain ⟨hfound, hnear, hfar⟩ := Loopback.callFar_spec call link
        exact h.of_results (hfar h.far) (hnear ▸ h.near) hfound hsends
      | _ => exact h.of_results h.far h.near rfl hsends
    · cases act with
      | station act =>
        have hspan : ((machine callFar).step (.station act) ⟨station, .joined b⟩).span =
            .joined b := by
          show (if owns act (.joined b) then _ else _ : Coupling Loopback).span = .joined b
          split <;> rfl
        rw [hspan]
        exact h.of_results h.far h.near rfl hsends
      | spawn => exact h.of_results h.far h.near rfl hsends
      | write => exact absurd rfl hwrite
      | read =>
        have hspan : ((machine callFar).step .read ⟨station, .joined b⟩).span =
            .joined (b.readerStep station).1 := rfl
        obtain ⟨hfar, hnear⟩ : (b.link.receive .near).2.far = b.link.far ∧
            (b.link.receive .near).2.near.standing = b.link.near.standing :=
          b.link.receive_frame .near
        rw [hspan, b.readerStep_fst]
        split
        · have harriving := congrArg Endpoint.arriving hfar
          exact h.of_results (hfar ▸ h.far) (hnear ▸ h.near) harriving hsends
        · exact h.of_results h.far h.near rfl hsends
      | requestClose =>
        have hspan : ((machine callFar).step .requestClose ⟨station, .joined b⟩).span =
            .joined (if b.held && !b.stopping then b.requestClose else b) := rfl
        rw [hspan]
        split
        · exact h.of_results h.far h.near rfl hsends
        · exact h.of_results h.far h.near rfl hsends
      | close =>
        have hspan : ((machine callFar).step .close ⟨station, .joined b⟩).span =
            .joined (if b.canClose then b.close.2 else b) := rfl
        rw [hspan]
        split
        · refine h.of_results h.far ⟨fun hopen => (by cases hopen), fun hactive => ?_⟩ rfl hsends
          exact absurd hactive (b.link.standing_close .near)
        · exact h.of_results h.far h.near rfl hsends
      | release =>
        have hspan : ((machine callFar).step .release ⟨station, .joined b⟩).span =
            .joined b.releaseUnused := rfl
        rw [hspan, Bridge.releaseUnused]
        split
        · next hunused =>
          have hheld : b.held = false := by simpa using (Bool.and_eq_true_iff.1 hunused).2
          refine h.of_results h.far ⟨fun hopen => ?_, fun hactive => (by cases hactive)⟩ rfl hsends
          cases hheld.symm.trans hopen
        · exact h.of_results h.far h.near rfl hsends
      | link call =>
        obtain ⟨hfound, hnear, hfar⟩ := Loopback.callFar_spec call b.link
        exact h.of_results (hfar h.far) (hnear ▸ h.near) hfound hsends

theorem delivering_run (c : Cadence) (n : Nat) (acts : List (Act FarCall)) :
    Delivering ((machine callFar).log deeds acts (start c (.pair n)))
      ((machine callFar).log takenFar acts (start c (.pair n)))
      ((machine callFar).run acts (start c (.pair n))).span := by
  induction acts using List.reverseRecOn with
  | nil => exact ⟨fun h => (by cases h), ⟨fun _ => rfl, fun _ => rfl⟩, rfl, List.forall_mem_nil _⟩
  | append_singleton acts act ih =>
    rw [Machine.log_concat, Machine.log_concat, Machine.run_concat]
    exact delivering_step act (known_run callFar c (Loopback.pair n) acts) ih

/-- What the far end of a loopback link receives. -/
structure Delivers (ds : List Deed) (taken : List Token) (l : Loopback) : Prop where
  /-- The link refuses nothing. -/
  ok : ∀ r ∈ results ds, r = .ok ()
  /-- What looks at the far end have found, then what is on its way there, is what was handed to the
      link. -/
  inOrder : taken ++ l.far.arriving = handed ds
  /-- Further looks find what is on its way, one token each. After that the far end waits as long
      as the link was not closed; once it was, nothing more comes. -/
  receives (n : Nat) : l.looks .far (l.far.arriving.length + n) = l.far.arriving.map .token ++
    List.replicate n (if ds.any Deed.isClosed then .ended else .pending)

theorem delivers_run (c : Cadence) (n : Nat) (acts : List (Act FarCall)) :
    Delivers ((machine callFar).log deeds acts (start c (.pair n)))
      ((machine callFar).log takenFar acts (start c (.pair n)))
      ((machine callFar).run acts (start c (.pair n))).span.link := by
  have hdelivering := delivering_run c n acts
  have hopen := Known.isOpen (known_run callFar c (Loopback.pair n) acts)
  refine ⟨hdelivering.ok, hdelivering.inOrder, fun more => ?_⟩
  have hlooks := Loopback.looks_add .far more
    ((machine callFar).run acts (start c (.pair n))).span.link
  refine hlooks.trans (congrArg (_ ++ List.replicate more ·) ?_)
  by_cases hclosed : ((machine callFar).log deeds acts (start c (.pair n))).any Deed.isClosed = true
  · rw [if_pos hclosed]
    refine if_neg fun hactive => ?_
    obtain ⟨d, hd, hd'⟩ := List.any_eq_true.1 hclosed
    rw [hopen.1 (hdelivering.near.2 hactive) d hd] at hd'
    cases hd'
  · rw [if_neg hclosed]
    refine if_pos (hdelivering.near.1 (hopen.2 fun d hd => Bool.eq_false_iff.2 fun hd' => ?_))
    exact hclosed (List.any_eq_true.2 ⟨d, hd, hd'⟩)

/-- A bridge hands to its link what is published, in order and each message once, until the link
    refuses one. The call that closes the bridge closes the link, after all has been handed over
    that was published before, and reports the first of the errors. The far end of a loopback link
    that is not dropped receives what was handed over, and then learns that nothing more will
    come. -/
theorem bridge_forwards (c : Cadence) :
    (∀ {σ ε : Type} [Link σ] (other : ε → σ → σ) (link : σ) (acts : List (Act ε)),
      Forwards ((machine other).log deeds acts (start c link)) ∧
        Closing other ((machine other).run acts (start c link))) ∧
    ∀ (n : Nat) (acts : List (Act FarCall)),
      Delivers ((machine callFar).log deeds acts (start c (.pair n)))
        ((machine callFar).log takenFar acts (start c (.pair n)))
        ((machine callFar).run acts (start c (.pair n))).span.link :=
  ⟨fun other link acts =>
      ⟨forwards_run other c link acts, closing_of_known other (known_run other c link acts)⟩,
    delivers_run c⟩

/-- Of three messages, one is found at the far end while the bridge goes on, one is still waiting
    for the writer when the bridge is asked to close, and one is published after that. The far end
    finds the other two after the call that closes the bridge, and then that nothing more comes. -/
theorem bridge_forwards_flushed :
    let publish : List (Act FarCall) := [.station (.checkOutbound 0 0), .station (.tickOutbound 0)]
    let acts : List (Act FarCall) := [.station (.enqueue .done), .station (.enqueue .finish),
        .station (.enqueue .stateChange), .spawn, .station (.startOutbound 0)] ++ publish ++
      [.write, .link .receive] ++ publish ++ [.requestClose] ++ publish ++
      [.write, .write, .write, .close]
    let s := start default (Loopback.pair 0)
    let ds := (machine callFar).log deeds acts s
    handed ds <+: wires ds ∧
      earlyWires ds = [Message.done.bytes, Message.finish.bytes] ∧
      handed ds = [Message.done.bytes, Message.finish.bytes, Message.stateChange.bytes] ∧
      (machine callFar).log takenFar acts s = [Message.done.bytes] ∧
      ((machine callFar).run acts s).span.link.looks .far 4 =
        [.token Message.finish.bytes, .token Message.stateChange.bytes, .ended, .ended] := by
  intro publish acts s ds
  obtain ⟨hall, hfar⟩ := bridge_forwards default
  have harriving : ((machine callFar).run acts s).span.link.far.arriving =
      [Message.finish.bytes, Message.stateChange.bytes] := by decide
  have hclosed : ds.any Deed.isClosed = true := by decide
  have htaken : (machine callFar).log takenFar acts s = [Message.done.bytes] := by decide
  have hdelivers : Delivers ds ((machine callFar).log takenFar acts s)
      ((machine callFar).run acts s).span.link := hfar 0 acts
  have hhanded := hdelivers.inOrder
  have hlooks := hdelivers.receives 2
  rw [harriving, htaken] at hhanded
  rw [harriving, if_pos hclosed] at hlooks
  exact ⟨(hall callFar (.pair 0) acts).1.inOrder, by decide, hhanded.symm, htaken, hlooks⟩

end Coupling

end GridRobot
