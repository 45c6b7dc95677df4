import GridRobot.Proofs.Machine
import GridRobot.Proofs.Publisher
import Mathlib.Data.List.Induction

/-!
# What a publisher delivers

A publisher is reached through its handles: through each of them subscriptions
are made, events published and further handles made. Subscriptions look for
events, and are dropped. All this happens in any order.

To a subscription all that counts is what is published and when it looks itself
(`Act.mail?`): what it is given is what comes out of a queue of its own
(`Live.mail_run`). So it is given the events published since it was made, in
their order and each once, and the others are waiting (`Mail.taken_append_run`);
before it is made and after it is dropped it is given nothing
(`log_given_of_next_le`, `Gone.log_given`). Nothing more can come just when each
handle ever made was let go of (`Accounted.alive_iff`). All this is put together
in `serves`.
-/

namespace GridRobot

/-- What is handed to a subscription that was dropped is not kept. -/
theorem Mailbox.deliver_of_not_attached {ε : Type} {m : Mailbox ε} (e : ε)
    (h : m.attached = false) :
    (m.deliver e).attached = false ∧ (m.deliver e).pending = m.pending := by
  rw [deliver]
  split
  · rw [if_neg (Bool.eq_false_iff.1 h)]
    exact ⟨h, rfl⟩
  · exact ⟨h, rfl⟩

namespace Handles

variable {h : Handles} {i k : Nat}

theorem next_clone : h.clone.next = h.next + 1 := List.length_append

theorem next_drop : (h.drop i).next = h.next := List.length_set

theorem held_clone : h.clone.held[k]? = some true ↔ h.held[k]? = some true ∨ k = h.next := by
  rw [clone, next, List.getElem?_append]
  grind

theorem held_drop : (h.drop i).held[k]? = some true ↔ h.held[k]? = some true ∧ k ≠ i := by
  rw [drop, List.getElem?_set]
  grind

theorem alive_iff : h.alive = true ↔ ∃ k : Nat, h.held[k]? = some true := by
  rw [alive, List.any_eq_true]
  constructor
  · rintro ⟨b, hmem, rfl⟩
    exact List.mem_iff_getElem?.1 hmem
  · rintro ⟨k, hk⟩
    exact ⟨true, List.mem_iff_getElem?.2 ⟨k, hk⟩, rfl⟩

end Handles

namespace Publisher

variable {ε : Type}

/-! ### Histories -/

/-- What is done with a publisher, through the handle `h`, or by the `i`-th subscription. -/
inductive Act (ε : Type)
  | subscribe (h : Nat)
  | publish (h : Nat) (e : ε)
  | clone (h : Nat)
  | release (h : Nat)
  /-- The subscription looks for an event, whether or not it means to wait for one. -/
  | look (i : Nat)
  | drop (i : Nat)
  deriving DecidableEq

/-- The machine of a publisher. It also takes actions that are not possible: those of handles and
    subscriptions that are gone. -/
def machine : Machine (Act ε) (Publisher ε) where
  step
    | .subscribe _, p => p.subscribe
    | .publish _ e, p => p.publish e
    | .clone _, p => p.clone
    | .release h, p => p.dropHandle h
    | .look i, p => (p.poll i).2
    | .drop i, p => p.dropSubscription i

/-- Nothing is done through a handle that was let go of, or by a subscription that was dropped. -/
def Possible : Act ε → Publisher ε → Prop
  | .subscribe h, p | .publish h _, p | .clone h, p | .release h, p =>
    p.handles.held[h]? = some true
  | .look i, p | .drop i, p => p.attached i = true

instance (a : Act ε) (p : Publisher ε) : Decidable (Possible a p) := by
  cases a <;> exact inferInstanceAs (Decidable (_ = _))

/-- The event that is published. -/
def Act.event? : Act ε → Option ε
  | .publish _ e => some e
  | _ => none

/-- The event that the `i`-th subscription is given. -/
def given (i : Nat) : Act ε → Publisher ε → List ε
  | .look j, p => if j = i then (p.poll j).1.toList else []
  | _, _ => []

end Publisher

/-! ### A queue of one's own -/

/-- What counts to one subscription. -/
inductive Mail (ε : Type)
  | event (e : ε)
  /-- It looks for an event. -/
  | look

namespace Mail

variable {ε : Type}

/-- Events wait in the order in which they come, and a look takes the first one. -/
def machine : Machine (Mail ε) (List ε) where
  step
    | .event e, waiting => waiting ++ [e]
    | .look, waiting => waiting.tail

/-- The event that comes. -/
def event? : Mail ε → Option ε
  | .event e => some e
  | .look => none

/-- The event that is taken. -/
def taken : Mail ε → List ε → List ε
  | .event _, _ => []
  | .look, waiting => waiting.take 1

theorem taken_append_step (m : Mail ε) (waiting : List ε) :
    taken m waiting ++ machine.step m waiting = waiting ++ m.event?.toList := by
  cases m with
  | event e => rfl
  | look =>
    show waiting.take 1 ++ waiting.tail = waiting ++ []
    rw [← List.drop_one, List.take_append_drop, List.append_nil]

/-- What was taken, then what waits, is what was waiting and what came. -/
theorem taken_append_run (ms : List (Mail ε)) (waiting : List ε) :
    machine.log taken ms waiting ++ machine.run ms waiting = waiting ++ ms.filterMap event? := by
  induction ms generalizing waiting with
  | nil => exact (List.append_nil waiting).symm
  | cons m ms ih =>
    rw [Machine.log_cons, Machine.run_cons, List.append_assoc, ih, ← List.append_assoc,
      taken_append_step, List.append_assoc]
    cases m <;> rfl

end Mail

namespace Publisher

variable {ε : Type} {p : Publisher ε} {i : Nat} {a : Act ε} {acts : List (Act ε)}

/-- What an action is to the `i`-th subscription, if anything. -/
def Act.mail? (i : Nat) : Act ε → Option (Mail ε)
  | .publish _ e => some (.event e)
  | .look j => if j = i then some .look else none
  | _ => none

theorem toList_poll (i : Nat) (p : Publisher ε) : (p.poll i).1.toList = (p.pending i).take 1 := by
  rcases p.poll_cases i with ⟨e, rest, hpending, hpoll⟩ | ⟨hpending, hnone, -⟩
  · rw [hpoll, hpending]
    rfl
  · rw [hnone, hpending, List.take_nil]

theorem Live.pending_poll_self (h : p.Live i) : (p.poll i).2.pending i = (p.pending i).tail := by
  rcases p.poll_cases i with ⟨e, rest, hpending, -⟩ | ⟨hpending, -, hpoll⟩
  · rw [h.pending_poll hpending, hpending, List.tail_cons]
  · rw [hpoll, hpending, List.tail_nil]

/-- Where nothing waits, nothing is given. -/
theorem given_eq_nil (h : p.pending i = []) (a : Act ε) : given i a p = [] := by
  cases a with
  | look j =>
    rw [given]
    split
    · next hj => rw [hj, toList_poll, h, List.take_nil]
    · rfl
  | _ => rfl

/-! ### Subscriptions not yet made -/

theorem next_le_step (a : Act ε) (p : Publisher ε) : p.next ≤ (machine.step a p).next := by
  cases a with
  | subscribe _ => exact (List.sublist_append_left p.mailboxes [{}]).length_le
  | publish _ e => exact Nat.le_of_eq (List.length_map _).symm
  | look j => exact Nat.le_of_eq (p.next_poll j).symm
  | drop j => exact Nat.le_of_eq (List.length_modify ..).symm
  | _ => exact Nat.le_refl _

theorem next_le_run (acts : List (Act ε)) (p : Publisher ε) :
    p.next ≤ (machine.run acts p).next :=
  machine.run_preserves (fun a s hs => Nat.le_trans hs (next_le_step a s)) acts (Nat.le_refl _)

/-- A subscription is given nothing before it is made. -/
theorem log_given_of_next_le (h : (machine.run acts p).next ≤ i) :
    machine.log (given i) acts p = [] := by
  -- The numbers of subscriptions only grow, so that the number is free all along the run.
  induction acts generalizing p with
  | nil => rfl
  | cons a acts ih =>
    have hp : p.next ≤ i := Nat.le_trans (next_le_run (a :: acts) p) h
    rw [Machine.log_cons, given_eq_nil (pending_of_next_le hp), ih h, List.nil_append]

/-! ### Live subscriptions -/

theorem Live.step (h : p.Live i) (ha : a ≠ .drop i) : (machine.step a p).Live i := by
  cases a with
  | subscribe _ => exact h.subscribe
  | publish _ e => exact h.publish e
  | clone _ => exact h
  | release _ => exact h
  | look j => exact h.poll j
  | drop j => exact h.dropSubscription_of_ne fun hj => ha (hj ▸ rfl)

/-- An action is to a live subscription what it is to a queue of its own. -/
theorem Live.mail_step (h : p.Live i) (ha : a ≠ .drop i) :
    given i a p = Mail.machine.log Mail.taken (a.mail? i).toList (p.pending i) ∧
      (machine.step a p).pending i = Mail.machine.run (a.mail? i).toList (p.pending i) := by
  cases a with
  | subscribe _ => exact ⟨rfl, h.pending_subscribe⟩
  | publish _ e => exact ⟨rfl, h.pending_publish e⟩
  | clone _ => exact ⟨rfl, rfl⟩
  | release _ => exact ⟨rfl, rfl⟩
  | drop j => exact ⟨rfl, pending_dropSubscription_of_ne fun hj => ha (hj ▸ rfl)⟩
  | look j =>
    rw [given, Act.mail?]
    split
    · next hj =>
      -- Its own look, which takes the first event of either queue.
      subst hj
      refine ⟨?_, h.pending_poll_self⟩
      rw [toList_poll]
      exact (List.append_nil _).symm
    · next hj => exact ⟨rfl, h.pending_poll_of_ne hj⟩

/-- A live subscription is given what comes out of a queue of its own. -/
theorem Live.mail_run (h : p.Live i) (hacts : .drop i ∉ acts) :
    machine.log (given i) acts p =
        Mail.machine.log Mail.taken (acts.filterMap (Act.mail? i)) (p.pending i) ∧
      (machine.run acts p).pending i =
        Mail.machine.run (acts.filterMap (Act.mail? i)) (p.pending i) ∧
      (machine.run acts p).Live i := by
  induction acts generalizing p with
  | nil => exact ⟨rfl, rfl, h⟩
  | cons a acts ih =>
    rw [List.mem_cons, not_or] at hacts
    obtain ⟨hgiven, hpending⟩ := h.mail_step (Ne.symm hacts.1)
    obtain ⟨hgivens, hpendings, hlive⟩ := ih (h.step (Ne.symm hacts.1)) hacts.2
    have hsplit : (a :: acts).filterMap (Act.mail? i) =
        (a.mail? i).toList ++ acts.filterMap (Act.mail? i) := by
      rw [List.filterMap_cons]
      cases a.mail? i <;> rfl
    rw [hsplit, Machine.log_append, Machine.run_append, ← hpending, ← hgiven]
    exact ⟨congrArg (given i a p ++ ·) hgivens, hpendings, hlive⟩

/-! ### Dropped subscriptions -/

/-- The `i`-th subscription has been dropped, and nothing waits for it. -/
def Gone (i : Nat) (p : Publisher ε) : Prop :=
  ∃ m, p.mailboxes[i]? = some m ∧ m.attached = false ∧ m.pending = []

theorem gone_dropSubscription {m : Mailbox ε} (hm : p.mailboxes[i]? = some m) :
    (p.dropSubscription i).Gone i := by
  refine ⟨m.drop, ?_, rfl, rfl⟩
  rw [dropSubscription, List.getElem?_modify_eq, hm]
  rfl

theorem Live.gone (h : p.Live i) : (p.dropSubscription i).Gone i := by
  obtain ⟨m, hm, -⟩ := h
  exact gone_dropSubscription hm

theorem Gone.pending_eq (h : p.Gone i) : p.pending i = [] := by
  obtain ⟨m, hm, -, hpending⟩ := h
  rw [pending_of_getElem? hm, hpending]

theorem Gone.step (h : p.Gone i) (a : Act ε) : (machine.step a p).Gone i := by
  obtain ⟨m, hm, hattached, hpending⟩ := h
  cases a with
  | subscribe _ => exact ⟨m, getElem?_subscribe hm, hattached, hpending⟩
  | publish _ e =>
    -- Whether or not the publisher has noticed that it is gone.
    obtain ⟨hattached', hpending'⟩ := Mailbox.deliver_of_not_attached e hattached
    refine ⟨m.deliver e, ?_, hattached', hpending'.trans hpending⟩
    exact List.getElem?_map.trans (congrArg (Option.map (Mailbox.deliver e)) hm)
  | clone _ => exact ⟨m, hm, hattached, hpending⟩
  | release _ => exact ⟨m, hm, hattached, hpending⟩
  | drop j =>
    rcases eq_or_ne j i with rfl | hj
    · exact gone_dropSubscription hm
    · exact ⟨m, (getElem?_dropSubscription_of_ne hj).trans hm, hattached, hpending⟩
  | look j =>
    show (p.poll j).2.Gone i
    rcases p.poll_cases j with ⟨e, rest, -, hpoll⟩ | ⟨-, -, hpoll⟩
    · rw [hpoll]
      refine ⟨_, getElem?_advance hm, ?_, ?_⟩
      · split
        · exact hattached
        · exact hattached
      · split
        · exact (congrArg List.tail hpending).trans List.tail_nil
        · exact hpending
    · rw [hpoll]
      exact ⟨m, hm, hattached, hpending⟩

/-- A subscription that was dropped is given nothing more. -/
theorem Gone.log_given (h : p.Gone i) (acts : List (Act ε)) :
    machine.log (given i) acts p = [] := by
  induction acts generalizing p with
  | nil => rfl
  | cons a acts ih =>
    rw [Machine.log_cons, given_eq_nil h.pending_eq, ih (h.step a), List.nil_append]

/-! ### Handles -/

/-- Another handle is made. -/
def Act.isClone : Act ε → Bool
  | .clone _ => true
  | _ => false

/-- The number of handles made in a history that starts with one. -/
def handlesMade (acts : List (Act ε)) : Nat := 1 + acts.countP Act.isClone

theorem handlesMade_concat (acts : List (Act ε)) (a : Act ε) :
    handlesMade (acts ++ [a]) = handlesMade acts + if a.isClone then 1 else 0 := by
  rw [handlesMade, List.countP_append, List.countP_singleton, ← Nat.add_assoc, handlesMade]

/-- The handles that are held are those that were made and not let go of. -/
structure Accounted (acts : List (Act ε)) (h : Handles) : Prop where
  made : h.next = handlesMade acts
  released : ∀ k, .release k ∈ acts → k < h.next
  held_iff : ∀ k, h.held[k]? = some true ↔ k < h.next ∧ .release k ∉ acts

theorem accounted_nil : Accounted ([] : List (Act ε)) {} where
  made := rfl
  released _ h := nomatch h
  held_iff k := by cases k <;> simp [Handles.next]

namespace Accounted

variable {h : Handles}

/-- What makes no handle and lets go of none. -/
theorem concat (hacts : Accounted acts h) (hclone : a.isClone = false)
    (hrelease : ∀ k, .release k ≠ a) : Accounted (acts ++ [a]) h := by
  have hmem : ∀ k, .release k ∈ acts ++ [a] ↔ .release k ∈ acts := fun k => by
    rw [List.mem_append, List.mem_singleton, or_iff_left (hrelease k)]
  refine ⟨?_, fun k hk => hacts.released k ((hmem k).1 hk), fun k => ?_⟩
  · rw [hacts.made, handlesMade_concat, hclone, if_neg Bool.false_ne_true, Nat.add_zero]
  · rw [hmem, hacts.held_iff]

theorem concat_clone (hacts : Accounted acts h) (k : Nat) :
    Accounted (acts ++ [.clone k]) h.clone := by
  have hmem : ∀ k', .release k' ∈ acts ++ [.clone k] ↔ .release k' ∈ acts := by simp
  refine ⟨?_, fun k' hk' => ?_, fun k' => ?_⟩
  · rw [Handles.next_clone, hacts.made, handlesMade_concat]
    rfl
  · rw [Handles.next_clone]
    exact Nat.lt_succ_of_lt (hacts.released k' ((hmem k').1 hk'))
  · rw [Handles.held_clone, hacts.held_iff, hmem, Handles.next_clone, Nat.lt_succ_iff_lt_or_eq,
      or_and_right]
    -- The handle that is new was not let go of.
    refine or_congr_right ⟨fun hk' => ⟨hk', fun hrelease => ?_⟩, And.left⟩
    exact Nat.ne_of_lt (hacts.released k' hrelease) hk'

theorem concat_release (hacts : Accounted acts h) {k : Nat} (hk : h.held[k]? = some true) :
    Accounted (acts ++ [.release k]) (h.drop k) := by
  have hmem : ∀ k', .release k' ∈ acts ++ [.release k] ↔ .release k' ∈ acts ∨ k' = k := by simp
  refine ⟨?_, fun k' hk' => ?_, fun k' => ?_⟩
  · rw [Handles.next_drop, hacts.made, handlesMade_concat]
    rfl
  · rw [Handles.next_drop]
    rcases (hmem k').1 hk' with hbefore | rfl
    · exact hacts.released k' hbefore
    · exact ((hacts.held_iff k').1 hk).1
  · rw [Handles.held_drop, hacts.held_iff, hmem, Handles.next_drop, not_or, and_assoc]

end Accounted

theorem accounted_step (hpossible : Possible a p) (h : Accounted acts p.handles) :
    Accounted (acts ++ [a]) (machine.step a p).handles := by
  cases a with
  | clone k => exact h.concat_clone k
  | release k => exact h.concat_release hpossible
  | look i =>
    have hhandles : (machine.step (.look i) p).handles = p.handles := handles_perform (.poll i) p
    rw [hhandles]
    exact h.concat rfl nofun
  | _ => exact h.concat rfl nofun

/-- Of every history, the handles that are held are those made and not let go of. -/
theorem accounted_run {acts : List (Act ε)} (hacts : machine.Allowed Possible acts {}) :
    Accounted acts (machine.run acts {}).handles := by
  -- What can be done last is seen from what was done before, so the last action is split off.
  induction acts using List.reverseRecOn with
  | nil => exact accounted_nil
  | append_singleton acts a ih =>
    obtain ⟨hbefore, hlast, -⟩ := (machine.allowed_append acts [a] {}).1 hacts
    rw [Machine.run_concat]
    exact accounted_step hlast (ih hbefore)

/-- Nothing can come any more just when each handle ever made was let go of. -/
theorem Accounted.alive_iff {h : Handles} (hacts : Accounted acts h) :
    h.alive = true ↔ ∃ k < handlesMade acts, .release k ∉ acts := by
  rw [Handles.alive_iff]
  refine exists_congr fun k => ?_
  rw [hacts.held_iff, hacts.made]

/-! ### What a look finds -/

theorem poll_eq_ready_iff {e : ε} :
    (p.poll i).1 = .ready e ↔ (p.pending i).head? = some e := by
  rw [poll]
  cases p.pending i <;> cases p.handles.alive <;> simp

theorem poll_eq_ended_iff :
    (p.poll i).1 = .ended ↔ p.pending i = [] ∧ ¬ p.handles.alive = true := by
  rw [poll]
  cases p.pending i <;> cases p.handles.alive <;> simp

theorem poll_eq_pending_iff :
    (p.poll i).1 = .pending ↔ p.pending i = [] ∧ p.handles.alive = true := by
  rw [poll]
  cases p.pending i <;> cases p.handles.alive <;> simp

/-- How the `i`-th subscription fares in the history `acts`, after which the publisher is `p`: what
    was done since the subscription was made is `during`, and what it was given is `got`. -/
structure Served (i : Nat) (acts during : List (Act ε)) (got : List ε) (p : Publisher ε) :
    Prop where
  /-- It got, or will find waiting, the events published since it was made, and no others. -/
  delivered : got ++ p.pending i = during.filterMap Act.event?
  /-- What it got depends on what was published and on when it looked itself. -/
  isolated : got = Mail.machine.log Mail.taken (during.filterMap (Act.mail? i)) []
  ready_iff : ∀ e, (p.poll i).1 = .ready e ↔ (p.pending i).head? = some e
  ended_iff : (p.poll i).1 = .ended ↔
    p.pending i = [] ∧ ∀ k < handlesMade acts, .release k ∈ acts
  pending_iff : (p.poll i).1 = .pending ↔
    p.pending i = [] ∧ ∃ k < handlesMade acts, .release k ∉ acts
  /-- Once it is dropped, it gets nothing more. -/
  dropped : ∀ after, machine.log (given i) (acts ++ .drop i :: after) {} = got

/-- What is published while a subscription is live comes to its own queue, and nothing else does. -/
theorem filterMap_event?_filterMap_mail? (i : Nat) (acts : List (Act ε)) :
    (acts.filterMap (Act.mail? i)).filterMap Mail.event? = acts.filterMap Act.event? := by
  rw [List.filterMap_filterMap]
  congr 1
  funext a
  cases a with
  | look j =>
    rw [Act.mail?]
    split
    · rfl
    · rfl
  | _ => rfl

/-- Until it is dropped, each subscription is given what is published, in order and each event once,
    whatever else is done with the publisher; it sees the end just when all handles are gone and
    nothing waits for it. -/
theorem serves {before during : List (Act ε)} {h i : Nat} (hi : (machine.run before {}).next = i)
    (hacts : machine.Allowed Possible (before ++ .subscribe h :: during) {})
    (hkept : .drop i ∉ during) :
    Served i (before ++ .subscribe h :: during) during
      (machine.log (given i) (before ++ .subscribe h :: during) {})
      (machine.run (before ++ .subscribe h :: during) {}) := by
  -- When it is made, the subscription is live, and its queue is empty.
  have hlive : (machine.run before {}).subscribe.Live i :=
    hi ▸ (machine.run before {}).live_subscribe_next
  have hnew : (machine.run before {}).subscribe.pending i = [] :=
    hi ▸ (machine.run before {}).pending_subscribe_next
  obtain ⟨hgiven, hpending, hlive'⟩ := hlive.mail_run hkept
  rw [hnew] at hgiven hpending
  have hrun : machine.run (before ++ .subscribe h :: during) {} =
      machine.run during (machine.run before {}).subscribe :=
    machine.run_append before (.subscribe h :: during) {}
  -- All that it was given, it was given since then.
  have hlog : machine.log (given i) (before ++ .subscribe h :: during) {} =
      Mail.machine.log Mail.taken (during.filterMap (Act.mail? i)) [] := by
    rw [Machine.log_append, log_given_of_next_le (Nat.le_of_eq hi), List.nil_append, ← hgiven]
    rfl
  rw [← hrun] at hpending hlive'
  have hhandles := accounted_run hacts
  refine ⟨?_, hlog, fun e => poll_eq_ready_iff, ?_, ?_, fun after => ?_⟩
  · rw [hlog, hpending, Mail.taken_append_run, List.nil_append, filterMap_event?_filterMap_mail?]
  · rw [poll_eq_ended_iff, hhandles.alive_iff]
    push Not
    rfl
  · rw [poll_eq_pending_iff, hhandles.alive_iff]
  · have hafter := hlive'.gone.log_given after
    rw [Machine.log_append, Machine.log_cons]
    exact (congrArg (_ ++ ·) hafter).trans (List.append_nil _)

/-- A second handle publishes as well; one subscription comes late, and another is dropped
    meanwhile. -/
theorem serves_late_subscription :
    Served 1
      [.subscribe 0, .clone 0, .publish 1 'a', .subscribe 1, .publish 0 'b', .drop 0, .look 1,
        .publish 1 'c', .release 0]
      [.publish 0 'b', .drop 0, .look 1, .publish 1 'c', .release 0] ['b']
      ⟨⟨[false, true]⟩, [⟨[], false, false⟩, ⟨['c'], true, true⟩]⟩ :=
  @serves Char [.subscribe 0, .clone 0, .publish 1 'a'] _ 1 1 rfl (by decide) (by decide)

end Publisher

end GridRobot
