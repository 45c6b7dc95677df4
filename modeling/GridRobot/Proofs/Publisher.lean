import GridRobot.Publisher

/-!
# What a live subscription receives

A subscription is live from its making until it is dropped. As long as it is
live, publishing an event puts the event last into its mailbox, and looking for
an event takes the first one out; nothing else touches the mailbox. So what a
live subscription finds, and what waits for it then, is what waited for it
before (`Publisher.Live.found_append_pending`).
-/

namespace GridRobot

/-- What was found by a look, if anything. -/
def Poll.toList {α : Type} : Poll α → List α
  | .ready a => [a]
  | .ended | .pending => []

namespace Publisher

variable {ε : Type} {p : Publisher ε} {i j : Nat}

/-- The `i`-th subscription has not been dropped. -/
def Live (i : Nat) (p : Publisher ε) : Prop :=
  ∃ m, p.mailboxes[i]? = some m ∧ m.attached = true ∧ m.listed = true

theorem pending_of_getElem? {m : Mailbox ε} (h : p.mailboxes[i]? = some m) :
    p.pending i = m.pending := by
  rw [pending, h]

/-! ### A new subscription -/

theorem getElem?_subscribe_next (p : Publisher ε) : p.subscribe.mailboxes[p.next]? = some {} :=
  List.getElem?_concat_length

theorem live_subscribe_next (p : Publisher ε) : p.subscribe.Live p.next :=
  ⟨{}, p.getElem?_subscribe_next, rfl, rfl⟩

theorem pending_subscribe_next (p : Publisher ε) : p.subscribe.pending p.next = [] :=
  pending_of_getElem? p.getElem?_subscribe_next

/-! ### A live subscription -/

theorem getElem?_subscribe {m : Mailbox ε} (h : p.mailboxes[i]? = some m) :
    p.subscribe.mailboxes[i]? = some m := by
  rw [subscribe, List.getElem?_append_left (List.getElem?_eq_some_iff.1 h).1, h]

theorem Live.subscribe (h : p.Live i) : p.subscribe.Live i := by
  obtain ⟨m, hm, hlive⟩ := h
  exact ⟨m, getElem?_subscribe hm, hlive⟩

theorem Live.pending_subscribe (h : p.Live i) : p.subscribe.pending i = p.pending i := by
  obtain ⟨m, hm, -⟩ := h
  rw [pending_of_getElem? hm, pending_of_getElem? (getElem?_subscribe hm)]

theorem Live.getElem?_publish (h : p.Live i) (e : ε) :
    ∃ m, (p.publish e).mailboxes[i]? = some m ∧ m.pending = p.pending i ++ [e] ∧
      m.attached = true ∧ m.listed = true := by
  obtain ⟨m, hm, hattached, hlisted⟩ := h
  refine ⟨{ m with pending := m.pending ++ [e] }, ?_, ?_, hattached, hlisted⟩
  · rw [publish, List.getElem?_map, hm, Option.map_some, Mailbox.deliver, if_pos hlisted,
      if_pos hattached]
  · rw [pending_of_getElem? hm]

theorem Live.publish (h : p.Live i) (e : ε) : (p.publish e).Live i := by
  obtain ⟨m, hm, -, hlive⟩ := h.getElem?_publish e
  exact ⟨m, hm, hlive⟩

/-- A live subscription receives what is published. -/
theorem Live.pending_publish (h : p.Live i) (e : ε) :
    (p.publish e).pending i = p.pending i ++ [e] := by
  obtain ⟨m, hm, hpending, -⟩ := h.getElem?_publish e
  rw [pending_of_getElem? hm, hpending]

theorem getElem?_dropSubscription_of_ne (h : j ≠ i) :
    (p.dropSubscription j).mailboxes[i]? = p.mailboxes[i]? :=
  List.getElem?_modify_ne _ _ h

theorem Live.dropSubscription_of_ne (hlive : p.Live i) (h : j ≠ i) :
    (p.dropSubscription j).Live i := by
  rw [Live, getElem?_dropSubscription_of_ne h]
  exact hlive

theorem pending_dropSubscription_of_ne (h : j ≠ i) :
    (p.dropSubscription j).pending i = p.pending i := by
  rw [pending, getElem?_dropSubscription_of_ne h, pending]

theorem poll_cases (j : Nat) (p : Publisher ε) :
    (∃ e rest, p.pending j = e :: rest ∧ p.poll j = (.ready e, p.advance j)) ∨
      (p.pending j = [] ∧ (p.poll j).1.toList = [] ∧ (p.poll j).2 = p) := by
  rw [poll]
  split
  · next e rest h => exact .inl ⟨e, rest, h, rfl⟩
  · next h =>
    refine .inr ⟨h, ?_, rfl⟩
    cases p.handles.alive <;> rfl

theorem getElem?_advance {m : Mailbox ε} (h : p.mailboxes[i]? = some m) :
    (p.advance j).mailboxes[i]? = some (if j = i then m.rest else m) := by
  rw [advance, List.getElem?_modify, h]
  split <;> rfl

theorem Live.poll (h : p.Live i) (j : Nat) : (p.poll j).2.Live i := by
  rcases p.poll_cases j with ⟨e, rest, -, hpoll⟩ | ⟨-, -, hpoll⟩
  · obtain ⟨m, hm, hlive⟩ := h
    rw [hpoll]
    refine ⟨_, getElem?_advance hm, ?_⟩
    split
    · exact hlive
    · exact hlive
  · rw [hpoll]
    exact h

/-- A subscription that looks for an event takes its first one. -/
theorem Live.poll_append_pending (h : p.Live i) :
    (p.poll i).1.toList ++ (p.poll i).2.pending i = p.pending i := by
  rcases p.poll_cases i with ⟨e, rest, hpending, hpoll⟩ | ⟨-, hnone, hpoll⟩
  · obtain ⟨m, hm, -⟩ := h
    rw [hpoll, pending_of_getElem? (getElem?_advance hm), if_pos rfl, hpending]
    rw [pending_of_getElem? hm] at hpending
    simp [Mailbox.rest, Poll.toList, hpending]
  · -- Nothing was found, as nothing was waiting.
    rw [hnone, hpoll, List.nil_append]

theorem Live.pending_poll {e : ε} {rest : List ε} (h : p.Live i)
    (hpending : p.pending i = e :: rest) : (p.poll i).2.pending i = rest := by
  have hfound := h.poll_append_pending
  have hready : (p.poll i).1 = .ready e := by rw [Publisher.poll, hpending]
  rw [hready, hpending] at hfound
  exact (List.cons.inj hfound).2

theorem Live.pending_poll_of_ne (h : p.Live i) (hne : j ≠ i) :
    (p.poll j).2.pending i = p.pending i := by
  rcases p.poll_cases j with ⟨e, rest, -, hpoll⟩ | ⟨-, -, hpoll⟩
  · obtain ⟨m, hm, -⟩ := h
    rw [hpoll, pending_of_getElem? (getElem?_advance hm), if_neg hne, pending_of_getElem? hm]
  · rw [hpoll]

/-! ### Calls -/

/-- What is done with the subscriptions of a publisher. -/
inductive Call
  | subscribe
  /-- The `i`-th subscription looks for an event. -/
  | poll (i : Nat)
  /-- The `i`-th subscription is dropped. -/
  | drop (i : Nat)

/-- The publisher after a call. -/
def perform : Call → Publisher ε → Publisher ε
  | .subscribe, p => p.subscribe
  | .poll i, p => (p.poll i).2
  | .drop i, p => p.dropSubscription i

/-- The event that the `i`-th subscription finds. -/
def found (i : Nat) : Call → Publisher ε → List ε
  | .poll j, p => if j = i then (p.poll j).1.toList else []
  | _, _ => []

theorem handles_perform (c : Call) (p : Publisher ε) : (p.perform c).handles = p.handles := by
  cases c with
  | poll i =>
    show (p.poll i).2.handles = p.handles
    rcases p.poll_cases i with ⟨e, rest, -, hpoll⟩ | ⟨-, -, hpoll⟩
    · rw [hpoll]
      rfl
    · rw [hpoll]
  | _ => rfl

variable {c : Call}

theorem Live.perform (hlive : p.Live i) (hc : c ≠ .drop i) : (p.perform c).Live i := by
  cases c with
  | subscribe => exact hlive.subscribe
  | poll j => exact hlive.poll j
  | drop j => exact hlive.dropSubscription_of_ne fun h => hc (by rw [h])

/-- Nothing is lost of what waits for a live subscription. -/
theorem Live.found_append_pending (hlive : p.Live i) (hc : c ≠ .drop i) :
    found i c p ++ (p.perform c).pending i = p.pending i := by
  cases c with
  | subscribe => exact hlive.pending_subscribe
  | poll j =>
    by_cases hj : j = i
    · subst hj
      rw [found, if_pos rfl]
      exact hlive.poll_append_pending
    · rw [found, if_neg hj, List.nil_append]
      exact hlive.pending_poll_of_ne hj
  | drop j => exact pending_dropSubscription_of_ne fun h => hc (by rw [h])

/-! ### A subscription that may not have been made yet -/

/-- The `i`-th subscription has not been dropped, though it may not have been made yet. -/
def Kept (i : Nat) (p : Publisher ε) : Prop := p.Live i ∨ p.next ≤ i

theorem pending_of_next_le (h : p.next ≤ i) : p.pending i = [] := by
  rw [pending, List.getElem?_eq_none h]

theorem Kept.live (h : p.Kept i) (hi : i < p.next) : p.Live i :=
  h.resolve_right (Nat.not_le_of_lt hi)

theorem next_poll (j : Nat) (p : Publisher ε) : (p.poll j).2.next = p.next := by
  rcases p.poll_cases j with ⟨e, rest, -, hpoll⟩ | ⟨-, -, hpoll⟩
  · rw [hpoll]
    exact List.length_modify ..
  · rw [hpoll]

/-- Nothing waits for a subscription that has just been made, or has not. -/
theorem kept_subscribe (h : p.next ≤ i) :
    p.subscribe.Kept i ∧ p.subscribe.pending i = [] := by
  rcases Nat.eq_or_lt_of_le h with rfl | hi
  · exact ⟨.inl p.live_subscribe_next, p.pending_subscribe_next⟩
  · have hnext : p.subscribe.next ≤ i := Nat.le_trans (Nat.le_of_eq List.length_append) hi
    exact ⟨.inr hnext, pending_of_next_le hnext⟩

theorem Kept.perform (h : p.Kept i) (hc : c ≠ .drop i) :
    (p.perform c).Kept i ∧ found i c p ++ (p.perform c).pending i = p.pending i := by
  rcases h with hlive | hnext
  · exact ⟨.inl (hlive.perform hc), hlive.found_append_pending hc⟩
  · rw [pending_of_next_le hnext]
    cases c with
    | subscribe => exact kept_subscribe hnext
    | poll j =>
      have hnext' : (p.poll j).2.next ≤ i := Nat.le_trans (Nat.le_of_eq (p.next_poll j)) hnext
      refine ⟨.inr hnext', ?_⟩
      rw [Publisher.perform, pending_of_next_le hnext', List.append_nil, found]
      split
      · next hj =>
        rw [hj, poll, pending_of_next_le hnext]
        cases p.handles.alive <;> rfl
      · rfl
    | drop j =>
      have hnext' : (p.dropSubscription j).next ≤ i :=
        Nat.le_trans (Nat.le_of_eq (List.length_modify ..)) hnext
      exact ⟨.inr hnext', pending_of_next_le hnext'⟩

end Publisher

end GridRobot
