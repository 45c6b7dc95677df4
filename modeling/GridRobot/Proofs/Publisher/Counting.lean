import GridRobot.Proofs.Publisher.Delivery
import Mathlib.Data.List.DropRight
import Mathlib.Data.List.Perm.Basic

/-!
# What a publisher counts

A publisher notices that a subscription was dropped only when it publishes the
next event. So it counts the subscriptions that are live after a history
(`live`) and those that were dropped since the last event (`justDropped`), and
no others (`Census`): publishing an event takes the latter off its list, and all
else leaves the list as it is or puts a new subscription on it.

* `census_run`: the census of every history;
* `Census.count_eq`: the number of subscriptions that are counted;
* `Census.forgotten`: what has been taken off the list stays off it;
* `counts_live`: all this put together.
-/

namespace GridRobot

namespace Publisher

variable {ε : Type} {p : Publisher ε} {i j : Nat} {a : Act ε} {acts : List (Act ε)}

/-! ### Listed subscriptions -/

/-- Whether the `i`-th subscription is counted. -/
def listed (i : Nat) (p : Publisher ε) : Bool := p.mailboxes[i]?.any Mailbox.listed

theorem count_eq_countP_listed (p : Publisher ε) :
    p.count = (List.range p.next).countP p.listed := by
  have hcount : ∀ ms : List (Mailbox ε),
      ms.countP Mailbox.listed = (List.range ms.length).countP (ms[·]?.any Mailbox.listed) := by
    intro ms
    induction ms using List.reverseRecOn with
    | nil => rfl
    | append_singleton ms m ih =>
      have hbefore : ∀ i ∈ List.range ms.length,
          (ms[i]?.any Mailbox.listed = true ↔ (ms ++ [m])[i]?.any Mailbox.listed = true) := by
        intro i hi
        rw [List.getElem?_append_left (List.mem_range.1 hi)]
      rw [List.countP_append, List.length_append, List.length_singleton, List.range_succ,
        List.countP_append, ih, List.countP_congr hbefore, List.countP_singleton,
        List.countP_singleton, List.getElem?_concat_length, Option.any_some]
  exact hcount p.mailboxes

theorem attached_eq (i : Nat) (p : Publisher ε) :
    p.attached i = p.mailboxes[i]?.any Mailbox.attached := by
  rw [attached]
  cases p.mailboxes[i]? <;> rfl

/-- A new subscription is live and counted; the others are as they were. -/
theorem flags_subscribe (i : Nat) (p : Publisher ε) :
    (p.subscribe.attached i = true ↔ p.attached i = true ∨ i = p.next) ∧
      (p.subscribe.listed i = true ↔ p.listed i = true ∨ i = p.next) := by
  rw [attached_eq, attached_eq, listed, listed, subscribe, next, List.getElem?_append]
  grind

/-- Of the subscriptions that are counted, only the live ones still are after an event. -/
theorem flags_publish (e : ε) (i : Nat) (p : Publisher ε) :
    (p.publish e).attached i = p.attached i ∧
      ((p.publish e).listed i = true ↔ p.listed i = true ∧ p.attached i = true) := by
  rw [attached_eq, attached_eq, listed, listed, publish, List.getElem?_map]
  cases p.mailboxes[i]? with
  | none => simp
  | some m =>
    rw [Option.map_some, Option.any_some, Option.any_some, Option.any_some, Option.any_some,
      Mailbox.deliver]
    split
    · next hlisted =>
      split
      · next hattached => simp [hattached, hlisted]
      · next hattached => simp [hattached]
    · next hlisted => simp [hlisted]

/-- A subscription that is dropped is still counted. -/
theorem flags_dropSubscription (i j : Nat) (p : Publisher ε) :
    ((p.dropSubscription j).attached i = true ↔ p.attached i = true ∧ i ≠ j) ∧
      (p.dropSubscription j).listed i = p.listed i := by
  rw [attached_eq, attached_eq, listed, listed, dropSubscription, List.getElem?_modify]
  cases p.mailboxes[i]? <;> grind [Mailbox.drop]

theorem flags_poll (i j : Nat) (p : Publisher ε) :
    (p.poll j).2.attached i = p.attached i ∧ (p.poll j).2.listed i = p.listed i := by
  rcases p.poll_cases j with ⟨e, rest, -, hpoll⟩ | ⟨-, -, hpoll⟩
  · rw [hpoll, attached_eq, attached_eq, listed, listed, advance, List.getElem?_modify]
    cases p.mailboxes[i]? <;> grind [Mailbox.rest]
  · rw [hpoll]
    exact ⟨rfl, rfl⟩

/-! ### Histories -/

/-- A subscription is made. -/
def Act.isSubscribe : Act ε → Bool
  | .subscribe _ => true
  | _ => false

/-- No event is published. -/
def Act.isQuiet : Act ε → Bool
  | .publish _ _ => false
  | _ => true

/-- The subscription that is dropped. -/
def Act.dropped? : Act ε → Option Nat
  | .drop i => some i
  | _ => none

/-- The number of subscriptions made in a history. -/
def subscriptionsMade (acts : List (Act ε)) : Nat := acts.countP Act.isSubscribe

/-- The subscriptions dropped in a history. -/
def dropped (acts : List (Act ε)) : List Nat := acts.filterMap Act.dropped?

/-- The subscriptions that were made and not dropped. -/
def live (acts : List (Act ε)) : List Nat :=
  (List.range (subscriptionsMade acts)).filter (· ∉ dropped acts)

/-- What was done since the last event was published, or at all if none was. -/
def sinceEvent (acts : List (Act ε)) : List (Act ε) := acts.rtakeWhile Act.isQuiet

/-- The subscriptions that were dropped since the last event. -/
def justDropped (acts : List (Act ε)) : List Nat := dropped (sinceEvent acts)

theorem mem_live : i ∈ live acts ↔ i < subscriptionsMade acts ∧ i ∉ dropped acts := by
  rw [live, List.mem_filter, List.mem_range, decide_eq_true_iff]

theorem justDropped_sublist (acts : List (Act ε)) : (justDropped acts).Sublist (dropped acts) :=
  (List.rtakeWhile_suffix _ acts).sublist.filterMap _

theorem subscriptionsMade_concat (acts : List (Act ε)) (a : Act ε) :
    subscriptionsMade (acts ++ [a]) = subscriptionsMade acts + if a.isSubscribe then 1 else 0 := by
  rw [subscriptionsMade, List.countP_append, List.countP_singleton, subscriptionsMade]

theorem dropped_append (acts acts' : List (Act ε)) :
    dropped (acts ++ acts') = dropped acts ++ dropped acts' := List.filterMap_append

theorem justDropped_concat (acts : List (Act ε)) (a : Act ε) :
    justDropped (acts ++ [a]) = if a.isQuiet then justDropped acts ++ dropped [a] else [] := by
  rw [justDropped, sinceEvent, List.rtakeWhile_concat]
  split
  · exact dropped_append _ _
  · rfl

theorem mem_justDropped_append {acts more : List (Act ε)} (h : i ∈ justDropped (acts ++ more)) :
    i ∈ justDropped acts ∨ i ∈ dropped more := by
  induction more using List.reverseRecOn with
  | nil => exact .inl (List.append_nil acts ▸ h)
  | append_singleton more a ih =>
    rw [← List.append_assoc, justDropped_concat] at h
    rw [dropped_append, List.mem_append, ← or_assoc]
    split at h
    · exact (List.mem_append.1 h).imp_left ih
    · cases h

/-- An event neither makes nor drops a subscription. -/
theorem lives_concat_publish (acts : List (Act ε)) (h : Nat) (e : ε) :
    subscriptionsMade (acts ++ [.publish h e]) = subscriptionsMade acts ∧
      dropped (acts ++ [.publish h e]) = dropped acts ∧
      live (acts ++ [.publish h e]) = live acts := by
  have hmade : subscriptionsMade (acts ++ [.publish h e]) = subscriptionsMade acts :=
    subscriptionsMade_concat acts _
  have hdrop : dropped (acts ++ [.publish h e]) = dropped acts := by
    rw [dropped_append]
    exact List.append_nil _
  exact ⟨hmade, hdrop, by rw [live, hmade, hdrop, live]⟩

/-- What the publisher knows of a history. -/
structure Census (acts : List (Act ε)) (p : Publisher ε) : Prop where
  made : p.next = subscriptionsMade acts
  dropped_lt : ∀ i ∈ dropped acts, i < subscriptionsMade acts
  dropped_nodup : (dropped acts).Nodup
  attached_iff : ∀ i, p.attached i = true ↔ i ∈ live acts
  listed_iff : ∀ i, p.listed i = true ↔ i ∈ live acts ∨ i ∈ justDropped acts

theorem census_nil : Census ([] : List (Act ε)) {} where
  made := rfl
  dropped_lt _ h := nomatch h
  dropped_nodup := .nil
  attached_iff i := by simp [live, subscriptionsMade, attached]
  listed_iff i := by simp [live, subscriptionsMade, listed, justDropped, sinceEvent, dropped]

/-- What neither makes nor drops a subscription, and publishes nothing. -/
theorem Census.concat {p' : Publisher ε} (h : Census acts p) (hmade : a.isSubscribe = false)
    (hdropped : a.dropped? = none) (hquiet : a.isQuiet = true) (hnext : p'.next = p.next)
    (hflags : ∀ i, p'.attached i = p.attached i ∧ p'.listed i = p.listed i) :
    Census (acts ++ [a]) p' := by
  have hsame : subscriptionsMade (acts ++ [a]) = subscriptionsMade acts := by
    rw [subscriptionsMade_concat, hmade, if_neg Bool.false_ne_true, Nat.add_zero]
  have hnone : dropped [a] = [] := List.filterMap_cons_none hdropped
  have hdrop : dropped (acts ++ [a]) = dropped acts := by
    rw [dropped_append, hnone, List.append_nil]
  have hlive : live (acts ++ [a]) = live acts := by rw [live, hsame, hdrop, live]
  have hjust : justDropped (acts ++ [a]) = justDropped acts := by
    rw [justDropped_concat, if_pos hquiet, hnone, List.append_nil]
  constructor
  · rw [hnext, h.made, hsame]
  · rw [hdrop, hsame]
    exact h.dropped_lt
  · rw [hdrop]
    exact h.dropped_nodup
  · intro i
    rw [hlive, (hflags i).1, h.attached_iff]
  · intro i
    rw [hlive, hjust, (hflags i).2, h.listed_iff]

theorem Census.concat_subscribe (hc : Census acts p) (h : Nat) :
    Census (acts ++ [.subscribe h]) p.subscribe := by
  have hmade : subscriptionsMade (acts ++ [.subscribe h]) = subscriptionsMade acts + 1 :=
    subscriptionsMade_concat acts _
  have hdrop : dropped (acts ++ [.subscribe h]) = dropped acts := by
    rw [dropped_append]
    exact List.append_nil _
  have hjust : justDropped (acts ++ [.subscribe h]) = justDropped acts :=
    (justDropped_concat acts _).trans (List.append_nil _)
  -- The number of the new subscription was free, so that no subscription of this number was dropped.
  have hlive : ∀ i, i ∈ live (acts ++ [.subscribe h]) ↔ i ∈ live acts ∨ i = p.next := by
    intro i
    have hlt := hc.dropped_lt i
    rw [mem_live, mem_live, hmade, hdrop, hc.made]
    grind
  constructor
  · rw [hmade, ← hc.made]
    exact List.length_append
  · rw [hdrop, hmade]
    exact fun i hi => Nat.lt_succ_of_lt (hc.dropped_lt i hi)
  · rw [hdrop]
    exact hc.dropped_nodup
  · intro i
    rw [(flags_subscribe i p).1, hlive, hc.attached_iff]
  · intro i
    rw [(flags_subscribe i p).2, hlive, hjust, hc.listed_iff, or_right_comm]

theorem Census.concat_publish (hc : Census acts p) (h : Nat) (e : ε) :
    Census (acts ++ [.publish h e]) (p.publish e) := by
  obtain ⟨hmade, hdrop, hlive⟩ := lives_concat_publish acts h e
  have hjust : justDropped (acts ++ [.publish h e]) = [] := justDropped_concat acts _
  constructor
  · rw [hmade, ← hc.made]
    exact List.length_map _
  · rw [hdrop, hmade]
    exact hc.dropped_lt
  · rw [hdrop]
    exact hc.dropped_nodup
  · intro i
    rw [(flags_publish e i p).1, hlive, hc.attached_iff]
  · intro i
    rw [(flags_publish e i p).2, hlive, hjust, hc.attached_iff, hc.listed_iff]
    grind

theorem Census.concat_drop (hc : Census acts p) (hj : p.attached j = true) :
    Census (acts ++ [.drop j]) (p.dropSubscription j) := by
  have hmade : subscriptionsMade (acts ++ [.drop j]) = subscriptionsMade acts :=
    subscriptionsMade_concat acts _
  have hdrop : dropped (acts ++ [.drop j]) = dropped acts ++ [j] := dropped_append acts _
  have hjust : justDropped (acts ++ [.drop j]) = justDropped acts ++ [j] :=
    (justDropped_concat acts _).trans (if_pos rfl)
  have hjlive : j ∈ live acts := (hc.attached_iff j).1 hj
  obtain ⟨hjlt, hjnew⟩ := mem_live.1 hjlive
  have hlive : ∀ i, i ∈ live (acts ++ [.drop j]) ↔ i ∈ live acts ∧ i ≠ j := by
    intro i
    rw [mem_live, mem_live, hmade, hdrop, List.mem_append, List.mem_singleton, not_or, and_assoc]
  constructor
  · rw [hmade, ← hc.made]
    exact List.length_modify ..
  · rw [hdrop, hmade]
    exact List.forall_mem_append.2 ⟨hc.dropped_lt, List.forall_mem_singleton.2 hjlt⟩
  · rw [hdrop]
    refine List.nodup_append.2 ⟨hc.dropped_nodup, List.pairwise_singleton _ j, ?_⟩
    rintro i hi k hk rfl
    exact hjnew (List.mem_singleton.1 hk ▸ hi)
  · intro i
    rw [(flags_dropSubscription i j p).1, hlive, hc.attached_iff]
  · intro i
    rw [(flags_dropSubscription i j p).2, hlive, hjust, hc.listed_iff, List.mem_append,
      List.mem_singleton]
    grind

theorem census_step (ha : Possible a p) (h : Census acts p) :
    Census (acts ++ [a]) (machine.step a p) := by
  cases a with
  | subscribe k => exact h.concat_subscribe k
  | publish k e => exact h.concat_publish k e
  | clone k => exact h.concat rfl rfl rfl rfl fun _ => ⟨rfl, rfl⟩
  | release k => exact h.concat rfl rfl rfl rfl fun _ => ⟨rfl, rfl⟩
  | look j => exact h.concat rfl rfl rfl (p.next_poll j) fun i => flags_poll i j p
  | drop j => exact h.concat_drop ha

/-- The publisher knows of every history what it has to know. -/
theorem census_run {acts : List (Act ε)} (hacts : machine.Allowed Possible acts {}) :
    Census acts (machine.run acts {}) := by
  induction acts using List.reverseRecOn with
  | nil => exact census_nil
  | append_singleton acts a ih =>
    obtain ⟨hbefore, hlast, -⟩ := (machine.allowed_append acts [a] {}).1 hacts
    rw [Machine.run_concat]
    exact census_step hlast (ih hbefore)

/-! ### Counting -/

namespace Census

/-- Counted are the live subscriptions and those just dropped. -/
theorem count_eq (h : Census acts p) :
    p.count = (live acts).length + (justDropped acts).length := by
  have hnodup : (live acts ++ justDropped acts).Nodup := by
    refine List.nodup_append.2 ⟨List.nodup_range.filter _,
      h.dropped_nodup.sublist (justDropped_sublist acts), ?_⟩
    rintro i hi k hk rfl
    exact (mem_live.1 hi).2 ((justDropped_sublist acts).subset hk)
  have hperm : ((List.range p.next).filter p.listed).Perm (live acts ++ justDropped acts) := by
    refine (List.perm_ext_iff_of_nodup (List.nodup_range.filter _) hnodup).2 fun i => ?_
    rw [List.mem_filter, List.mem_range, h.listed_iff, List.mem_append, h.made]
    refine and_iff_right_of_imp ?_
    rintro (hi | hi)
    · exact (mem_live.1 hi).1
    · exact h.dropped_lt i ((justDropped_sublist acts).subset hi)
  rw [count_eq_countP_listed, List.countP_eq_length_filter, hperm.length_eq, List.length_append]

/-- Right after an event, just the live subscriptions are counted. -/
theorem count_publish (h : Census acts p) (e : ε) : (p.publish e).count = (live acts).length := by
  rw [(h.concat_publish 0 e).count_eq, justDropped_concat, (lives_concat_publish acts 0 e).2.2]
  rfl

/-- An event comes to the live subscriptions and to no others. -/
theorem pending_publish (h : Census acts p) (e : ε) (i : Nat) :
    (p.publish e).pending i = p.pending i ++ if i ∈ live acts then [e] else [] := by
  cases hm : p.mailboxes[i]? with
  | none =>
    have hgone : i ∉ live acts := by
      rw [← h.attached_iff, attached_eq, hm]
      exact Bool.false_ne_true
    rw [if_neg hgone, List.append_nil, pending, publish, List.getElem?_map, hm, pending, hm]
    rfl
  | some m =>
    by_cases hi : i ∈ live acts
    · have hattached := (h.attached_iff i).2 hi
      have hlisted := (h.listed_iff i).2 (.inl hi)
      rw [attached_eq, hm] at hattached
      rw [listed, hm] at hlisted
      rw [if_pos hi]
      exact Live.pending_publish ⟨m, hm, hattached, hlisted⟩ e
    · have hattached : m.attached = false := by
        rw [← h.attached_iff, attached_eq, hm] at hi
        exact Bool.eq_false_iff.2 hi
      have hdeliver : (p.publish e).mailboxes[i]? = some (m.deliver e) := by
        rw [publish, List.getElem?_map, hm, Option.map_some]
      rw [if_neg hi, List.append_nil, pending_of_getElem? hdeliver, pending_of_getElem? hm]
      exact (Mailbox.deliver_of_not_attached e hattached).2

end Census

/-- A subscription that was dropped before the last event is not counted, whatever is done. -/
theorem not_listed_of_dropped {acts more : List (Act ε)}
    (hmore : machine.Allowed Possible (acts ++ more) {}) (hi : i ∈ dropped acts)
    (hold : i ∉ justDropped acts) : (machine.run (acts ++ more) {}).listed i = false := by
  have h := census_run hmore
  -- It is dropped once, and that was before the last event.
  have hnodup := h.dropped_nodup
  rw [dropped_append] at hnodup
  have honce : i ∉ dropped more := fun hi' => (List.nodup_append.1 hnodup).2.2 i hi i hi' rfl
  have hlive : i ∉ live (acts ++ more) := fun hlive =>
    (mem_live.1 hlive).2 (dropped_append acts more ▸ List.mem_append_left _ hi)
  have hjust : i ∉ justDropped (acts ++ more) := fun hjust =>
    (mem_justDropped_append hjust).elim hold honce
  refine Bool.eq_false_iff.2 fun hlisted => ?_
  exact ((h.listed_iff i).1 hlisted).elim hlive hjust

/-- What a publisher `p` counts after the history `acts`. -/
structure CountsLive (acts : List (Act ε)) (p : Publisher ε) : Prop where
  /-- An event is handed to as many subscriptions as are live, -/
  receivers : ∀ e, (p.publish e).count = (live acts).length
  /-- namely to these. -/
  received : ∀ e i, (p.publish e).pending i = p.pending i ++ if i ∈ live acts then [e] else []
  /-- Those dropped since the last event are still counted, -/
  count_eq : p.count = (live acts).length + (justDropped acts).length
  /-- and no others that were dropped. -/
  counted : p.count = (List.range p.next).countP p.listed ∧
    ∀ i, p.listed i = true ↔ i ∈ live acts ∨ i ∈ justDropped acts
  live_le : (live acts).length ≤ p.count
  /-- What is not counted any more never is again. -/
  forgotten : ∀ i ∈ dropped acts, i ∉ justDropped acts → ∀ more,
    machine.Allowed Possible (acts ++ more) {} → (machine.run (acts ++ more) {}).listed i = false

/-- Whatever is done with a publisher, an event is handed to the live subscriptions, and these are
    counted, together with those dropped since the last event. -/
theorem counts_live {acts : List (Act ε)} (hacts : machine.Allowed Possible acts {}) :
    CountsLive acts (machine.run acts {}) := by
  have h := census_run hacts
  refine ⟨h.count_publish, h.pending_publish, h.count_eq, ⟨count_eq_countP_listed _, h.listed_iff⟩,
    ?_, fun i hi hold more hmore => not_listed_of_dropped hmore hi hold⟩
  rw [h.count_eq]
  exact Nat.le_add_right _ _

/-- Of four subscriptions two are dropped, one of them before the last event. -/
theorem counts_live_two_dropped :
    CountsLive [.subscribe 0, .clone 0, .subscribe 1, .subscribe 0, .drop 1, .publish 1 'a',
        .release 0, .drop 0, .look 2, .subscribe 1]
      ⟨⟨[false, true]⟩, [⟨[], false, true⟩, ⟨[], false, false⟩, ⟨[], true, true⟩, {}]⟩ :=
  @counts_live Char [.subscribe 0, .clone 0, .subscribe 1, .subscribe 0, .drop 1, .publish 1 'a',
    .release 0, .drop 0, .look 2, .subscribe 1] (by decide)

end Publisher

end GridRobot
