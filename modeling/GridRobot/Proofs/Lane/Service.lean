import GridRobot.Proofs.Lane.Clock
import Mathlib.Order.Bounds.Defs

/-!
# The order of service

The items that are put into the queue of a lane are numbered, and so are those
that are taken out of it. Wherever a tick stands among the beats of a lane, it
takes the item with the number `k` if and only if it is the first tick that
comes after that item was queued and after the item before it was taken
(`Lane.Serves.isNth_iff`). It does not matter which of the loops ticks.
-/

namespace GridRobot

/-- Of the entries of which `f` tells something, the one in place `n` has the number `k`, and `f`
    tells `x` of it. -/
def IsNth {β γ : Type} (f : β → Option γ) (bs : List β) (k n : Nat) (x : γ) : Prop :=
  bs[n]?.bind f = some x ∧ ((bs.take n).filterMap f).length = k

section IsNth

variable {β γ : Type} {f : β → Option γ} {bs : List β} {k n : Nat}

theorem filterMap_take_succ (f : β → Option γ) (bs : List β) (n : Nat) :
    (bs.take (n + 1)).filterMap f = (bs.take n).filterMap f ++ (bs[n]?.bind f).toList := by
  rw [List.take_add_one, List.filterMap_append]
  cases bs[n]? with
  | none => rfl
  | some b => cases hb : f b <;> simp [hb]

theorem filterMap_take_length_mono (f : β → Option γ) (bs : List β) {m n : Nat} (h : m ≤ n) :
    ((bs.take m).filterMap f).length ≤ ((bs.take n).filterMap f).length :=
  ((List.take_sublist_take_left h).filterMap f).length_le

/-- There are more than `k` of them before the place `n` if and only if the one with the number `k`
    stands there. -/
theorem lt_length_filterMap_take_iff :
    k < ((bs.take n).filterMap f).length ↔ ∃ m < n, ∃ x, IsNth f bs k m x := by
  induction n with
  | zero => simp
  | succ n ih =>
    rw [filterMap_take_succ, List.length_append]
    constructor
    · intro hk
      by_cases hlt : k < ((bs.take n).filterMap f).length
      · obtain ⟨m, hm, h⟩ := ih.1 hlt
        exact ⟨m, Nat.lt_succ_of_lt hm, h⟩
      · cases hb : bs[n]?.bind f with
        | none => simp [hb] at hk; omega
        | some x =>
          simp only [hb, Option.toList_some, List.length_singleton] at hk
          exact ⟨n, Nat.lt_succ_self n, x, hb, by omega⟩
    · rintro ⟨m, hm, x, hx, hcount⟩
      rcases Nat.lt_or_eq_of_le (Nat.le_of_lt_succ hm) with hlt | rfl
      · exact Nat.lt_add_right _ (ih.2 ⟨m, hlt, x, hx, hcount⟩)
      · simp [hx, hcount]

/-- It tells what comes in the place `k` of all that `f` tells. -/
theorem IsNth.getElem? {x : γ} (h : IsNth f bs k n x) : (bs.filterMap f)[k]? = some x := by
  obtain ⟨hx, hcount⟩ := h
  have hsplit : bs.filterMap f =
      (bs.take (n + 1)).filterMap f ++ (bs.drop (n + 1)).filterMap f := by
    rw [← List.filterMap_append, List.take_append_drop]
  rw [hsplit, filterMap_take_succ, hx, List.append_assoc, List.getElem?_append_right (by omega)]
  simp [hcount]

end IsNth

namespace Lane

variable {α : Type} {bs : List (Beat α)} {q : List α} {k n : Nat}

/-- The beat in the place `n` is a tick. -/
def TickAt (bs : List (Beat α)) (n : Nat) : Prop := ∃ t, bs[n]? = some (.ticked t)

/-- The places of the ticks after the item with the number `k` was queued and the one before it was
    taken. -/
def turns (bs : List (Beat α)) (k : Nat) : Set Nat :=
  {n | TickAt bs n ∧ (∃ m < n, ∃ x, IsNth Beat.queued? bs k m x) ∧
    ∀ j, k = j + 1 → ∃ m < n, ∃ x, IsNth Beat.served? bs j m x}

theorem mem_turns_iff : n ∈ turns bs k ↔ TickAt bs n ∧
    k < ((bs.take n).filterMap Beat.queued?).length ∧
      k ≤ ((bs.take n).filterMap Beat.served?).length := by
  have hbefore : (∀ j, k = j + 1 → ∃ m < n, ∃ x, IsNth Beat.served? bs j m x) ↔
      k ≤ ((bs.take n).filterMap Beat.served?).length := by
    simp only [← lt_length_filterMap_take_iff]
    cases k with
    | zero => simp
    | succ k => exact ⟨fun h => h k rfl, fun h j hj => Nat.succ.inj hj ▸ h⟩
  show TickAt bs n ∧ (∃ m < n, ∃ x, IsNth Beat.queued? bs k m x) ∧ _ ↔ _
  rw [hbefore, ← lt_length_filterMap_take_iff]

namespace Serves

/-- A tick takes an item if and only if one was queued that has not been taken. -/
theorem served_isSome_iff (h : Serves [] bs q) (hn : TickAt bs n) :
    (∃ x, bs[n]?.bind Beat.served? = some x) ↔
      ((bs.take n).filterMap Beat.served?).length <
        ((bs.take n).filterMap Beat.queued?).length := by
  obtain ⟨t, ht⟩ := hn
  obtain ⟨hlt, hget⟩ := List.getElem?_eq_some_iff.1 ht
  rw [← List.take_append_drop n bs, List.drop_eq_getElem_cons hlt, hget] at h
  obtain ⟨waiting, hbefore, hitem, -⟩ := h.exists_of_append
  have hcount := congrArg List.length hbefore.served_append
  rw [List.nil_append, List.length_append] at hcount
  rw [ht, Option.bind_some, Beat.served?_ticked, hitem, ← hcount]
  cases waiting <;> simp

theorem tickAt_of_isNth {x : α} (h : IsNth Beat.served? bs k n x) : TickAt bs n := by
  obtain ⟨b, hb, hx⟩ := Option.bind_eq_some_iff.1 h.1
  cases b with
  | queued y => cases hx
  | ticked t => exact ⟨t, hb⟩

/-- The item with the number `k` is taken by the first tick that comes after it was queued and after
    the one before it was taken. -/
theorem exists_isNth_iff (h : Serves [] bs q) :
    (∃ x, IsNth Beat.served? bs k n x) ↔ IsLeast (turns bs k) n := by
  constructor
  · rintro ⟨x, hx⟩
    have htick := tickAt_of_isNth hx
    have hfree := (h.served_isSome_iff htick).1 ⟨x, hx.1⟩
    refine ⟨mem_turns_iff.2 ⟨htick, hx.2 ▸ hfree, Nat.le_of_eq hx.2.symm⟩, fun m hm => ?_⟩
    -- A tick before that could have taken the item would have done so.
    obtain ⟨htick', hqueued, hserved⟩ := mem_turns_iff.1 hm
    refine Nat.le_of_not_lt fun hlt => ?_
    have hmono := filterMap_take_length_mono Beat.served? bs hlt
    have hmono' := filterMap_take_length_mono Beat.served? bs (Nat.le_of_lt hlt)
    obtain ⟨y, hy⟩ := (h.served_isSome_iff htick').2 (by have := hx.2; omega)
    rw [filterMap_take_succ, hy, List.length_append, Option.toList_some, List.length_singleton]
      at hmono
    have := hx.2
    omega
  · rintro ⟨hmem, hleast⟩
    obtain ⟨htick, hqueued, hserved⟩ := mem_turns_iff.1 hmem
    -- Otherwise the item was taken before, by a tick whose turn it was.
    have hcount : ((bs.take n).filterMap Beat.served?).length = k := by
      refine Nat.le_antisymm (Nat.le_of_not_lt fun hlt => ?_) hserved
      obtain ⟨m, hm, x, hx⟩ := lt_length_filterMap_take_iff.1 hlt
      have htick' := tickAt_of_isNth hx
      have hfree := (h.served_isSome_iff htick').1 ⟨x, hx.1⟩
      have hturn : m ∈ turns bs k :=
        mem_turns_iff.2 ⟨htick', hx.2 ▸ hfree, Nat.le_of_eq hx.2.symm⟩
      exact Nat.not_le_of_lt hm (hleast hturn)
    obtain ⟨x, hx⟩ := (h.served_isSome_iff htick).2 (hcount ▸ hqueued)
    exact ⟨x, hx, hcount⟩

/-- What is taken is what was queued with the same number. -/
theorem getElem?_queued (h : Serves [] bs q) {x : α} (hx : IsNth Beat.served? bs k n x) :
    (bs.filterMap Beat.queued?)[k]? = some x := by
  have hget := hx.getElem?
  have happend := h.served_append
  rw [List.nil_append] at happend
  rw [← happend, List.getElem?_append_left (List.getElem?_eq_some_iff.1 hget).1, hget]

/-- The item with the number `k` is the one that was queued with this number, and it is taken by the
    first tick that comes after that and after the item before it was taken. -/
theorem isNth_iff (h : Serves [] bs q) (k n : Nat) (x : α) :
    IsNth Beat.served? bs k n x ↔
      (bs.filterMap Beat.queued?)[k]? = some x ∧ IsLeast (turns bs k) n := by
  constructor
  · exact fun hx => ⟨h.getElem?_queued hx, h.exists_isNth_iff.1 ⟨x, hx⟩⟩
  · rintro ⟨hqueued, hleast⟩
    obtain ⟨y, hy⟩ := h.exists_isNth_iff.2 hleast
    rw [h.getElem?_queued hy] at hqueued
    exact Option.some.inj hqueued ▸ hy

end Serves

end Lane

end GridRobot
