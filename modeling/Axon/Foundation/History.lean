import Mathlib.Algebra.Order.Group.Nat
import Mathlib.Data.List.Basic
import Mathlib.Tactic.Common

/-! # Positions and counts in a growing history

A history is a list of events that grows at its end. Two things about it are used over and over: the
last position at which an event of some kind happened (`LastAt`), and how many events of some kind
happened before a position (`countP` on a prefix). This file relates both to the history with one more
event appended. -/

namespace Axon.Foundation

universe u

variable {α : Type u} {p : α → Prop} {tr : List α} {a : α} {i j : ℕ}

/-- An entry of a history stays where it is when the history grows. -/
theorem getElem?_snoc_of_some (h : tr[i]? = some a) (b : α) : (tr ++ [b])[i]? = some a := by
  rw [List.getElem?_append_left (List.getElem?_eq_some_iff.mp h).1, h]

/-- An entry of the grown history is an old entry, or the new one in the last position. -/
theorem getElem?_snoc_cases {b : α} (h : (tr ++ [b])[i]? = some a) :
    tr[i]? = some a ∨ (i = tr.length ∧ a = b) := by
  rcases lt_or_ge i tr.length with hlt | hge
  · rw [List.getElem?_append_left hlt] at h
    exact .inl h
  · rw [List.getElem?_append_right hge, List.getElem?_singleton] at h
    split_ifs at h with h0
    exact .inr ⟨by omega, (Option.some.inj h).symm⟩

/-- A prefix up to an existing position is unaffected by growth. -/
theorem take_snoc_of_le (h : i ≤ tr.length) (b : α) : (tr ++ [b]).take i = tr.take i :=
  List.take_append_of_le_length h

/-! ## The last position of a kind of event -/

/-- `LastAt p tr i`: the last event of `tr` that satisfies `p` is at position `i`. -/
def LastAt (p : α → Prop) (tr : List α) (i : ℕ) : Prop :=
  (∃ a, tr[i]? = some a ∧ p a) ∧ ∀ j a, i < j → tr[j]? = some a → ¬ p a

namespace LastAt

/-- The last match is in the trace. -/
theorem lt_length (h : LastAt p tr i) : i < tr.length := by
  obtain ⟨⟨a, ha, -⟩, -⟩ := h
  exact (List.getElem?_eq_some_iff.mp ha).1

/-- The last position is unique. -/
theorem unique (hi : LastAt p tr i) (hj : LastAt p tr j) : i = j := by
  obtain ⟨⟨a, ha, hpa⟩, hlast⟩ := hi
  obtain ⟨⟨b, hb, hpb⟩, hlast'⟩ := hj
  rcases lt_trichotomy i j with h | h | h
  · exact absurd hpb (hlast j b h hb)
  · exact h
  · exact absurd hpa (hlast' i a h ha)

/-- Appending an event of another kind keeps the last position. -/
theorem snoc_of_not (h : LastAt p tr i) {b : α} (hb : ¬ p b) : LastAt p (tr ++ [b]) i := by
  obtain ⟨⟨a, ha, hpa⟩, hlast⟩ := h
  refine ⟨⟨a, getElem?_snoc_of_some ha b, hpa⟩, fun j c hij hc => ?_⟩
  rcases getElem?_snoc_cases hc with hc | ⟨-, rfl⟩
  · exact hlast j c hij hc
  · exact hb

/-- Appending an event of the kind makes the new position the last one. -/
theorem snoc_self {b : α} (hb : p b) : LastAt p (tr ++ [b]) tr.length := by
  refine ⟨⟨b, by simp, hb⟩, fun j c hj hc => ?_⟩
  have := (List.getElem?_eq_some_iff.mp hc).1
  simp only [List.length_append, List.length_singleton] at this
  omega

/-- An event of the kind at `i`, and none after it before `j`, is the last one of the prefix of
length `j`. -/
theorem of_take (ha : tr[i]? = some a) (hpa : p a) (hij : i < j)
    (hq : ∀ q b, i < q → q < j → tr[q]? = some b → ¬ p b) : LastAt p (tr.take j) i := by
  refine ⟨⟨a, by rw [List.getElem?_take_of_lt hij, ha], hpa⟩, fun q b hiq hb => ?_⟩
  have hqj : q < j := by
    have := (List.getElem?_eq_some_iff.mp hb).1
    rw [List.length_take] at this
    omega
  rw [List.getElem?_take_of_lt hqj] at hb
  exact hq q b hiq hqj hb

end LastAt

/-! ## Counting the events before a position -/

section Count

variable (q : α → Bool)

/-- One event more counts if it matches. -/
theorem countP_snoc (tr : List α) (b : α) :
    (tr ++ [b]).countP q = tr.countP q + if q b then 1 else 0 := by
  rw [List.countP_append, List.countP_singleton]

/-- Longer prefixes count at least as much. -/
theorem countP_take_mono (tr : List α) (h : i ≤ j) : (tr.take i).countP q ≤ (tr.take j).countP q := by
  have : tr.take i = (tr.take j).take i := by rw [List.take_take, min_eq_left h]
  rw [this]
  exact (List.take_sublist i _).countP_le

/-- A prefix counts at most as much as the whole. -/
theorem countP_take_le (tr : List α) (i : ℕ) : (tr.take i).countP q ≤ tr.countP q :=
  (List.take_sublist i tr).countP_le

/-- If more is counted at `j` than at `i`, an event of the kind happened in between. -/
theorem exists_of_countP_take_lt (h : (tr.take i).countP q < (tr.take j).countP q) :
    ∃ k a, i ≤ k ∧ k < j ∧ tr[k]? = some a ∧ q a = true := by
  induction j with
  | zero => simp at h
  | succ j ih =>
      -- the count has grown before the last position, or with it
      rcases lt_or_ge ((tr.take i).countP q) ((tr.take j).countP q) with hlt | hge
      · obtain ⟨k, a, hik, hkj, hk⟩ := ih hlt
        exact ⟨k, a, hik, by omega, hk⟩
      · cases hj : tr[j]? with
        -- behind the end of the trace there is nothing to count
        | none =>
            have hlen : tr.length ≤ j := List.getElem?_eq_none_iff.mp hj
            rw [List.take_of_length_le (by omega : tr.length ≤ j + 1)] at h
            rw [List.take_of_length_le hlen] at hge
            omega
        | some a =>
            have hlt : j < tr.length := (List.getElem?_eq_some_iff.mp hj).1
            rw [List.take_add_one, hj, Option.toList_some, countP_snoc] at h
            -- the last event itself is counted
            refine ⟨j, a, ?_, by omega, hj, ?_⟩
            · by_contra hij
              have := countP_take_mono q tr (i := j + 1) (j := i) (by omega)
              rw [List.take_add_one, hj, Option.toList_some, countP_snoc] at this
              omega
            · by_contra hq
              rw [if_neg hq] at h
              omega

end Count

end Axon.Foundation
