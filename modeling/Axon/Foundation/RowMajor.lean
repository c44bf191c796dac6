import Mathlib.Algebra.BigOperators.Group.List.Basic
import Mathlib.Algebra.Order.Group.Nat
import Mathlib.Data.List.Forall2
import Mathlib.Tactic.Common

/-! # Row-major arrays

An array with the extents `dims` stores its elements in row-major order, the last index running fastest.

* **`IsIndex dims idx`**: `idx` is an index into such an array.
* **`rowMajor dims idx`** is the position of the element at `idx`.
* **`forall_rowMajor_iff`**: what holds of all positions of an array is what holds of all numbers below
  the product of its extents. -/

namespace Axon.Foundation

/-- One index for each extent, and below it. -/
def IsIndex (dims idx : List ℕ) : Prop := List.Forall₂ (fun d i => i < d) dims idx

/-- The position of an element, counted in elements. -/
def rowMajor : List ℕ → List ℕ → ℕ
  | _ :: dims, i :: idx => i * dims.prod + rowMajor dims idx
  | _, _ => 0

/-- Every index is stored before the end of the array. -/
theorem rowMajor_lt_prod {dims idx : List ℕ} (h : IsIndex dims idx) : rowMajor dims idx < dims.prod := by
  induction h with
  | nil => exact Nat.one_pos
  | @cons d i dims idx hi _ ih =>
      rw [rowMajor, List.prod_cons]
      calc i * dims.prod + rowMajor dims idx
          < i * dims.prod + dims.prod := Nat.add_lt_add_left ih _
        _ = (i + 1) * dims.prod := (Nat.succ_mul i dims.prod).symm
        _ ≤ d * dims.prod := Nat.mul_le_mul_right _ hi

/-- Every position before the end of the array is that of some index. -/
theorem exists_rowMajor_eq {dims : List ℕ} {k : ℕ} (h : k < dims.prod) :
    ∃ idx, IsIndex dims idx ∧ rowMajor dims idx = k := by
  induction dims generalizing k with
  | nil =>
      obtain rfl : k = 0 := Nat.lt_one_iff.mp h
      exact ⟨[], .nil, rfl⟩
  | cons d dims ih =>
      rw [List.prod_cons] at h
      have hpos : 0 < dims.prod := Nat.pos_of_ne_zero fun h0 => by simp [h0] at h
      obtain ⟨idx, hidx, hk⟩ := ih (Nat.mod_lt k hpos)
      refine ⟨k / dims.prod :: idx, .cons (Nat.div_lt_of_lt_mul (Nat.mul_comm d _ ▸ h)) hidx, ?_⟩
      rw [rowMajor, hk, Nat.div_add_mod']

/-- **The positions of an array** are the numbers below the product of its extents. -/
theorem forall_rowMajor_iff {dims : List ℕ} {P : ℕ → Prop} :
    (∀ idx, IsIndex dims idx → P (rowMajor dims idx)) ↔ ∀ k < dims.prod, P k := by
  constructor
  · intro h k hk
    obtain ⟨idx, hidx, rfl⟩ := exists_rowMajor_eq hk
    exact h idx hidx
  · intro h idx hidx
    exact h _ (rowMajor_lt_prod hidx)

/-- **The footprint of an array**: all elements, of `w` bytes each, lie within `size` bytes exactly when
their number times `w` is at most `size`. -/
theorem forall_element_le_iff {dims : List ℕ} {w size : ℕ} :
    (∀ idx, IsIndex dims idx → rowMajor dims idx * w + w ≤ size) ↔ dims.prod * w ≤ size := by
  rw [forall_rowMajor_iff (P := fun k => k * w + w ≤ size)]
  constructor
  · intro h
    rcases Nat.eq_zero_or_pos dims.prod with h0 | hpos
    · rw [h0, Nat.zero_mul]
      exact Nat.zero_le _
    · have := h (dims.prod - 1) (Nat.sub_lt hpos Nat.one_pos)
      rwa [← Nat.succ_mul, Nat.succ_eq_add_one, Nat.sub_add_cancel hpos] at this
  · intro h k hk
    calc k * w + w = (k + 1) * w := (Nat.succ_mul k w).symm
      _ ≤ dims.prod * w := Nat.mul_le_mul_right _ hk
      _ ≤ size := h

end Axon.Foundation
