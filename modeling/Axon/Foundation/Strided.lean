import Axon.Foundation.RowMajor
import Mathlib.Tactic.Linarith
import Mathlib.Tactic.Ring

/-! # Strided arrays

An array in memory has a stride for each extent: how many bytes lie between neighbours along it. Elements that
are `w` bytes wide and follow one another in row-major order are one case.

* **`strided strides idx`** is the place of the element at `idx`, in bytes from the first element.
* **`cStrides w dims`** are the strides in row-major order (`strided_cStrides`).
* **`IsCContiguous w dims strides`** is the test for it; by `isCContiguous_iff` an array without an empty
  extent passes it exactly when every element is in its row-major place. -/

namespace Axon.Foundation

/-- The place of an element, counted in bytes. Strides may be negative. -/
def strided : List ℤ → List ℕ → ℤ
  | st :: strides, i :: idx => i * st + strided strides idx
  | _, _ => 0

/-- The strides of elements that follow one another in row-major order. -/
def cStrides (w : ℕ) : List ℕ → List ℤ
  | [] => []
  | _ :: dims => (dims.prod * w : ℕ) :: cStrides w dims

/-- Without dimensions there is one place. -/
@[simp] theorem strided_nil (idx : List ℕ) : strided [] idx = 0 := rfl

/-- The first dimension moves by its own stride. -/
@[simp] theorem strided_cons (st : ℤ) (strides : List ℤ) (i : ℕ) (idx : List ℕ) :
    strided (st :: strides) (i :: idx) = i * st + strided strides idx := rfl

/-- The first dimension moves by whole rows. -/
@[simp] theorem rowMajor_cons (d : ℕ) (dims : List ℕ) (i : ℕ) (idx : List ℕ) :
    rowMajor (d :: dims) (i :: idx) = i * dims.prod + rowMajor dims idx := rfl

/-- **Row-major strides lead to row-major places.** -/
theorem strided_cStrides (w : ℕ) {dims idx : List ℕ} (h : IsIndex dims idx) :
    strided (cStrides w dims) idx = rowMajor dims idx * w := by
  induction h with
  | nil => simp [cStrides, rowMajor]
  | @cons d i dims idx _ _ ih =>
      rw [cStrides, strided_cons, ih, rowMajor_cons]
      push_cast
      ring

/-- **The test for row-major order**: along an extent of one there is no neighbour, so its stride does not
matter. -/
def IsCContiguous (w : ℕ) : List ℕ → List ℤ → Prop
  | [], [] => True
  | d :: dims, st :: strides => (d = 1 ∨ st = (dims.prod * w : ℕ)) ∧ IsCContiguous w dims strides
  | _, _ => False

/-- Strides are compared one by one. -/
instance IsCContiguous.decidable (w : ℕ) : ∀ dims strides, Decidable (IsCContiguous w dims strides)
  | [], [] => isTrue trivial
  | _ :: dims, _ :: strides =>
      have := decidable w dims strides
      inferInstanceAs (Decidable ((_ ∨ _) ∧ _))
  | [], _ :: _ => isFalse id
  | _ :: _, [] => isFalse id

/-- The first element of an array without an empty extent. -/
theorem isIndex_zeros {dims : List ℕ} (h : ∀ d ∈ dims, 0 < d) :
    IsIndex dims (List.replicate dims.length 0) := by
  induction dims with
  | nil => exact .nil
  | cons d dims ih =>
      refine .cons (h d List.mem_cons_self) ?_
      exact ih fun d hd => h d (List.mem_cons_of_mem _ hd)

/-- **What the test decides.** -/
theorem isCContiguous_iff {w : ℕ} {dims : List ℕ} {strides : List ℤ} (hlen : strides.length = dims.length)
    (hpos : ∀ d ∈ dims, 0 < d) : IsCContiguous w dims strides ↔
      ∀ idx, IsIndex dims idx → strided strides idx = rowMajor dims idx * w := by
  induction dims generalizing strides with
  | nil =>
      obtain rfl := List.length_eq_zero_iff.mp hlen
      simp [IsCContiguous, rowMajor]
  | cons d dims ih =>
      obtain ⟨st, strides, rfl⟩ := List.exists_cons_of_length_eq_add_one hlen
      have ih := ih (Nat.succ.inj hlen) fun d hd => hpos d (List.mem_cons_of_mem _ hd)
      rw [IsCContiguous, ih]
      constructor
      · rintro ⟨hst, hrest⟩ idx hidx
        obtain ⟨i, rest, hi, hidx', rfl⟩ := List.forall₂_cons_left_iff.mp hidx
        rw [strided_cons, rowMajor_cons, hrest rest hidx']
        rcases hst with rfl | rfl
        · obtain rfl : i = 0 := Nat.lt_one_iff.mp hi
          simp
        · push_cast
          ring
      · intro h
        have hrest : ∀ idx, IsIndex dims idx → strided strides idx = rowMajor dims idx * w := by
          intro idx hidx
          have := h (0 :: idx) (.cons (hpos d List.mem_cons_self) hidx)
          simpa using this
        refine ⟨?_, hrest⟩
        by_cases hd : d = 1
        · exact .inl hd
        · -- the neighbour of the first element along this extent
          right
          have hzeros := isIndex_zeros fun d hd => hpos d (List.mem_cons_of_mem _ hd)
          have hd1 : 1 < d := by
            have := hpos d List.mem_cons_self
            omega
          have hnext := h (1 :: List.replicate dims.length 0) (.cons hd1 hzeros)
          rw [strided_cons, rowMajor_cons, hrest _ hzeros] at hnext
          push_cast at hnext ⊢
          linarith

end Axon.Foundation
