import Mathlib.Algebra.Order.Floor.Div
import Mathlib.Data.List.Basic
import Mathlib.Tactic.Common

/-! # The layout of C structures

A structure places its members one after the other, each at the next multiple of its alignment, and is
padded at its end to a multiple of its own alignment.

* **`layoutEnd ms`** is where the last member ends, **`sizeof align ms`** the size of the structure.
* **`sizeof_append_of_le`**: members appended in the padding do not change the size, so two versions of a
  structure cannot be told apart by their sizes then. -/

namespace Axon.Foundation

/-- The size and the alignment of a member, in bytes. -/
structure Member where
  size : ℕ
  align : ℕ

/-- The next multiple of `a`. -/
def roundUp (n a : ℕ) : ℕ := a * (n ⌈/⌉ a)

/-- Rounding up makes nothing smaller. -/
theorem le_roundUp {a : ℕ} (ha : 0 < a) (n : ℕ) : n ≤ roundUp n a := le_smul_ceilDiv ha

/-- It is the least one. -/
theorem roundUp_le {n a q : ℕ} (ha : 0 < a) (h : n ≤ a * q) : roundUp n a ≤ a * q :=
  Nat.mul_le_mul_left a ((ceilDiv_le_iff_le_mul ha).mpr h)

/-- The end of a member placed after the first `offset` bytes. -/
def Member.place (offset : ℕ) (m : Member) : ℕ := roundUp offset m.align + m.size

/-- A member is placed behind those before it. -/
theorem Member.le_place {m : Member} (ha : 0 < m.align) (offset : ℕ) : offset ≤ m.place offset :=
  (le_roundUp ha offset).trans (Nat.le_add_right _ _)

/-- The end of the last member. -/
def layoutEnd (ms : List Member) : ℕ := ms.foldl Member.place 0

/-- The size of a structure. -/
def sizeof (align : ℕ) (ms : List Member) : ℕ := roundUp (layoutEnd ms) align

/-- Members that are appended end later. -/
theorem layoutEnd_le_append (ms : List Member) {ns : List Member} (hns : ∀ m ∈ ns, 0 < m.align) :
    layoutEnd ms ≤ layoutEnd (ms ++ ns) := by
  rw [layoutEnd, layoutEnd, List.foldl_append]
  generalize ms.foldl Member.place 0 = offset
  induction ns generalizing offset with
  | nil => exact le_rfl
  | cons m ns ih =>
      have hm := Member.le_place (hns m List.mem_cons_self) offset
      exact hm.trans (ih (fun n hn => hns n (List.mem_cons_of_mem m hn)) (m.place offset))

/-- **Members appended in the padding do not change the size.** -/
theorem sizeof_append_of_le {align : ℕ} (halign : 0 < align) {ms ns : List Member}
    (hns : ∀ m ∈ ns, 0 < m.align) (h : layoutEnd (ms ++ ns) ≤ sizeof align ms) :
    sizeof align (ms ++ ns) = sizeof align ms := by
  apply le_antisymm
  · exact roundUp_le halign h
  · exact roundUp_le halign ((layoutEnd_le_append ms hns).trans (le_roundUp halign _))

end Axon.Foundation
