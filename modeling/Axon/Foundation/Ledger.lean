import Mathlib.Data.List.Nodup
import Mathlib.Data.List.Perm.Basic
import Mathlib.Tactic.Common

/-! # A ledger of resources

Resources are opened and closed, and in between somebody holds them. A ledger lists what was opened, what was
closed and what is held.

* **`Accounted opened closed held`**: everything opened is closed or held, and that once.
* **`Accounted.acquire`**, **`Accounted.close`** and **`Accounted.closeAll`**: what the operations do to it.
* **`Accounted.open_iff`** and **`Accounted.closed_nodup`**: what it says about leaks and double closes. -/

namespace Axon.Foundation

universe u

variable {α : Type u}

/-- **Everything opened is accounted for**: it is closed or held, in one of the two places and once. -/
structure Accounted (opened closed held : List α) : Prop where
  nodup : opened.Nodup
  perm : (closed ++ held).Perm opened

namespace Accounted

variable {opened closed held held' : List α} {a : α}

/-- Before anything is opened. -/
theorem nil : Accounted ([] : List α) [] [] := ⟨List.nodup_nil, .nil⟩

/-- The order of what is held does not matter. -/
theorem of_perm (h : Accounted opened closed held) (hperm : held.Perm held') : Accounted opened closed held' :=
  ⟨h.nodup, (hperm.symm.append_left closed).trans h.perm⟩

/-- Something new is opened, and held. -/
theorem acquire (h : Accounted opened closed held) (hnew : a ∉ opened) :
    Accounted (opened ++ [a]) closed (a :: held) := by
  refine ⟨?_, ?_⟩
  · refine h.nodup.append (List.nodup_singleton a) (List.disjoint_singleton.mpr hnew)
  · have hfirst : (closed ++ a :: held).Perm (a :: opened) := List.perm_middle.trans (h.perm.cons a)
    exact hfirst.trans (List.perm_append_singleton a opened).symm

/-- Something held is closed. -/
theorem close (h : Accounted opened closed (a :: held)) : Accounted opened (closed ++ [a]) held := by
  refine ⟨h.nodup, ?_⟩
  rw [List.append_assoc, List.singleton_append]
  exact h.perm

/-- Several things held are closed, one after the other. -/
theorem closeAll (h : Accounted opened closed (held ++ held')) : Accounted opened (closed ++ held) held' := by
  refine ⟨h.nodup, ?_⟩
  rw [List.append_assoc]
  exact h.perm

/-- **What is open is what is held.** -/
theorem open_iff (h : Accounted opened closed held) : a ∈ opened ∧ a ∉ closed ↔ a ∈ held := by
  have hnodup := h.perm.nodup_iff.mpr h.nodup
  constructor
  · rintro ⟨hopened, hclosed⟩
    exact (List.mem_append.mp (h.perm.mem_iff.mpr hopened)).resolve_left hclosed
  · intro hheld
    exact ⟨h.perm.mem_iff.mp (List.mem_append_right _ hheld), fun hclosed =>
      (List.nodup_append'.mp hnodup).2.2 hclosed hheld⟩

/-- **Nothing is closed twice.** -/
theorem closed_nodup (h : Accounted opened closed held) : closed.Nodup :=
  (List.nodup_append'.mp (h.perm.nodup_iff.mpr h.nodup)).1

/-- Only what was opened is closed. -/
theorem closed_subset (h : Accounted opened closed held) : closed ⊆ opened := fun _ ha =>
  h.perm.mem_iff.mp (List.mem_append_left _ ha)

end Accounted

end Axon.Foundation
