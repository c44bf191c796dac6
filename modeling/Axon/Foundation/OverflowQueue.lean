import Mathlib.Algebra.Order.Group.Nat
import Mathlib.Data.List.Basic
import Mathlib.Data.List.TakeDrop
import Mathlib.Tactic.Common

/-! # Queues that overflow at their old end

A first-in-first-out queue with room for `cap` entries. A push never fails: when there is no room it drops
entries at the old end.

* **`OverflowQueue ops items cap`**: the operations `ops` of a queue do so, as far as its contents `items` tell.
* **`listQueue`** keeps the entries in a list. -/

namespace Axon.Foundation

universe u v

/-- The operations of a queue. -/
structure QueueOps (Q : Type u) (V : Type v) where
  empty : Q
  push : Q → V → Q
  pop : Q → Option (V × Q)

variable {Q : Type u} {V : Type v} {ops : QueueOps Q V} {items : Q → List V} {cap : ℕ}

/-- **A queue that overflows at its old end**: entries leave in the order in which they came, and a push keeps
the new entry and drops none but the oldest. -/
structure OverflowQueue (ops : QueueOps Q V) (items : Q → List V) (cap : ℕ) : Prop where
  length_le : ∀ q, (items q).length ≤ cap
  empty : items ops.empty = []
  push : ∀ q v, ∃ k, items (ops.push q v) = (items q).drop k ++ [v]
  pop_none : ∀ q, ops.pop q = none → items q = []
  pop_some : ∀ q v q', ops.pop q = some (v, q') → items q = v :: items q'

/-- A list with at most `cap` entries, oldest first. -/
def listQueue (V : Type v) (cap : ℕ) : QueueOps {xs : List V // xs.length ≤ cap + 1} V where
  empty := ⟨[], Nat.zero_le _⟩
  push q v := ⟨q.1.drop (q.1.length - cap) ++ [v], by simp; omega⟩
  pop q :=
    match q with
    | ⟨[], _⟩ => none
    | ⟨v :: xs, h⟩ => some (v, ⟨xs, (Nat.le_succ _).trans h⟩)

/-- **The list queue overflows at its old end.** -/
theorem listQueue_overflow (V : Type v) (cap : ℕ) :
    OverflowQueue (listQueue V cap) Subtype.val (cap + 1) where
  length_le q := q.2
  empty := rfl
  push q v := ⟨_, rfl⟩
  pop_none := by
    rintro ⟨_ | ⟨v, xs⟩, hxs⟩ h
    · rfl
    · cases h
  pop_some := by
    rintro ⟨_ | ⟨w, xs⟩, hxs⟩ v q' h
    · cases h
    · cases h
      rfl

end Axon.Foundation
