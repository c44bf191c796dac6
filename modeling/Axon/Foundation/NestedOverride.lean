import Mathlib.Data.List.Nodup
import Mathlib.Logic.Function.Basic
import Mathlib.Tactic.Common

/-! # Nested overrides of a value

A value is overridden for a while and put back, and overrides may nest. Each one remembers what it found.

* **`Nested base os cur`**: starting from `base`, the overrides `os`, innermost first, have led to `cur`.
* **`Nested.push`** and **`Nested.pop`**: an override begins, and the innermost one ends.
* **`Nested.eq_innermost`**: the value is that of the innermost override.
* **`Nested.update`**: one of several values is overridden, or put back. -/

namespace Axon.Foundation

universe u v

/-- An override: who made it, the value it set, and the value it found. -/
structure Override (τ : Type u) (α : Type v) where
  tag : τ
  value : α
  before : α

variable {τ : Type u} {α : Type v}

/-- The overrides `os`, innermost first, on top of `base` lead to `cur`. -/
def Nested (base : α) : List (Override τ α) → α → Prop
  | [], cur => cur = base
  | o :: os, cur => cur = o.value ∧ Nested base os o.before

/-- The value set by the innermost override. -/
def innermost (base : α) : List (Override τ α) → α
  | [] => base
  | o :: _ => o.value

namespace Nested

variable {base cur : α} {o : Override τ α} {os : List (Override τ α)}

/-- An override begins. -/
theorem push (h : Nested base os cur) (t : τ) (a : α) : Nested base (⟨t, a, cur⟩ :: os) a := ⟨rfl, h⟩

/-- **The innermost override ends**: what it found is put back. -/
theorem pop (h : Nested base (o :: os) cur) : Nested base os o.before := h.2

/-- **The value is that of the innermost override.** -/
theorem eq_innermost (h : Nested base os cur) : cur = innermost base os := by
  cases os with
  | nil => exact h
  | cons o os => exact h.1

/-- One of several values is overridden, or put back. -/
theorem update {ι : Type*} [DecidableEq ι] {base cur : ι → α} {os : ι → List (Override τ α)} {i : ι}
    {os' : List (Override τ α)} {v : α} (h : ∀ j, Nested (base j) (os j) (cur j)) (hi : Nested (base i) os' v) (j : ι) :
    Nested (base j) (Function.update os i os' j) (Function.update cur i v j) := by
  by_cases hj : j = i
  · subst hj
    rwa [Function.update_self, Function.update_self]
  · rw [Function.update_of_ne hj, Function.update_of_ne hj]
    exact h j

end Nested

/-- Drop the override made by `t`. -/
def dropTag [DecidableEq τ] (t : τ) (os : List (Override τ α)) : List (Override τ α) := os.filter (·.tag ≠ t)

section

variable [DecidableEq τ] {t : τ} {o : Override τ α} {os : List (Override τ α)}

/-- Who has made no override has none to drop. -/
theorem dropTag_of_not_mem (h : ∀ o ∈ os, o.tag ≠ t) : dropTag t os = os :=
  List.filter_eq_self.mpr fun o ho => decide_eq_true (h o ho)

/-- Dropping the innermost override leaves the others. -/
theorem dropTag_cons_self (h : ((o :: os).map (·.tag)).Nodup) : dropTag o.tag (o :: os) = os := by
  rw [List.map_cons, List.nodup_cons] at h
  rw [dropTag, List.filter_cons_of_neg (by simp)]
  exact dropTag_of_not_mem fun o' ho' heq => h.1 (heq ▸ List.mem_map_of_mem ho')

end

end Axon.Foundation
