import Axon.Foundation.History

/-! # A resource that is replaced when it does not fit

A service keeps a resource as long as it fits the requests, and makes a new one for a request that it does not
fit. A history lists the requests, each with the resource the service had then, if it had one.

* **`Replaced`**: how such a history grows.
* **`Replaced.keptOrRenewed`**: between two points of a history the resource is kept when it fits the requests in
  between, and otherwise the later one is newer. -/

namespace Axon.Foundation

universe u v

variable {ρ : Type u} {α : Type v}

/-- The resource at a point of a history. -/
def resourceAt (l : List (α × Option ρ)) (i : ℕ) : Option ρ := l[i]?.bind (·.2)

/-- The part of a history behind `i`, up to `j`. -/
def since (l : List (α × Option ρ)) (i j : ℕ) : List (α × Option ρ) := (l.take (j + 1)).drop (i + 1)

/-- **A history of replacements**: each request finds the resource of the one before and keeps it when it fits,
or there is a new one, or none. -/
inductive Replaced (fits : ρ → α → Prop) (newer : ρ → ρ → Prop) : List (α × Option ρ) → Prop
  | nil : Replaced fits newer []
  | keep {l : List (α × Option ρ)} {a : α} {r : Option ρ} (h : Replaced fits newer l)
      (hlast : l.getLast?.bind (·.2) = r) (hfits : ∀ p, r = some p → fits p a) :
      Replaced fits newer (l ++ [(a, r)])
  | replace {l : List (α × Option ρ)} {a : α} {r : Option ρ} (h : Replaced fits newer l)
      (hlast : ∀ p, l.getLast?.bind (·.2) = some p → ¬ fits p a)
      (hnew : ∀ i p q, resourceAt l i = some p → r = some q → newer p q) :
      Replaced fits newer (l ++ [(a, r)])

variable {l : List (α × Option ρ)} {x : α × Option ρ} {i j : ℕ}

/-- What was the resource at some time was it then. -/
theorem resourceAt_snoc_of_lt (hi : i < l.length) : resourceAt (l ++ [x]) i = resourceAt l i := by
  rw [resourceAt, List.getElem?_append_left hi, resourceAt]

/-- The newest entry has its own resource. -/
theorem resourceAt_snoc_length : resourceAt (l ++ [x]) l.length = x.2 := by
  rw [resourceAt, List.getElem?_concat_length, Option.bind_some]

/-- What there is in a longer history was there, or is the last. -/
theorem resourceAt_snoc_cases {p : ρ} (h : resourceAt (l ++ [x]) i = some p) :
    (i < l.length ∧ resourceAt l i = some p) ∨ (i = l.length ∧ x.2 = some p) := by
  obtain ⟨y, hy, hp⟩ := Option.bind_eq_some_iff.mp h
  rcases getElem?_snoc_cases hy with hy | ⟨rfl, rfl⟩
  · refine .inl ⟨(List.getElem?_eq_some_iff.mp hy).1, ?_⟩
    rw [resourceAt, hy, Option.bind_some, hp]
  · exact .inr ⟨rfl, hp⟩

/-- What lies between two earlier entries stays the same. -/
theorem since_snoc_of_lt (hj : j < l.length) : since (l ++ [x]) i j = since l i j := by
  rw [since, List.take_append_of_le_length hj, since]

/-- Up to the newest entry, one more has come. -/
theorem since_snoc_length (hi : i < l.length) : since (l ++ [x]) i l.length = since l i (l.length - 1) ++ [x] := by
  have hlen : l.length - 1 + 1 = l.length := by omega
  rw [since, List.take_of_length_le (by simp), List.drop_append_of_le_length hi, since, hlen, List.take_length]

/-- Between an entry and itself there is none. -/
theorem since_self (l : List (α × Option ρ)) (i : ℕ) : since l i i = [] := by
  rw [since, List.drop_eq_nil_iff, List.length_take]
  exact min_le_left _ _

/-- The resource at the end is that of the last entry. -/
theorem bind_getLast? (l : List (α × Option ρ)) : l.getLast?.bind (·.2) = resourceAt l (l.length - 1) := by
  rw [List.getLast?_eq_getElem?, resourceAt]

variable {fits : ρ → α → Prop} {newer : ρ → ρ → Prop}

/-- **The resource at `i` is kept or renewed** up to `j`: it is still there when it fits all requests in between,
and otherwise there is a newer one, if any. -/
def KeptOrRenewed (fits : ρ → α → Prop) (newer : ρ → ρ → Prop) (l : List (α × Option ρ)) (i j : ℕ) : Prop :=
  ∀ p, resourceAt l i = some p →
    ((∀ x ∈ since l i j, fits p x.1) → resourceAt l j = some p) ∧
    ((¬ ∀ x ∈ since l i j, fits p x.1) → ∀ q, resourceAt l j = some q → newer p q)

namespace KeptOrRenewed

/-- An entry has its own resource. -/
theorem self (l : List (α × Option ρ)) (i : ℕ) : KeptOrRenewed fits newer l i i := by
  intro p hp
  rw [since_self]
  exact ⟨fun _ => hp, fun hsome => absurd (fun x hx => absurd hx List.not_mem_nil) hsome⟩

/-- Requests to come do not matter. -/
theorem snoc (h : KeptOrRenewed fits newer l i j) (hij : i ≤ j) (hj : j < l.length) :
    KeptOrRenewed fits newer (l ++ [x]) i j := by
  intro p hp
  rw [resourceAt_snoc_of_lt (hij.trans_lt hj)] at hp
  rw [since_snoc_of_lt hj, resourceAt_snoc_of_lt hj]
  exact h p hp

/-- The next request keeps the resource. -/
theorem keep {a : α} {r : Option ρ} (h : KeptOrRenewed fits newer l i (l.length - 1)) (hi : i < l.length)
    (hlast : l.getLast?.bind (·.2) = r) (hfits : ∀ p, r = some p → fits p a) :
    KeptOrRenewed fits newer (l ++ [(a, r)]) i l.length := by
  intro p hp
  rw [resourceAt_snoc_of_lt hi] at hp
  rw [bind_getLast?] at hlast
  obtain ⟨hkept, hrenewed⟩ := h p hp
  rw [since_snoc_length hi, resourceAt_snoc_length]
  constructor
  · intro hall
    rw [← hlast]
    exact hkept fun x hx => hall x (List.mem_append_left _ hx)
  · intro hsome q hq
    refine hrenewed (fun hall => hsome ?_) q (hlast.trans hq)
    -- a resource that fits all before is the one that is kept, and so fits this one
    intro x hx
    rcases List.mem_append.mp hx with hx | hx
    · exact hall x hx
    · rw [List.mem_singleton.mp hx]
      exact hfits p (hlast.symm.trans (hkept hall))

/-- The next request gets another resource. -/
theorem replace {a : α} {r : Option ρ} (h : KeptOrRenewed fits newer l i (l.length - 1)) (hi : i < l.length)
    (hlast : ∀ p, l.getLast?.bind (·.2) = some p → ¬ fits p a)
    (hnew : ∀ p q, resourceAt l i = some p → r = some q → newer p q) :
    KeptOrRenewed fits newer (l ++ [(a, r)]) i l.length := by
  intro p hp
  rw [resourceAt_snoc_of_lt hi] at hp
  rw [since_snoc_length hi, resourceAt_snoc_length]
  constructor
  · intro hall
    have hbefore := (h p hp).1 fun x hx => hall x (List.mem_append_left _ hx)
    rw [← bind_getLast?] at hbefore
    exact absurd (hall (a, r) (List.mem_append_right _ (List.mem_singleton_self _))) (hlast p hbefore)
  · intro _ q hq
    exact hnew p q hp hq

end KeptOrRenewed

/-- **Every resource of a history is kept or renewed.** -/
theorem Replaced.keptOrRenewed (h : Replaced fits newer l) (hij : i ≤ j) (hj : j < l.length) :
    KeptOrRenewed fits newer l i j := by
  induction h generalizing j with
  | nil => cases hj
  | @keep l a r h hlast hfits ih =>
      rw [List.length_append, List.length_singleton] at hj
      -- the later index is an old one, or that of the element just added
      rcases Nat.lt_succ_iff_lt_or_eq.mp hj with hlt | rfl
      · exact (ih hij hlt).snoc hij hlt
      · rcases Nat.lt_or_eq_of_le hij with hi | rfl
        · exact (ih (by omega) (by omega)).keep hi hlast hfits
        · exact .self _ _
  | @replace l a r h hlast hnew ih =>
      rw [List.length_append, List.length_singleton] at hj
      rcases Nat.lt_succ_iff_lt_or_eq.mp hj with hlt | rfl
      · exact (ih hij hlt).snoc hij hlt
      · rcases Nat.lt_or_eq_of_le hij with hi | rfl
        · exact (ih (by omega) (by omega)).replace hi hlast fun p q => hnew i p q
        · exact .self _ _

end Axon.Foundation
