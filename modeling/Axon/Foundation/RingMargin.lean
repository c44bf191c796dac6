import Axon.Foundation.LapRing
import Mathlib.Order.Interval.Finset.Nat

/-! # The margin of a ring whose turns may come to nothing

A ring of `n` cells is gone round turn by turn: turn `k` takes cell `k % n`. Some turns are kept and some come
to nothing, and the ring goes on all the same. A cell whose turn was kept has its full margin when `n - 1`
further turns are kept before it is taken again.

* **`fullMargin_iff`**: every cell has its full margin exactly when, once a turn has been kept and a whole
  round has been gone since, no turn in between has come to nothing.
* **`FullMargin.newest`**: the cell of the newest turn kept is then never the one taken. -/

namespace Axon.Foundation

variable {n turns : ℕ} {kept : ℕ → Prop} [DecidablePred kept]

/-- The turns kept strictly between two turns. -/
def keptBetween (kept : ℕ → Prop) [DecidablePred kept] (a b : ℕ) : Finset ℕ := (Finset.Ioo a b).filter kept

/-- **Every cell has its full margin** in the first `turns` turns. -/
def FullMargin (n : ℕ) (kept : ℕ → Prop) [DecidablePred kept] (turns : ℕ) : Prop :=
  ∀ a b, a < b → b < turns → kept a → b % n = a % n → n - 1 ≤ (keptBetween kept a b).card

/-- **Nothing has been skipped** since a turn that was kept a whole round ago. -/
def Unbroken (n : ℕ) (kept : ℕ → Prop) (turns : ℕ) : Prop :=
  ∀ a b, kept a → a + n ≤ b → b < turns → ∀ c, a < c → c < b → kept c

/-- All turns in between are kept when as many are kept as there are. -/
theorem le_card_keptBetween_iff {a b : ℕ} :
    b - a - 1 ≤ (keptBetween kept a b).card ↔ ∀ c, a < c → c < b → kept c := by
  have hcard : (Finset.Ioo a b).card = b - a - 1 := Nat.card_Ioo a b
  have hle : (keptBetween kept a b).card ≤ b - a - 1 := hcard ▸ Finset.card_filter_le _ _
  constructor
  -- as many as there are at most, so all of them
  · intro h c hac hcb
    have hall : keptBetween kept a b = Finset.Ioo a b :=
      Finset.eq_of_subset_of_card_le (Finset.filter_subset _ _) (by rw [hcard]; exact h)
    have hmem : c ∈ keptBetween kept a b := by
      rw [hall]
      exact Finset.mem_Ioo.mpr ⟨hac, hcb⟩
    exact (Finset.mem_filter.mp hmem).2
  · intro h
    have hall : keptBetween kept a b = Finset.Ioo a b := by
      apply Finset.filter_true_of_mem
      intro c hc
      exact h c (Finset.mem_Ioo.mp hc).1 (Finset.mem_Ioo.mp hc).2
    rw [hall, hcard]

/-- Two different turns of one cell are whole rounds apart. -/
theorem add_le_of_mod_eq {a b : ℕ} (hab : a < b) (hmod : b % n = a % n) : a + n ≤ b := by
  by_contra hnear
  exact mod_ne_mod_of_lt hab (by omega) hmod

/-- One round later every turn in between has been kept. -/
theorem FullMargin.next_round (h : FullMargin n kept turns) (hn : 0 < n) {a : ℕ} (ha : kept a)
    (hturns : a + n < turns) : ∀ c, a < c → c < a + n → kept c := by
  have hcount := h a (a + n) (by omega) hturns ha (Nat.add_mod_right a n)
  rw [← le_card_keptBetween_iff]
  omega

/-- With the full margin, every turn since one that was kept a round ago has been kept. -/
theorem FullMargin.unbroken (h : FullMargin n kept turns) (hn : 2 ≤ n) : Unbroken n kept turns := by
  intro a b ha hround hturns c hac hcb
  induction c using Nat.strong_induction_on with
  | _ c ih =>
      by_cases hnear : c < a + n
      · exact h.next_round (by omega) ha (by omega) c hac hnear
      · -- a turn less than a round before `c` was kept, and all up to its next turn with it
        have hprev : kept (c - n + 1) := ih (c - n + 1) (by omega) (by omega) (by omega)
        exact h.next_round (by omega) hprev (by omega) c (by omega) (by omega)

/-- **When every cell has its full margin.** -/
theorem fullMargin_iff (hn : 2 ≤ n) : FullMargin n kept turns ↔ Unbroken n kept turns := by
  constructor
  · intro h
    exact h.unbroken hn
  · intro h a b hab hturns ha hmod
    have hround := add_le_of_mod_eq hab hmod
    have hall := le_card_keptBetween_iff.mpr (h a b ha hround hturns)
    omega

/-- **The newest turn kept has a cell that is not taken.** -/
theorem FullMargin.newest (h : FullMargin n kept turns) (hn : 2 ≤ n) {a b : ℕ} (hab : a < b)
    (hturns : b < turns) (ha : kept a) (hnone : ∀ c, a < c → c < b → ¬ kept c) : b % n ≠ a % n := by
  intro hmod
  have hcount := h a b hab hturns ha hmod
  have hzero : (keptBetween kept a b).card = 0 := by
    rw [Finset.card_eq_zero]
    apply Finset.filter_false_of_mem
    intro c hc
    exact hnone c (Finset.mem_Ioo.mp hc).1 (Finset.mem_Ioo.mp hc).2
  omega

end Axon.Foundation
