import Axon.Foundation.Machine
import Mathlib.Data.Nat.ModEq
import Mathlib.Logic.Function.Basic

/-! # A ring that is overwritten turn by turn

A writer goes round `n` cells. Each of its turns takes the next cell, changes what the cell holds by any
number of writes, and may end by keeping a record of it. Nothing holds the writer back, so a record agrees
with its cell only for a while.

* **`LapRing.Inv.in_cell`**: what was kept in turn `a` is what its cell holds until turn `a + n` begins.
* **`LapRing.inv_of_run`**: the invariant holds in every run. -/

namespace Axon.Foundation

universe u

/-- Within `n` consecutive turns no cell is taken twice. -/
theorem mod_ne_mod_of_lt {n a b : ℕ} (hab : a < b) (hb : b < a + n) : b % n ≠ a % n := by
  intro h
  have hdvd : n ∣ b - a := (Nat.modEq_iff_dvd' hab.le).mp h.symm
  have hle := Nat.le_of_dvd (Nat.sub_pos_of_lt hab) hdvd
  omega

/-- A ring of cells with contents in `C`, and what its turns have kept. -/
structure LapRing (C : Type u) where
  cells : ℕ → C
  /-- How many turns have begun. -/
  turns : ℕ
  /-- The last turn goes on. -/
  filling : Bool
  /-- The records kept, each with the number of its turn. -/
  kept : List (ℕ × C)

/-- What is done to the cells of a ring. -/
inductive LapEv (C : Type u)
  | begin
  | write (f : C → C)
  | keep

namespace LapRing

variable {C : Type u}

/-- The number of the last turn. -/
def last (r : LapRing C) : ℕ := r.turns - 1

/-- One event, in a ring of `n` cells. -/
def step (n : ℕ) (r : LapRing C) : LapEv C → Option (LapRing C)
  | .begin => some { r with turns := r.turns + 1, filling := true }
  | .write f =>
      if r.filling = true then
        some { r with cells := Function.update r.cells (r.last % n) (f (r.cells (r.last % n))) }
      else none
  | .keep =>
      if r.filling = true then
        some { r with filling := false, kept := r.kept ++ [(r.last, r.cells (r.last % n))] }
      else none

/-- **The invariant**: a record stands for an earlier turn than the one that goes on, and is what its cell
holds as long as the cell has not been taken again. -/
structure Inv (n : ℕ) (r : LapRing C) : Prop where
  begun : r.filling = true → 0 < r.turns
  past : ∀ p ∈ r.kept, p.1 < r.turns
  ended : r.filling = true → ∀ p ∈ r.kept, p.1 < r.last
  in_cell : ∀ p ∈ r.kept, r.turns ≤ p.1 + n → r.cells (p.1 % n) = p.2

/-- A ring in which no turn has begun. -/
theorem Inv.fresh {n : ℕ} {r : LapRing C} (hfilling : r.filling = false) (hkept : r.kept = []) : r.Inv n := by
  refine ⟨fun h => ?_, ?_, fun h => ?_, ?_⟩
  · exact absurd (hfilling.symm.trans h) nofun
  · rw [hkept]
    exact nofun
  · exact absurd (hfilling.symm.trans h) nofun
  · rw [hkept]
    exact nofun

/-- **A step keeps the invariant.** -/
theorem Inv.step {n : ℕ} {r r' : LapRing C} {e : LapEv C} (h : r.Inv n) (hs : r.step n e = some r') :
    r'.Inv n := by
  cases e with
  | begin =>
      obtain rfl := Option.some.inj hs
      refine ⟨fun _ => Nat.succ_pos _, fun p hp => ?_, fun _ p hp => h.past p hp, fun p hp hlap => ?_⟩
      · exact (h.past p hp).trans (Nat.lt_succ_self _)
      · exact h.in_cell p hp ((Nat.le_succ _).trans hlap)
  | write f =>
      dsimp only [LapRing.step] at hs
      split_ifs at hs with hfilling
      obtain rfl := Option.some.inj hs
      refine ⟨h.begun, h.past, h.ended, fun p hp hlap => ?_⟩
      have hlast := h.ended hfilling p hp
      have hbegun := h.begun hfilling
      -- the turn that goes on has another cell
      have hne : r.last % n ≠ p.1 % n := by
        refine mod_ne_mod_of_lt hlast ?_
        have hlap : r.turns ≤ p.1 + n := hlap
        unfold LapRing.last
        omega
      show Function.update r.cells (r.last % n) _ (p.1 % n) = p.2
      rw [Function.update_of_ne hne.symm]
      exact h.in_cell p hp hlap
  | keep =>
      dsimp only [LapRing.step] at hs
      split_ifs at hs with hfilling
      obtain rfl := Option.some.inj hs
      have hbegun := h.begun hfilling
      refine ⟨nofun, fun p hp => ?_, nofun, fun p hp hlap => ?_⟩
      · rcases List.mem_append.mp hp with hp | hp
        · exact h.past p hp
        · rw [List.mem_singleton.mp hp]
          exact Nat.sub_lt hbegun Nat.one_pos
      · rcases List.mem_append.mp hp with hp | hp
        · exact h.in_cell p hp hlap
        · rw [List.mem_singleton.mp hp]

end LapRing

/-- **The ring of `n` cells**, from before its first turn. -/
def lapMachine (C : Type u) (n : ℕ) : Machine (LapRing C) (LapEv C) where
  init r := r.turns = 0 ∧ r.filling = false ∧ r.kept = []
  step := LapRing.step n

/-- **In every run** it holds. -/
theorem LapRing.inv_of_run {C : Type u} {n : ℕ} {tr : List (LapEv C)} {r : LapRing C}
    (h : (lapMachine C n).Run tr r) : r.Inv n :=
  h.invariant (P := fun _ r => r.Inv n) (fun _ hr => .fresh hr.2.1 hr.2.2) fun _ _ _ _ _ h hs => h.step hs

end Axon.Foundation
