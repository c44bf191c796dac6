import Mathlib.Data.List.Basic
import Mathlib.Tactic.Common

/-! # Blocks with early returns

The body of a function as a list of blocks, each of which goes on to the next or returns.

* **`runBlocks`**: the blocks in order, up to the first that returns.
* **`runBlocks_cases`**: what every block that goes on keeps true, of the blocks that have run, holds at the end,
  or just before the block that returns. -/

namespace Axon.Foundation

variable {β σ ρ : Type*} (block : β → σ → Option ρ × σ)

/-- **The blocks in order**, up to the first that returns. -/
def runBlocks : List β → σ → Option ρ × σ
  | [], s => (none, s)
  | b :: rest, s =>
      match (block b s).1 with
      | some v => (some v, (block b s).2)
      | none => runBlocks rest (block b s).2

variable {block}

/-- A block that returns ends the function. -/
theorem runBlocks_cons_of_some {b : β} {rest : List β} {s : σ} {v : ρ} (h : (block b s).1 = some v) :
    runBlocks block (b :: rest) s = block b s := by
  rw [runBlocks, h]
  exact Prod.ext h.symm rfl

/-- A block that does not return is followed by the others. -/
theorem runBlocks_cons_of_none {b : β} {rest : List β} {s : σ} (h : (block b s).1 = none) :
    runBlocks block (b :: rest) s = runBlocks block rest (block b s).2 := by
  rw [runBlocks, h]

/-- **The blocks all go on, or one of them returns.** `P` is about the blocks that have run and the state behind
them. -/
theorem runBlocks_cases {P : List β → σ → Prop} {blocks : List β} {s : σ} (h₀ : P [] s)
    (hgo : ∀ pre b post s', blocks = pre ++ b :: post → P pre s' → (block b s').1 = none →
      P (pre ++ [b]) (block b s').2) :
    ((runBlocks block blocks s).1 = none ∧ P blocks (runBlocks block blocks s).2) ∨
    ∃ pre b post s' v, blocks = pre ++ b :: post ∧ P pre s' ∧ (block b s').1 = some v ∧
      runBlocks block blocks s = block b s' := by
  -- the blocks done so far are generalised, for the induction on those to come
  suffices hrun : ∀ rest done s', done ++ rest = blocks → P done s' →
      ((runBlocks block rest s').1 = none ∧ P blocks (runBlocks block rest s').2) ∨
      ∃ pre b post s'' v, blocks = pre ++ b :: post ∧ P pre s'' ∧ (block b s'').1 = some v ∧
        runBlocks block rest s' = block b s'' from hrun blocks [] s rfl h₀
  intro rest
  induction rest with
  | nil =>
      intro done s' hsplit hP
      rw [List.append_nil] at hsplit
      subst hsplit
      exact .inl ⟨rfl, hP⟩
  | cons b rest ih =>
      intro done s' hsplit hP
      -- the block returns, or the next one is run
      cases hb : (block b s').1 with
      | some v => exact .inr ⟨done, b, rest, s', v, hsplit.symm, hP, hb, runBlocks_cons_of_some hb⟩
      | none =>
          rw [runBlocks_cons_of_none hb]
          refine ih (done ++ [b]) (block b s').2 ?_ (hgo done b rest s' hsplit.symm hP hb)
          rw [List.append_assoc]
          exact hsplit

end Axon.Foundation
