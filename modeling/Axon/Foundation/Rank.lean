import Axon.Foundation.Machine

/-! # Ranks that run down

A rank bounds how many events of one kind an execution can still have: every such event takes it down by one at
least, and the other events take it up by one at most, if at all. -/

namespace Axon.Foundation

universe u v

namespace Machine

variable {σ : Type u} {α : Type v} {M : Machine σ α} {P : σ → Prop} {tr : List α} {s s' : σ}

/-- **The rank rule**: along an execution through states with a property, the events of a kind and what is left of
the rank at the end make no more than the rank at the beginning and the events that add to it. -/
theorem exec_countP_add_rank_le_add (rank : σ → ℕ) (own gain : α → Bool) (h : M.exec s tr = some s') (h0 : P s)
    (hs : ∀ s a s', a ∈ tr → P s → M.step s a = some s' →
      P s' ∧ rank s' + (if own a = true then 1 else 0) ≤ rank s + (if gain a = true then 1 else 0)) :
    tr.countP own + rank s' ≤ rank s + tr.countP gain := by
  induction tr generalizing s with
  | nil =>
      obtain rfl : s = s' := Option.some.inj h
      simp
  | cons a tr ih =>
      rw [exec_cons, Option.bind_eq_some_iff] at h
      obtain ⟨s₁, h₁, h⟩ := h
      obtain ⟨hP, hle⟩ := hs s a s₁ List.mem_cons_self h0 h₁
      have hrest := ih h hP fun s₂ b s₃ hb => hs s₂ b s₃ (List.mem_cons_of_mem a hb)
      rw [List.countP_cons, List.countP_cons]
      omega

/-- The rule when no event adds to the rank. -/
theorem exec_countP_add_rank_le (rank : σ → ℕ) (own : α → Bool) (h : M.exec s tr = some s') (h0 : P s)
    (hs : ∀ s a s', a ∈ tr → P s → M.step s a = some s' →
      P s' ∧ rank s' + (if own a = true then 1 else 0) ≤ rank s) :
    tr.countP own + rank s' ≤ rank s := by
  have hle := exec_countP_add_rank_le_add rank own (fun _ => false) h h0 fun s a s' ha hP hst => by
    simpa using hs s a s' ha hP hst
  simpa using hle

end Machine

end Axon.Foundation
