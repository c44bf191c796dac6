import Mathlib.Data.UInt
import Mathlib.Tactic.Common

/-! # Counters that wrap

A shared counter of fixed width holds the number of increments modulo a power of two. These lemmas say
what a reader that compares or tests such a counter learns about the number itself. -/

namespace Axon.Foundation

/-- Incrementing a 32-bit counter counts one more. -/
theorem uint32_ofNat_succ (n : ℕ) : UInt32.ofNat n + 1 = UInt32.ofNat (n + 1) :=
  (UInt32.ofNat_add n 1).symm

/-- The lowest bit of a 64-bit counter is the parity of the number it counts. -/
theorem uint64_ofNat_and_one_eq_zero (n : ℕ) : UInt64.ofNat n &&& 1 = 0 ↔ n % 2 = 0 := by
  rw [← UInt64.toNat_inj, UInt64.toNat_and, UInt64.toNat_ofNat']
  show (n % 2 ^ 64) &&& 1 = 0 ↔ n % 2 = 0
  rw [Nat.and_one_is_mod]
  omega

/-- Two readings of a 64-bit counter that agree come from the same number when fewer than `2 ^ 64`
increments lie between them. -/
theorem uint64_ofNat_inj_of_lt {a b : ℕ} (h : UInt64.ofNat a = UInt64.ofNat b) (hab : a ≤ b)
    (hlt : b < a + 2 ^ 64) : a = b := by
  have hmod : a % 2 ^ 64 = b % 2 ^ 64 := by
    simpa [← UInt64.toNat_inj] using h
  omega

/-- Two readings of a 32-bit counter that agree come from the same number when fewer than `2 ^ 32`
increments lie between them. -/
theorem uint32_ofNat_inj_of_lt {a b : ℕ} (h : UInt32.ofNat a = UInt32.ofNat b) (hab : a ≤ b)
    (hlt : b < a + 2 ^ 32) : a = b := by
  have hmod : a % 2 ^ 32 = b % 2 ^ 32 := by
    simpa [← UInt32.toNat_inj] using h
  omega

end Axon.Foundation
