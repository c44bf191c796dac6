import Mathlib.Algebra.Order.Ring.Int
import Mathlib.Tactic.Common

/-! # Seconds and nanoseconds

A point in time, or a length of it, is a number of seconds and of nanoseconds. `Timespec.ns` is the time in
nanoseconds, and a `Normal` one has less than a second in its nanoseconds.

* **`le_iff_lex`**: normal times are compared field by field.
* **`ofNs`** splits a number of nanoseconds; `normal_ofNs` and `ns_ofNs` say that nothing is lost. -/

namespace Axon.Foundation

/-- A **time** as the clock calls have it. -/
structure Timespec where
  tvSec : ℤ
  tvNsec : ℤ
  deriving DecidableEq, Repr

namespace Timespec

/-- The time in nanoseconds. -/
def ns (t : Timespec) : ℤ := t.tvSec * 1000000000 + t.tvNsec

/-- **Normal**: the nanoseconds make less than a second. -/
structure Normal (t : Timespec) : Prop where
  nonneg : 0 ≤ t.tvNsec
  lt : t.tvNsec < 1000000000

/-- Whether a time is normal is a comparison of its nanoseconds. -/
instance (t : Timespec) : Decidable t.Normal :=
  decidable_of_iff (0 ≤ t.tvNsec ∧ t.tvNsec < 1000000000) ⟨fun h => ⟨h.1, h.2⟩, fun h => ⟨h.1, h.2⟩⟩

/-- **Normal times are compared field by field.** -/
theorem le_iff_lex {d t : Timespec} (hd : d.Normal) (ht : t.Normal) :
    d.ns ≤ t.ns ↔ d.tvSec < t.tvSec ∨ (t.tvSec = d.tvSec ∧ d.tvNsec ≤ t.tvNsec) := by
  obtain ⟨hd0, hd1⟩ := hd
  obtain ⟨ht0, ht1⟩ := ht
  rw [ns, ns]
  omega

/-- A number of nanoseconds as a time. -/
def ofNs (n : ℕ) : Timespec := ⟨((n / 1000000000 : ℕ) : ℤ), ((n % 1000000000 : ℕ) : ℤ)⟩

/-- A time made from nanoseconds is normal. -/
theorem normal_ofNs (n : ℕ) : (ofNs n).Normal := by
  have hlt : n % 1000000000 < 1000000000 := Nat.mod_lt n (by omega)
  refine ⟨?_, ?_⟩
  · exact Int.natCast_nonneg _
  · show ((n % 1000000000 : ℕ) : ℤ) < 1000000000
    omega

/-- It has these nanoseconds. -/
@[simp] theorem ns_ofNs (n : ℕ) : (ofNs n).ns = n := by
  show ((n / 1000000000 : ℕ) : ℤ) * 1000000000 + ((n % 1000000000 : ℕ) : ℤ) = n
  omega

end Timespec

end Axon.Foundation
