import Mathlib.Data.Nat.Digits.Defs
import Mathlib.Data.UInt
import Mathlib.Tactic.Common

/-! # Little-endian fields and fixed-layout records

How a struct of unsigned integers is laid out in bytes: every field takes a fixed number of bytes, least
significant first, one field after the other.

* **`leBytes w n`** are the `w` bytes of a field that holds `n`; **`leValue`** reads them back.
* **`leField off w`** reads the field of width `w` at offset `off` of a record; `leField_append` and
  `leField_zero_append` find it in a record put together from fields. -/

namespace Axon.Foundation

/-- The `w` low bytes of `n`, least significant first. -/
def leBytes : ℕ → ℕ → List UInt8
  | 0, _ => []
  | w + 1, n => UInt8.ofNat n :: leBytes w (n / 256)

/-- The number whose bytes are given, least significant first. -/
def leValue (bs : List UInt8) : ℕ := Nat.ofDigits 256 (bs.map UInt8.toNat)

/-- `w` bytes are written. -/
@[simp] theorem length_leBytes (w n : ℕ) : (leBytes w n).length = w := by
  induction w generalizing n with
  | zero => rfl
  | succ w ih => rw [leBytes, List.length_cons, ih]

/-- Reading back a field gives what fits into its width. -/
theorem leValue_leBytes (w n : ℕ) : leValue (leBytes w n) = n % 256 ^ w := by
  induction w generalizing n with
  | zero => simp [leBytes, leValue, Nat.mod_one]
  | succ w ih =>
      have htail : leValue (leBytes w (n / 256)) = n / 256 % 256 ^ w := ih (n / 256)
      unfold leValue at htail ⊢
      rw [leBytes, List.map_cons, Nat.ofDigits_cons, htail, UInt8.toNat_ofNat',
        show (2 : ℕ) ^ 8 = 256 from rfl, pow_succ', Nat.mod_mul]

/-- The field of `w` bytes at offset `off`. -/
def leField (off w : ℕ) (bs : List UInt8) : ℕ := leValue ((bs.drop off).take w)

/-- The first field of a record. -/
theorem leField_zero_append (w n : ℕ) (rest : List UInt8) :
    leField 0 w (leBytes w n ++ rest) = n % 256 ^ w := by
  rw [leField, List.drop_zero, List.take_append_of_le_length (length_leBytes w n).ge,
    List.take_of_length_le (length_leBytes w n).le, leValue_leBytes]

/-- The only field of a record. -/
theorem leField_zero (w n : ℕ) : leField 0 w (leBytes w n) = n % 256 ^ w := by
  simpa using leField_zero_append w n []

/-- A field behind the first one. -/
theorem leField_append {off k : ℕ} (h : k ≤ off) (w n : ℕ) (rest : List UInt8) :
    leField off w (leBytes k n ++ rest) = leField (off - k) w rest := by
  rw [leField, leField, List.drop_append, List.drop_of_length_le (by simpa using h), length_leBytes,
    List.nil_append]

end Axon.Foundation
