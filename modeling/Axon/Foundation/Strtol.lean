import Mathlib.Data.List.TakeWhile
import Mathlib.Data.Int.Order.Basic
import Mathlib.Tactic.Common

/-! # Reading a number as `strtol` does

The C library's `strtol` in base 10 skips white space, takes a sign and the longest run of digits, and saturates
what does not fit a `long` of 64 bits.

* **`strtol`**: the value and the text behind the number, `none` when there is no number.
* **`NumberText`**: the texts it takes for a number; `strtol_eq_some_iff` says that these are all.
* **`Decimal`**: the texts that are nothing but digits. -/

namespace Axon.Foundation

/-- `LONG_MAX`. -/
abbrev longMax : ℤ := 9223372036854775807

/-- `LONG_MIN`. -/
abbrev longMin : ℤ := -9223372036854775808

/-- The nearest `long`. -/
def saturate (n : ℤ) : ℤ := max longMin (min longMax n)

/-- A number that fits is kept. -/
theorem saturate_of_le {n : ℤ} (h₀ : 0 ≤ n) (h : n ≤ longMax) : saturate n = n := by
  rw [saturate, min_eq_right h, max_eq_right ((show longMin ≤ 0 by decide).trans h₀)]

/-- The largest number bounds all. -/
theorem saturate_le (n : ℤ) : saturate n ≤ longMax := max_le (by decide) (min_le_left _ _)

/-- `isspace`, in the C locale. -/
def isSpace (c : Char) : Bool := c ∈ [' ', '\t', '\n', '\x0b', '\x0c', '\r']

/-- A sign and what is behind it. -/
def splitSign : List Char → Bool × List Char
  | '-' :: s => (true, s)
  | '+' :: s => (false, s)
  | s => (false, s)

/-- The value of digits behind a sign. -/
def signedValue (neg : Bool) (digits : List Char) : ℤ :=
  if neg then -(Nat.ofDigitChars 10 digits 0 : ℤ) else Nat.ofDigitChars 10 digits 0

/-- **`strtol`**, base 10. -/
def strtol (s : List Char) : Option (ℤ × List Char) :=
  let r := splitSign (s.dropWhile isSpace)
  let digits := r.2.takeWhile Char.isDigit
  if digits = [] then none else some (saturate (signedValue r.1 digits), r.2.dropWhile Char.isDigit)

/-- **A number as `strtol` takes it**: white space, a sign or none, and digits. -/
def NumberText (text : List Char) (v : ℤ) : Prop :=
  ∃ blanks sign digits, text = blanks ++ sign ++ digits ∧ (∀ c ∈ blanks, isSpace c = true) ∧
    (sign = [] ∨ sign = ['+'] ∨ sign = ['-']) ∧ digits ≠ [] ∧ (∀ c ∈ digits, c.isDigit = true) ∧
    v = saturate (signedValue (sign == ['-']) digits)

/-- A number that is nothing but digits. -/
structure Decimal (text : List Char) (n : ℕ) : Prop where
  ne_nil : text ≠ []
  digits : ∀ c ∈ text, c.isDigit = true
  value : Nat.ofDigitChars 10 text 0 = n

/-- The text does not go on with a digit. -/
def NoDigit (rest : List Char) : Prop := ∀ c ∈ rest.head?, c.isDigit = false

/-- A digit is no space. -/
theorem not_isSpace_of_isDigit {c : Char} (h : c.isDigit = true) : isSpace c = false := by
  refine Bool.eq_false_iff.mpr fun hspace => ?_
  simp only [isSpace, List.mem_cons, List.not_mem_nil, or_false, decide_eq_true_eq] at hspace
  rcases hspace with rfl | rfl | rfl | rfl | rfl | rfl <;> cases h

/-- A sign is told from the digits behind it. -/
theorem splitSign_append {sign digits : List Char} (hsign : sign = [] ∨ sign = ['+'] ∨ sign = ['-'])
    (hne : digits ≠ []) (hdigits : ∀ c ∈ digits, c.isDigit = true) (rest : List Char) :
    splitSign (sign ++ (digits ++ rest)) = (sign == ['-'], digits ++ rest) := by
  rcases hsign with rfl | rfl | rfl
  -- without a sign, the first digit is no sign either
  · obtain ⟨d, ds, rfl⟩ := List.exists_cons_of_ne_nil hne
    have hd := hdigits d List.mem_cons_self
    rw [List.nil_append, List.cons_append]
    unfold splitSign
    split
    · rename_i heq
      rw [(List.cons.inj heq).1] at hd
      cases hd
    · rename_i heq
      rw [(List.cons.inj heq).1] at hd
      cases hd
    · rfl
  · rfl
  · rfl

/-- A sign, or none, and what is behind it make the text. -/
theorem splitSign_eq (s : List Char) : ∃ sign, (sign = [] ∨ sign = ['+'] ∨ sign = ['-']) ∧
    s = sign ++ (splitSign s).2 ∧ (splitSign s).1 = (sign == ['-']) := by
  unfold splitSign
  split
  · exact ⟨['-'], .inr (.inr rfl), rfl, rfl⟩
  · exact ⟨['+'], .inr (.inl rfl), rfl, rfl⟩
  · exact ⟨[], .inl rfl, rfl, rfl⟩

/-- Digits end where the text does not go on with one. -/
theorem takeWhile_digits {digits rest : List Char} (hdigits : ∀ c ∈ digits, c.isDigit = true) (hrest : NoDigit rest) :
    (digits ++ rest).takeWhile Char.isDigit = digits ∧ (digits ++ rest).dropWhile Char.isDigit = rest := by
  rw [List.takeWhile_append_of_pos hdigits, List.dropWhile_append_of_pos hdigits]
  cases rest with
  | nil => simp
  | cons c rest =>
      have hc := hrest c rfl
      simp [hc]

/-- **The numbers that `strtol` takes.** -/
theorem strtol_eq_some_iff {s rest : List Char} {v : ℤ} :
    strtol s = some (v, rest) ↔ ∃ text, NumberText text v ∧ s = text ++ rest ∧ NoDigit rest := by
  constructor
  · intro h
    unfold strtol at h
    dsimp only at h
    split_ifs at h with hdigits
    obtain ⟨sign, hsign, hsplit, hneg⟩ := splitSign_eq (s.dropWhile isSpace)
    cases h
    -- the text read is the blanks, the sign and the digits, in this order
    refine ⟨_, ⟨s.takeWhile isSpace, sign, _, rfl, fun c => List.mem_takeWhile_imp, hsign, hdigits,
      fun c => List.mem_takeWhile_imp, by rw [← hneg]⟩, ?_, ?_⟩
    · have hnumber := List.takeWhile_append_dropWhile (p := Char.isDigit) (l := (splitSign (s.dropWhile isSpace)).2)
      rw [List.append_assoc, List.append_assoc, hnumber, ← hsplit, List.takeWhile_append_dropWhile]
    · intro c hc
      have hstop := List.head?_dropWhile_not Char.isDigit (splitSign (s.dropWhile isSpace)).2
      rw [Option.mem_def.mp hc] at hstop
      exact hstop
  · rintro ⟨text, ⟨blanks, sign, digits, rfl, hblanks, hsign, hne, hdigits, rfl⟩, rfl, hrest⟩
    -- the blanks are skipped up to the sign, or to the first digit
    have hskip : (blanks ++ sign ++ digits ++ rest).dropWhile isSpace = sign ++ (digits ++ rest) := by
      rw [List.append_assoc, List.append_assoc, List.dropWhile_append_of_pos hblanks]
      rcases hsign with rfl | rfl | rfl
      · obtain ⟨d, ds, rfl⟩ := List.exists_cons_of_ne_nil hne
        have hd := not_isSpace_of_isDigit (hdigits d List.mem_cons_self)
        exact List.dropWhile_cons_of_neg (Bool.eq_false_iff.mp hd)
      · exact List.dropWhile_cons_of_neg (by decide)
      · exact List.dropWhile_cons_of_neg (by decide)
    obtain ⟨htake, hdrop⟩ := takeWhile_digits hdigits hrest
    unfold strtol
    rw [hskip, splitSign_append hsign hne hdigits]
    dsimp only
    rw [htake, hdrop, if_neg hne]

/-- **Plain digits are a number**, if it fits. -/
theorem Decimal.numberText {text : List Char} {n : ℕ} (h : Decimal text n) (hn : (n : ℤ) ≤ longMax) :
    NumberText text n := by
  refine ⟨[], [], text, rfl, fun c hc => absurd hc List.not_mem_nil, .inl rfl, h.ne_nil, h.digits, ?_⟩
  have hvalue : signedValue (([] : List Char) == ['-']) text = n := congrArg Int.ofNat h.value
  rw [hvalue, saturate_of_le (Int.natCast_nonneg n) hn]

/-- The beginning of a text of digits is a smaller number. -/
theorem Decimal.of_prefix {text part : List Char} {n : ℕ} (h : Decimal text n) (hpart : part <+: text)
    (hne : part ≠ []) : ∃ v ≤ n, Decimal part v := by
  obtain ⟨rest, rfl⟩ := hpart
  refine ⟨_, ?_, hne, fun c hc => h.digits c (List.mem_append_left rest hc), rfl⟩
  rw [← h.value, Nat.ofDigitChars_append, Nat.ofDigitChars_eq_ofDigitChars_zero (l := rest)]
  exact (Nat.le_mul_of_pos_left _ (Nat.pow_pos (by decide))).trans (Nat.le_add_right _ _)

end Axon.Foundation
