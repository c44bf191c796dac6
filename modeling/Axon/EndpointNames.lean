import Mathlib.Data.List.Forall2
import Mathlib.Data.List.TakeWhile
import Mathlib.Tactic.Common

/-! # The endpoints of a service name

A service name is turned into a socket path and into the name of a shared memory object. Both encoders replace
three characters by a fourth; the system calls read a string up to its first NUL, and `sun_path` takes 107 bytes
of it.

* **`boundPath_eq_iff`**, **`slotName_eq_iff`**: two services get the same endpoint exactly when what is read of
  their names looks alike, byte for byte.
* **`unlinkedPath_eq_iff`**: the server unlinks the path it has bound exactly when that fits into `sun_path`. -/

namespace Axon

/-- The bytes of a string literal. -/
def ascii (cs : List Char) : List UInt8 := cs.map Char.toUInt8

/-- What becomes of a character of a service name. -/
def sanitizeChar (c : UInt8) : UInt8 :=
  if c = '/'.toUInt8 ∨ c = ' '.toUInt8 ∨ c = ':'.toUInt8 then '_'.toUInt8 else c

/-- **`sanitize`**: a service name as a token that is safe in the file system. -/
def sanitize (serviceName : List UInt8) : List UInt8 := serviceName.map sanitizeChar

/-- `"/tmp/axon."`. -/
def socketPrefix : List UInt8 := ascii ['/', 't', 'm', 'p', '/', 'a', 'x', 'o', 'n', '.']

/-- `".sock"`. -/
def socketSuffix : List UInt8 := ascii ['.', 's', 'o', 'c', 'k']

/-- `"/axon."`. -/
def slotPrefix : List UInt8 := ascii ['/', 'a', 'x', 'o', 'n', '.']

/-- **`sidecar_socket_path`**. -/
def sidecarSocketPath (serviceName : List UInt8) : List UInt8 :=
  socketPrefix ++ sanitize serviceName ++ socketSuffix

/-- **`metadata_shm_name`**, which replaces the same characters. -/
def metadataShmName (serviceName : List UInt8) : List UInt8 := slotPrefix ++ serviceName.map sanitizeChar

/-- A `std::string` as system calls read it. -/
def cStr (s : List UInt8) : List UInt8 := s.takeWhile fun c => c ≠ 0

/-- `sizeof(sockaddr_un::sun_path)`. -/
def sunPathSize : ℕ := 108

/-- What `snprintf` leaves of a path in `sun_path`, before the NUL. -/
def sunPath (path : List UInt8) : List UInt8 := (cStr path).take (sunPathSize - 1)

/-- The path that `bind` and `connect` are given. -/
def boundPath (name : List UInt8) : List UInt8 := sunPath (sidecarSocketPath name)

/-- The path that `unlink` is given. -/
def unlinkedPath (name : List UInt8) : List UInt8 := cStr (sidecarSocketPath name)

/-- The name that `shm_open` and `shm_unlink` are given. -/
def slotName (name : List UInt8) : List UInt8 := cStr (metadataShmName name)

/-! ## What is left of a name -/

/-- The characters that look like an underscore in an endpoint. -/
def separators : List UInt8 := ascii ['/', ' ', ':', '_']

/-- Two bytes of names that cannot be told apart. -/
def Alike (x y : UInt8) : Prop := x = y ∨ (x ∈ separators ∧ y ∈ separators)

/-- Two bytes are compared with each other and with the separators. -/
instance : DecidableRel Alike := fun x y => inferInstanceAs (Decidable (x = y ∨ (x ∈ separators ∧ y ∈ separators)))

/-- What a socket's path shows of a name: its bytes and the suffix up to the first NUL, 97 bytes at most. -/
def socketToken (name : List UInt8) : List UInt8 := (cStr (name ++ socketSuffix)).take 97

/-- **The name fits**: with its suffix it has at most 97 bytes before the first NUL. -/
def Fits (name : List UInt8) : Prop := (cStr (name ++ socketSuffix)).length ≤ 97

/-- Whether a name fits is a comparison of lengths. -/
instance (name : List UInt8) : Decidable (Fits name) := inferInstanceAs (Decidable (_ ≤ _))

/-- **Names that can be told apart** in both endpoints. -/
def Distinguishable (a b : List UInt8) : Prop :=
  ¬ List.Forall₂ Alike (socketToken a) (socketToken b) ∧ ¬ List.Forall₂ Alike (cStr a) (cStr b)

/-- Two names are told apart by comparing what is made of them. -/
instance (a b : List UInt8) : Decidable (Distinguishable a b) := inferInstanceAs (Decidable (¬ _ ∧ ¬ _))

/-- Two bytes become one exactly when they look alike. -/
theorem sanitizeChar_eq_iff (x y : UInt8) : sanitizeChar x = sanitizeChar y ↔ Alike x y := by
  have hsep : ∀ c : UInt8, c ∈ separators ↔
      (c = '/'.toUInt8 ∨ c = ' '.toUInt8 ∨ c = ':'.toUInt8) ∨ c = '_'.toUInt8 := by
    intro c
    simp [separators, ascii, or_assoc]
  unfold sanitizeChar Alike
  rw [hsep, hsep]
  -- each character is changed by the function or left alone
  by_cases hx : x = '/'.toUInt8 ∨ x = ' '.toUInt8 ∨ x = ':'.toUInt8 <;>
    by_cases hy : y = '/'.toUInt8 ∨ y = ' '.toUInt8 ∨ y = ':'.toUInt8
  · simp [hx, hy]
  · rw [if_pos hx, if_neg hy]
    constructor
    -- one is changed, so the other, which is not, is an underscore itself
    · intro heq
      exact .inr ⟨.inl hx, .inr heq.symm⟩
    · rintro (rfl | ⟨-, hy' | rfl⟩)
      · exact absurd hx hy
      · exact absurd hy' hy
      · rfl
  · rw [if_neg hx, if_pos hy]
    constructor
    · intro heq
      exact .inr ⟨.inr heq, .inl hy⟩
    · rintro (rfl | ⟨hx' | rfl, -⟩)
      · exact absurd hy hx
      · exact absurd hx' hx
      · rfl
  · rw [if_neg hx, if_neg hy, or_iff_right hx, or_iff_right hy]
    constructor
    · exact .inl
    · rintro (heq | ⟨rfl, rfl⟩)
      · exact heq
      · rfl

/-- Two names become one exactly when they look alike. -/
theorem sanitize_eq_iff (a b : List UInt8) : sanitize a = sanitize b ↔ List.Forall₂ Alike a b := by
  have hrel : (fun x y => sanitizeChar x = sanitizeChar y) = Alike := by
    funext x y
    exact propext (sanitizeChar_eq_iff x y)
  rw [← List.forall₂_eq_eq_eq, sanitize, sanitize, List.forall₂_map_left_iff, List.forall₂_map_right_iff, hrel]

/-- A character that is replaced is not a NUL, and no character becomes one. -/
theorem sanitizeChar_eq_zero (c : UInt8) : sanitizeChar c = 0 ↔ c = 0 := by
  unfold sanitizeChar
  split_ifs with hc
  · refine iff_of_false (by decide) ?_
    rintro rfl
    revert hc
    decide
  · exact Iff.rfl

/-- A NUL ends a name before and after it is sanitized. -/
theorem cStr_sanitize (name : List UInt8) : cStr (sanitize name) = sanitize (cStr name) := by
  have hzero : ((fun c : UInt8 => decide (c ≠ 0)) ∘ sanitizeChar) = fun c => decide (c ≠ 0) := by
    funext c
    simp [sanitizeChar_eq_zero]
  rw [cStr, sanitize, List.takeWhile_map, hzero]
  rfl

/-- The encoders' prefixes have no NUL. -/
theorem cStr_append {pre : List UInt8} (hpre : 0 ∉ pre) (s : List UInt8) : cStr (pre ++ s) = pre ++ cStr s :=
  List.takeWhile_append_of_pos fun _ hc => decide_eq_true (ne_of_mem_of_not_mem hc hpre)

/-- The path that is unlinked, in full. -/
theorem unlinkedPath_eq (name : List UInt8) :
    unlinkedPath name = socketPrefix ++ sanitize (cStr (name ++ socketSuffix)) := by
  have hsuffix : sanitize name ++ socketSuffix = sanitize (name ++ socketSuffix) := by
    rw [sanitize, sanitize, List.map_append]
    rfl
  rw [unlinkedPath, sidecarSocketPath, List.append_assoc, cStr_append (by decide), hsuffix, cStr_sanitize]

/-- The path that is bound, cut to what a socket's address holds. -/
theorem boundPath_eq (name : List UInt8) : boundPath name = socketPrefix ++ sanitize (socketToken name) := by
  have hpath := unlinkedPath_eq name
  rw [unlinkedPath] at hpath
  rw [boundPath, sunPath, hpath, List.take_append, List.take_of_length_le (by decide), socketToken, sanitize,
    sanitize, List.map_take]
  rfl

/-- The name of the slot, in full. -/
theorem slotName_eq (name : List UInt8) : slotName name = slotPrefix ++ sanitize (cStr name) := by
  rw [slotName, metadataShmName, cStr_append (by decide), ← cStr_sanitize]
  rfl

/-- **Which services share a socket path.** -/
theorem boundPath_eq_iff (a b : List UInt8) :
    boundPath a = boundPath b ↔ List.Forall₂ Alike (socketToken a) (socketToken b) := by
  rw [boundPath_eq, boundPath_eq, List.append_right_inj, sanitize_eq_iff]

/-- **Which services share a slot's name.** -/
theorem slotName_eq_iff (a b : List UInt8) : slotName a = slotName b ↔ List.Forall₂ Alike (cStr a) (cStr b) := by
  rw [slotName_eq, slotName_eq, List.append_right_inj, sanitize_eq_iff]

/-- The length of the path that is unlinked. -/
theorem length_unlinkedPath (name : List UInt8) :
    (unlinkedPath name).length = 10 + (cStr (name ++ socketSuffix)).length := by
  rw [unlinkedPath_eq, List.length_append, sanitize, List.length_map]
  rfl

/-- The path that is bound leaves room for a NUL. -/
theorem length_boundPath_le (name : List UInt8) : (boundPath name).length ≤ 107 := by
  rw [boundPath, sunPath, List.length_take]
  exact min_le_left _ _

/-- **Which paths are unlinked as they were bound.** -/
theorem unlinkedPath_eq_iff (name : List UInt8) : unlinkedPath name = boundPath name ↔ Fits name := by
  have hlen := length_unlinkedPath name
  unfold Fits
  constructor
  · intro heq
    have hle := length_boundPath_le name
    rw [← heq] at hle
    omega
  · intro hle
    refine (List.take_of_length_le ?_).symm
    show (unlinkedPath name).length ≤ 107
    omega

/-- A path too long to be bound is nobody's. -/
theorem boundPath_eq_of_unlinkedPath_eq {a b : List UInt8} (h : unlinkedPath a = boundPath b) :
    boundPath a = boundPath b := by
  have hle := length_boundPath_le b
  have hlen := length_unlinkedPath a
  rw [← h] at hle
  rw [← (unlinkedPath_eq_iff a).mpr (by unfold Fits; omega), h]

/-- **Names of at most 92 bytes, without a NUL**, are told apart by any byte that is not a separator in both. -/
theorem distinguishable_short_iff {a b : List UInt8} (ha : 0 ∉ a) (hb : 0 ∉ b) (hla : a.length ≤ 92)
    (hlb : b.length ≤ 92) : Distinguishable a b ↔ ¬ List.Forall₂ Alike a b := by
  -- names this short are not cut, and hold no NUL
  have htoken : ∀ s : List UInt8, 0 ∉ s → s.length ≤ 92 →
      socketToken s = s ++ socketSuffix ∧ cStr s = s := by
    intro s hs hlen
    have hself : cStr s = s := by simpa [cStr] using cStr_append hs []
    refine ⟨?_, hself⟩
    have hsuffix : cStr socketSuffix = socketSuffix := by decide
    rw [socketToken, cStr_append hs, hsuffix]
    refine List.take_of_length_le ?_
    rw [List.length_append, show socketSuffix.length = 5 from rfl]
    omega
  obtain ⟨hsa, hca⟩ := htoken a ha hla
  obtain ⟨hsb, hcb⟩ := htoken b hb hlb
  unfold Distinguishable
  rw [hsa, hsb, hca, hcb]
  -- the suffix is the same on both sides
  have happend : List.Forall₂ Alike (a ++ socketSuffix) (b ++ socketSuffix) ↔ List.Forall₂ Alike a b := by
    rw [← sanitize_eq_iff, ← sanitize_eq_iff, sanitize, sanitize, List.map_append, List.map_append,
      List.append_left_inj]
    rfl
  rw [happend, and_self]

end Axon
