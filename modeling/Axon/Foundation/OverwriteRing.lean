import Mathlib.Algebra.Order.Group.Nat
import Mathlib.Data.List.Basic
import Mathlib.Data.List.DropRight
import Mathlib.Data.List.Nodup
import Mathlib.Data.Nat.ModEq
import Mathlib.Tactic.Common

/-! # A ring that overwrites its oldest entry

`n` slots, all filled with the same blank entry at first, and the position that is written next. Storing
overwrites the entry there and moves on by one.

* **`Holds r blank xs`**: the ring `r` is what storing the entries `xs` one after the other makes of a
  blank ring, as far as its slots can tell: the last `n` of `xs` are in it and nothing else but blanks.
  Which entries count as blank is a parameter.
* **`latest`**: the latest of the last `n` entries that passes a test. A search of the slots in array order does
  not always find it; `Holds.find?_eq_latest_iff` says when it does. -/

namespace Axon.Foundation

universe u

/-- A ring of `n` slots. -/
structure OverwriteRing (α : Type u) (n : ℕ) where
  slots : Vector α n
  /-- The slot the next entry goes to. -/
  next : Fin n
  deriving DecidableEq

namespace OverwriteRing

variable {α : Type u} {n : ℕ}

/-- A ring filled with `a`. -/
def fill (hn : 0 < n) (a : α) : OverwriteRing α n := ⟨.replicate n a, ⟨0, hn⟩⟩

/-- The entry that the next store overwrites. -/
def oldest (r : OverwriteRing α n) : α := r.slots[r.next]

/-- Store an entry over the oldest one. -/
def store (r : OverwriteRing α n) (a : α) : OverwriteRing α n where
  slots := r.slots.set r.next a
  next := ⟨(r.next + 1) % n, Nat.mod_lt _ r.next.pos⟩

/-- **The latest of the last `n` entries** that passes a test. -/
def latest (n : ℕ) (p : α → Bool) (xs : List α) : Option α := (xs.rtake n).reverse.find? p

/-- Position `m` has the latest entry that passes a test. -/
def LatestAt (p : α → Bool) (xs : List α) (m : ℕ) : Prop :=
  xs[m]?.any p = true ∧ ∀ k, xs[k]?.any p = true → k ≤ m

/-- The latest match is one. -/
theorem LatestAt.unique {p : α → Bool} {xs : List α} {m m' : ℕ} (h : LatestAt p xs m) (h' : LatestAt p xs m') :
    m = m' := Nat.le_antisymm (h'.2 m h.1) (h.2 m' h'.1)

/-- Less than a round apart, the earlier of two positions is in the lower slot when both are in one lap. -/
theorem mod_le_mod_iff_of_lt {i m : ℕ} (hlt : i < m) (hnear : m < i + n) : i % n ≤ m % n ↔ i / n = m / n := by
  have hi := Nat.div_add_mod i n
  have hm := Nat.div_add_mod m n
  obtain ⟨d, hd⟩ := Nat.exists_eq_add_of_le (Nat.div_le_div_right (c := n) hlt.le)
  rw [hd, Nat.mul_add] at hm
  rw [hd]
  rcases Nat.eq_zero_or_pos d with rfl | hpos
  · rw [Nat.mul_zero] at hm
    exact iff_of_true (by omega) rfl
  · have hround : n ≤ n * d := Nat.le_mul_of_pos_right n hpos
    exact iff_of_false (by omega) (by omega)

/-- The last `n` entries. -/
theorem mem_rtake_iff {xs : List α} {a : α} : a ∈ xs.rtake n ↔ ∃ i, xs[i]? = some a ∧ xs.length ≤ i + n := by
  rw [List.rtake, List.mem_iff_getElem?]
  constructor
  · rintro ⟨i, hi⟩
    rw [List.getElem?_drop] at hi
    exact ⟨_, hi, by omega⟩
  · rintro ⟨i, hi, hin⟩
    refine ⟨i - (xs.length - n), ?_⟩
    rw [List.getElem?_drop, Nat.add_sub_cancel' (by omega)]
    exact hi

/-- Without a match, none of the last `n` matches. -/
theorem latest_eq_none {p : α → Bool} {xs : List α} (h : latest n p xs = none) {k : ℕ} {b : α}
    (hk : xs[k]? = some b) (hkn : xs.length ≤ k + n) : p b = false := by
  refine Bool.eq_false_iff.mpr (List.find?_eq_none.mp h b ?_)
  rw [List.mem_reverse, mem_rtake_iff]
  exact ⟨k, hk, hkn⟩

/-- A match is the latest, and one of the last `n`. -/
theorem latest_eq_some {p : α → Bool} {xs : List α} {a : α} (h : latest n p xs = some a) :
    ∃ m, xs[m]? = some a ∧ xs.length ≤ m + n ∧ LatestAt p xs m := by
  obtain ⟨hpa, pre, post, hsplit, hpre⟩ := List.find?_eq_some_iff_append.mp h
  have hlast : xs.rtake n = post.reverse ++ a :: pre.reverse := by
    rw [List.reverse_eq_iff.mp hsplit, List.reverse_append, List.reverse_cons, List.append_assoc]
    rfl
  have hxs : xs = (xs.rdrop n ++ post.reverse) ++ a :: pre.reverse := by
    rw [List.append_assoc, ← hlast]
    exact (List.take_append_drop _ _).symm
  have hlen : (xs.rtake n).length ≤ n := by
    rw [List.rtake, List.length_drop]
    omega
  set older := xs.rdrop n ++ post.reverse
  have hthere : xs[older.length]? = some a := by
    rw [hxs, List.getElem?_append_right le_rfl, Nat.sub_self]
    rfl
  refine ⟨older.length, hthere, ?_, by rw [hthere]; exact hpa, fun k hk => ?_⟩
  · rw [hlast, List.length_append, List.length_cons] at hlen
    rw [hxs, List.length_append, List.length_cons]
    omega
  · by_contra! hlt
    -- a later entry that passes the test would have been taken
    obtain ⟨b, hk, hpb⟩ := (Option.any_eq_true _ _).mp hk
    rw [hxs, List.getElem?_append_right hlt.le] at hk
    obtain ⟨d, hd⟩ := Nat.exists_eq_add_of_lt hlt
    rw [show k - older.length = d + 1 by omega, List.getElem?_cons_succ] at hk
    have hnot := hpre b (List.mem_reverse.mp (List.mem_of_getElem? hk))
    rw [hpb] at hnot
    cases hnot

/-- The ring after the entries `xs` have been stored in it. -/
structure Holds (r : OverwriteRing α n) (blank : α → Prop) (xs : List α) : Prop where
  next : r.next.val = xs.length % n
  recent : ∀ i a, xs[i]? = some a → xs.length ≤ i + n → ∀ h : i % n < n, r.slots[i % n] = a
  unused : ∀ j, xs.length ≤ j → ∀ h : j < n, blank r.slots[j]

namespace Holds

variable {r : OverwriteRing α n} {blank : α → Prop} {a : α} {xs : List α}

/-- A ring of blanks. -/
theorem nil (hnext : r.next.val = 0) (h : ∀ b ∈ r.slots, blank b) : r.Holds blank [] where
  next := by rw [hnext, List.length_nil, Nat.zero_mod]
  recent i a hi := by cases hi
  unused j _ hj := h _ (Vector.getElem_mem hj)

/-- Storing one more entry. -/
theorem store (h : r.Holds blank xs) (a : α) : (r.store a).Holds blank (xs ++ [a]) := by
  have hn : 0 < n := r.next.pos
  have hnext := h.next
  refine ⟨?_, fun i b hi hlen hin => ?_, fun j hj hjn => ?_⟩
  · show (r.next.val + 1) % n = (xs ++ [a]).length % n
    rw [hnext, List.length_append, List.length_singleton, Nat.mod_add_mod]
  · rw [List.length_append, List.length_singleton] at hlen
    rcases lt_trichotomy i xs.length with hlt | rfl | hgt
    · -- an older entry: fewer than `n` positions back, so it is in another slot
      rw [List.getElem?_append_left hlt] at hi
      have hne : r.next.val ≠ i % n := by
        rw [hnext]
        intro heq
        have hd := (Nat.modEq_iff_dvd' hlt.le).mp (show Nat.ModEq n i xs.length from heq.symm)
        exact absurd (Nat.le_of_dvd (by omega) hd) (by omega)
      simp only [OverwriteRing.store]
      rw [Vector.getElem_set_ne _ _ hne]
      exact h.recent i b hi (by omega) hin
    · rw [List.getElem?_append_right le_rfl, Nat.sub_self] at hi
      obtain rfl : a = b := Option.some.inj hi
      simp [OverwriteRing.store, hnext]
    · rw [List.getElem?_eq_none (by simp; omega)] at hi
      cases hi
  · rw [List.length_append, List.length_singleton] at hj
    have hne : r.next.val ≠ j := by
      rw [hnext, Nat.mod_eq_of_lt (by omega)]
      omega
    simp only [OverwriteRing.store]
    rw [Vector.getElem_set_ne _ _ hne]
    exact h.unused j (by omega) hjn

/-- What is in a slot is blank or one of the last `n` entries. -/
theorem slot (h : r.Holds blank xs) {j : ℕ} (hj : j < n) (hb : ¬ blank r.slots[j]) :
    ∃ i, xs[i]? = some r.slots[j] ∧ xs.length ≤ i + n ∧ i % n = j := by
  have hn : 0 < n := r.next.pos
  rcases lt_or_ge j xs.length with hlt | hge
  · -- the last position of `xs` that is `j` modulo `n`
    set i := xs.length - 1 - (xs.length - 1 - j) % n with hi
    have hmod : (xs.length - 1 - j) % n < n := Nat.mod_lt _ hn
    have hle : (xs.length - 1 - j) % n ≤ xs.length - 1 - j := Nat.mod_le _ _
    have hlt' : i < xs.length := by omega
    have hij : i % n = j := by
      have hd : n ∣ i - j := by
        rw [show i - j = xs.length - 1 - j - (xs.length - 1 - j) % n by omega]
        exact Nat.dvd_sub_mod _
      have := (Nat.modEq_iff_dvd' (show j ≤ i by omega)).mpr hd
      rw [← this, Nat.mod_eq_of_lt hj]
    refine ⟨i, ?_, by omega, hij⟩
    have hrec := h.recent i xs[i] (List.getElem?_eq_getElem hlt') (by omega) (hij ▸ hj)
    simp only [hij] at hrec
    rw [List.getElem?_eq_getElem hlt', hrec]
  · exact absurd (h.unused j hge hj) hb

/-- What is in the ring is blank or one of the last `n` entries. -/
theorem mem (h : r.Holds blank xs) (ha : a ∈ r.slots) (hb : ¬ blank a) :
    ∃ i, xs[i]? = some a ∧ xs.length ≤ i + n := by
  obtain ⟨j, hj, rfl⟩ := Vector.mem_iff_getElem.mp ha
  obtain ⟨i, hi, hin, -⟩ := h.slot hj hb
  exact ⟨i, hi, hin⟩

/-- The entry stored last is in the ring. -/
theorem last_mem (h : r.Holds blank (xs ++ [a])) : a ∈ r.slots := by
  have hn : 0 < n := r.next.pos
  have hlt : xs.length % n < n := Nat.mod_lt _ hn
  have := h.recent xs.length a (by simp) (by simp; omega) hlt
  rw [← this]
  exact Vector.getElem_mem _

/-- **What a search finds**, in array order: of the last `n` entries that pass the test, the one in the lowest
slot. -/
theorem find?_eq_some {p : α → Bool} (h : r.Holds blank xs) (hp : ∀ b, blank b → p b = false)
    (hfind : r.slots.toList.find? p = some a) : ∃ i, xs[i]? = some a ∧ xs.length ≤ i + n ∧ p a = true ∧
      ∀ k b, xs[k]? = some b → xs.length ≤ k + n → p b = true → i % n ≤ k % n := by
  obtain ⟨hpa, j, hj, hslot, hbefore⟩ := List.find?_eq_some_iff_getElem.mp hfind
  have hn : 0 < n := r.next.pos
  have hjn : j < n := by simpa using hj
  rw [Vector.getElem_toList] at hslot
  have hb : ¬ blank r.slots[j] := by
    rw [hslot]
    intro hb
    rw [hp a hb] at hpa
    cases hpa
  obtain ⟨i, hi, hin, hij⟩ := h.slot hjn hb
  rw [hslot] at hi
  refine ⟨i, hi, hin, hpa, fun k b hk hkn hpb => ?_⟩
  rw [hij]
  by_contra! hlt
  -- an entry in a lower slot would have been found first
  have hnot := hbefore (k % n) hlt
  have hrec := h.recent k b hk hkn (Nat.mod_lt k hn)
  rw [Vector.getElem_toList, hrec, hpb] at hnot
  cases hnot

/-- A search that comes back empty: none of the last `n` entries passes the test. -/
theorem find?_eq_none {p : α → Bool} (h : r.Holds blank xs) (hfind : r.slots.toList.find? p = none) {k : ℕ} {b : α}
    (hk : xs[k]? = some b) (hkn : xs.length ≤ k + n) : p b = false := by
  have hn : 0 < n := r.next.pos
  have hmem : b ∈ r.slots.toList := by
    rw [← h.recent k b hk hkn (Nat.mod_lt k hn)]
    exact Vector.mem_toList_iff.mpr (Vector.getElem_mem _)
  exact Bool.eq_false_iff.mpr (List.find?_eq_none.mp hfind b hmem)

/-- **A search in array order finds the latest entry** exactly when no earlier one of the last `n` that passes
the test lies in the same lap around the slots. -/
theorem find?_eq_latest_iff {p : α → Bool} (h : r.Holds blank xs) (hp : ∀ b, blank b → p b = false)
    (hnodup : xs.Nodup) : r.slots.toList.find? p = latest n p xs ↔ ∀ i m, LatestAt p xs m →
      i < m → xs.length ≤ i + n → xs[i]?.any p = true → i / n ≠ m / n := by
  cases hlatest : latest n p xs with
  | none =>
      have hnone : ∀ k b, xs[k]? = some b → xs.length ≤ k + n → p b = false := fun k b => latest_eq_none hlatest
      constructor
      · intro _ i m _ _ hin hi
        obtain ⟨a, ha, hpa⟩ := (Option.any_eq_true _ _).mp hi
        rw [hnone i a ha hin] at hpa
        cases hpa
      · intro _
        by_contra hfound
        obtain ⟨a, ha⟩ := Option.ne_none_iff_exists'.mp hfound
        obtain ⟨i, hi, hin, hpa, -⟩ := h.find?_eq_some hp ha
        rw [hnone i a hi hin] at hpa
        cases hpa
  | some b =>
      obtain ⟨m, hm, hmn, hlast⟩ := latest_eq_some hlatest
      have hpb : p b = true := by simpa [hm] using hlast.1
      obtain ⟨a, ha⟩ : ∃ a, r.slots.toList.find? p = some a := by
        by_contra! hnone
        have := h.find?_eq_none (Option.eq_none_iff_forall_ne_some.mpr hnone) hm hmn
        rw [hpb] at this
        cases this
      obtain ⟨i, hi, hin, hpa, hlowest⟩ := h.find?_eq_some hp ha
      have hlt : m < xs.length := (List.getElem?_eq_some_iff.mp hm).1
      rw [ha, Option.some_inj]
      constructor
      · rintro rfl i' m' hlast' hlt' hin' hi' hlap
        obtain rfl := hlast.unique hlast'
        obtain rfl : i = m := (List.getElem?_inj (List.getElem?_eq_some_iff.mp hi).1 hnodup).mp
          (hi.trans hm.symm)
        obtain ⟨c, hc, hpc⟩ := (Option.any_eq_true _ _).mp hi'
        -- the earlier entry is in a lower slot than the one found
        have hle := (mod_le_mod_iff_of_lt hlt' (by omega)).mpr hlap
        have hne : i' % n ≠ i % n := fun heq => by
          have hd := (Nat.modEq_iff_dvd' hlt'.le).mp heq
          exact absurd (Nat.le_of_dvd (by omega) hd) (by omega)
        exact absurd (hlowest i' c hc hin' hpc) (by omega)
      · intro hlap
        have hpi : xs[i]?.any p = true := by
          rw [hi]
          exact hpa
        have him : i = m := by
          by_contra hne
          have hlt' := lt_of_le_of_ne (hlast.2 i hpi) hne
          exact hlap i m hlast hlt' hin hpi
            ((mod_le_mod_iff_of_lt hlt' (by omega)).mp (hlowest m b hm hmn hpb))
        rw [him, hm] at hi
        exact (Option.some.inj hi).symm

end Holds

end OverwriteRing

end Axon.Foundation
