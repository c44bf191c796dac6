import Mathlib.Data.List.Basic
import Mathlib.Data.Nat.ModEq
import Mathlib.Tactic.Common

/-! # Scanning a ring for a free position

`n` positions in a ring, and a head at which every scan begins. The scan takes the first free position from the
head on, and the head then moves behind it.

* **`ahead n head b`**: how many positions lie between the head and `b`.
* **`cyclicScan`**: the scan; `cyclicScan_eq_some_iff` and `cyclicScan_eq_none_iff` say what it finds.
* **`ahead_lt_of_scan`**: a position that is free and not taken is nearer to the head afterwards. This is the
  measure behind the fairness of the ring. -/

namespace Axon.Foundation

/-- How far `b` lies ahead of the head, in a ring of `n`. -/
def ahead (n head b : ℕ) : ℕ := (b + (n - head % n)) % n

/-- The first free position of a ring of `n`, from the head on. -/
def cyclicScan (free : ℕ → Bool) (n head : ℕ) : Option ℕ :=
  ((List.range n).map fun k => (head + k) % n).find? free

variable {n head b k : ℕ} {free : ℕ → Bool}

/-- No place is a whole lap ahead. -/
theorem ahead_lt (hn : 0 < n) (head b : ℕ) : ahead n head b < n := Nat.mod_lt _ hn

/-- Going that far ahead arrives there. -/
theorem add_ahead_mod (hb : b < n) (head : ℕ) : (head + ahead n head b) % n = b := by
  have hhead := Nat.mod_lt head (Nat.zero_lt_of_lt hb)
  have hsum : (head + (b + (n - head % n))) % n = b := by
    have hdiv := Nat.div_add_mod head n
    have hmul : head + (b + (n - head % n)) = b + n * (head / n + 1) := by
      rw [Nat.mul_add, Nat.mul_one]
      omega
    rw [hmul, Nat.add_mul_mod_self_left, Nat.mod_eq_of_lt hb]
  rw [ahead, Nat.add_mod_mod, hsum]

/-- There is only one way there within one round. -/
theorem ahead_add (hk : k < n) (head : ℕ) : ahead n head ((head + k) % n) = k := by
  have hn := Nat.zero_lt_of_lt hk
  have hback := add_ahead_mod (Nat.mod_lt (head + k) hn) head
  have hmod : Nat.ModEq n (ahead n head ((head + k) % n)) k := Nat.ModEq.add_left_cancel' head hback
  exact Nat.ModEq.eq_of_lt_of_lt hmod (ahead_lt hn _ _) hk

/-- Behind a position that is passed, the others are nearer. -/
theorem ahead_succ_lt {idx : ℕ} (hidx : idx < n) (hb : b < n) (hlt : ahead n head idx < ahead n head b) :
    ahead n ((idx + 1) % n) b < ahead n head b := by
  have hn := Nat.zero_lt_of_lt hb
  have hbn := ahead_lt hn head b
  set k := ahead n head b - ahead n head idx - 1 with hk
  have hthere : ((idx + 1) % n + k) % n = b := by
    calc ((idx + 1) % n + k) % n = (idx + (1 + k)) % n := by rw [Nat.mod_add_mod, Nat.add_assoc]
      _ = ((head + ahead n head idx) % n + (1 + k)) % n := by rw [add_ahead_mod hidx]
      _ = (head + ahead n head b) % n := by
          rw [Nat.mod_add_mod]
          congr 1
          omega
      _ = b := add_ahead_mod hb head
  have hahead := ahead_add (n := n) (k := k) (by omega) ((idx + 1) % n)
  rw [hthere] at hahead
  omega

/-- **What the scan finds** is free, and nothing nearer to the head is. -/
theorem cyclicScan_eq_some {idx : ℕ} (h : cyclicScan free n head = some idx) :
    idx < n ∧ free idx = true ∧ ∀ b < n, free b = true → ahead n head idx ≤ ahead n head b := by
  obtain ⟨hfree, pre, post, hlist, hpre⟩ := List.find?_eq_some_iff_append.mp h
  have hpos : ∀ i x, ((List.range n).map fun k => (head + k) % n)[i]? = some x → i < n ∧ x = (head + i) % n := by
    intro i x hx
    rw [List.getElem?_map] at hx
    obtain ⟨k, hk, rfl⟩ := Option.map_eq_some_iff.mp hx
    obtain ⟨hi, rfl⟩ := List.getElem?_eq_some_iff.mp hk
    rw [List.getElem_range]
    exact ⟨by simpa using hi, rfl⟩
  obtain ⟨hlen, hidx⟩ := hpos pre.length idx (by rw [hlist, List.getElem?_append_right le_rfl]; simp)
  have hn := Nat.zero_lt_of_lt hlen
  refine ⟨hidx ▸ Nat.mod_lt _ hn, hfree, fun b hb hfreeb => ?_⟩
  rw [hidx, ahead_add hlen]
  by_contra! hnear
  -- a free position before the one found would have been found
  have hmem : b ∈ pre := by
    have hget := congrArg (·[ahead n head b]?) hlist
    simp only [List.getElem?_append_left hnear] at hget
    have hb' : ((List.range n).map fun k => (head + k) % n)[ahead n head b]? = some b := by
      rw [List.getElem?_map, List.getElem?_range (ahead_lt hn head b), Option.map_some, add_ahead_mod hb]
    exact List.mem_of_getElem? (hget.symm.trans hb')
  have hnot := hpre b hmem
  rw [hfreeb] at hnot
  cases hnot

/-- **The scan finds nothing** exactly when nothing is free. -/
theorem cyclicScan_eq_none_iff (free : ℕ → Bool) (n head : ℕ) :
    cyclicScan free n head = none ↔ ∀ b < n, free b = false := by
  rw [cyclicScan, List.find?_eq_none]
  constructor
  · intro h b hb
    refine Bool.eq_false_iff.mpr (h b (List.mem_map.mpr ⟨ahead n head b, ?_, add_ahead_mod hb head⟩))
    exact List.mem_range.mpr (ahead_lt (Nat.zero_lt_of_lt hb) head b)
  · intro h x hx
    obtain ⟨k, hk, rfl⟩ := List.mem_map.mp hx
    rw [h _ (Nat.mod_lt _ (Nat.zero_lt_of_lt (List.mem_range.mp hk)))]
    exact Bool.false_ne_true

/-- **A free position that is not taken comes nearer.** -/
theorem ahead_lt_of_scan {idx : ℕ} (h : cyclicScan free n head = some idx) (hb : b < n) (hfree : free b = true)
    (hne : b ≠ idx) : ahead n ((idx + 1) % n) b < ahead n head b := by
  obtain ⟨hidx, -, hfirst⟩ := cyclicScan_eq_some h
  refine ahead_succ_lt hidx hb (lt_of_le_of_ne (hfirst b hb hfree) fun heq => hne ?_)
  rw [← add_ahead_mod hb head, ← heq, add_ahead_mod hidx head]

end Axon.Foundation
