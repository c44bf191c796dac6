import Axon.Subscriber

/-! # The fence ring and its file descriptors

What `lookup_fence` finds, and why what it finds is open: the FDs in the ring are distinct, and storing a
fence closes only the one it overwrites (`OpenBelow.store`). -/

namespace Axon

open Foundation

namespace FenceCache

variable {f : FenceCache} {token : UInt64} {fd : Fd}

/-- An FD that is found is in the ring, under its token. -/
theorem mem_of_lookupFence (h : f.lookupFence token = some fd) : ⟨token, some fd⟩ ∈ f.ring.slots := by
  obtain ⟨slot, hfind, hfd⟩ := Option.bind_eq_some_iff.mp h
  have hslot := List.find?_some hfind
  simp only [Bool.and_eq_true, beq_iff_eq] at hslot
  obtain rfl : slot = ⟨token, some fd⟩ := by
    obtain ⟨t, o⟩ := slot
    obtain rfl : o = some fd := hfd
    obtain rfl : t = token := hslot.2
    rfl
  exact Vector.mem_toList_iff.mp (List.mem_of_find?_eq_some hfind)

/-- A token in the ring is found. -/
theorem lookupFence_isSome (h : ⟨token, some fd⟩ ∈ f.ring.slots) : (f.lookupFence token).isSome = true := by
  have hfind : (f.ring.slots.toList.find? fun slot => slot.fd.isSome && slot.token == token).isSome = true := by
    refine List.find?_isSome.mpr ⟨_, Vector.mem_toList_iff.mpr h, ?_⟩
    simp
  obtain ⟨slot, hslot⟩ := Option.isSome_iff_exists.mp hfind
  have hok := List.find?_some hslot
  simp only [Bool.and_eq_true] at hok
  rw [lookupFence, hslot]
  exact hok.1

/-- After `close_fences` there is no fence in the ring. -/
theorem holds_closeFences (f : FenceCache) :
    f.closeFences.ring.Holds (fun slot => slot.fd = none) [] := by
  refine .nil rfl fun slot hslot => ?_
  obtain ⟨i, hi, rfl⟩ := Vector.mem_iff_getElem.mp hslot
  simp [closeFences]

end FenceCache

/-- **The FDs in the ring are open**: they are distinct, none of them is among the closed ones, and all of
either kind are numbered below `n`. -/
structure OpenBelow (ring : OverwriteRing FenceSlot kFenceRing) (closed : Fd → Prop) (n : ℕ) : Prop where
  numbered : ∀ i (h : i < kFenceRing) fd, ring.slots[i].fd = some fd → fd.num < n ∧ ¬ closed fd
  closed : ∀ fd, closed fd → fd.num < n
  distinct : ∀ i (hi : i < kFenceRing) j (hj : j < kFenceRing) fd,
    ring.slots[i].fd = some fd → ring.slots[j].fd = some fd → i = j

namespace OpenBelow

variable {ring : OverwriteRing FenceSlot kFenceRing} {closed closed' : Fd → Prop} {n n' : ℕ}

/-- A ring without fences. -/
theorem of_blank (h : ring.Holds (fun slot => slot.fd = none) []) (hclosed : ∀ fd, closed fd → fd.num < n) :
    OpenBelow ring closed n where
  numbered i hi fd hfd := by
    rw [h.unused i (Nat.zero_le i) hi] at hfd
    cases hfd
  closed := hclosed
  distinct i hi j hj fd hfd := by
    rw [h.unused i (Nat.zero_le i) hi] at hfd
    cases hfd

/-- New FDs are installed, and some of them closed. -/
theorem mono (h : OpenBelow ring closed n) (hn : n ≤ n')
    (hclosed : ∀ fd, closed' fd → closed fd ∨ (n ≤ fd.num ∧ fd.num < n')) : OpenBelow ring closed' n' where
  numbered i hi fd hfd := by
    obtain ⟨hlt, hopen⟩ := h.numbered i hi fd hfd
    refine ⟨hlt.trans_le hn, fun hc => ?_⟩
    rcases hclosed fd hc with hc | ⟨hge, -⟩
    · exact hopen hc
    · exact absurd hlt (not_lt.mpr hge)
  closed fd hc := by
    rcases hclosed fd hc with hc | ⟨-, hlt⟩
    · exact (h.closed fd hc).trans_le hn
    · exact hlt
  distinct := h.distinct

/-- **Storing a fence** with a new FD closes the one it overwrites and no other. -/
theorem store (h : OpenBelow ring closed n) {token : UInt64} {fd : Fd} (hfd : fd.num = n)
    (hclosed : ∀ fd', closed' fd' → closed fd' ∨ ring.oldest.fd = some fd') :
    OpenBelow (ring.store ⟨token, some fd⟩) closed' (n + 1) where
  numbered i hi fd' hfd' := by
    by_cases hin : ring.next.val = i
    · obtain rfl : fd = fd' := by
        simpa [OverwriteRing.store, Vector.getElem_set, hin] using hfd'
      refine ⟨by omega, fun hc => ?_⟩
      -- what was closed before, or overwritten now, has a smaller number
      have hlt : fd.num < n := by
        rcases hclosed fd hc with hc | hold
        · exact h.closed fd hc
        · exact (h.numbered _ ring.next.isLt fd hold).1
      omega
    · rw [OverwriteRing.store] at hfd'
      rw [Vector.getElem_set_ne ring.next.isLt hi hin] at hfd'
      obtain ⟨hlt, hopen⟩ := h.numbered i hi fd' hfd'
      refine ⟨by omega, fun hc => ?_⟩
      rcases hclosed fd' hc with hc | hold
      · exact hopen hc
      · exact hin (h.distinct _ ring.next.isLt i hi fd' hold hfd')
  closed fd' hc := by
    rcases hclosed fd' hc with hc | hold
    · exact (h.closed fd' hc).trans (Nat.lt_succ_self n)
    · exact (h.numbered _ ring.next.isLt fd' hold).1.trans (Nat.lt_succ_self n)
  distinct i hi j hj fd' hi' hj' := by
    simp only [OverwriteRing.store, Vector.getElem_set] at hi' hj'
    split_ifs at hi' hj' with hin hjn hjn
    · exact hin.symm.trans hjn
    · -- the new FD is not among the old ones
      obtain rfl := Option.some.inj hi'
      exact absurd (h.numbered j hj fd hj').1 (by omega)
    · obtain rfl := Option.some.inj hj'
      exact absurd (h.numbered i hi fd hi').1 (by omega)
    · exact h.distinct i hi j hj fd' hi' hj'

end OpenBelow

end Axon
