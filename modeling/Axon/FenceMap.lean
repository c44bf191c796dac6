import Axon.FenceRing
import Axon.Foundation.Ledger

/-! # The fence ring as a map

`store_fence` is meant to make of sixteen slots a map from tokens to fences, in which the latest value wins.
`lookup_fence` searches the slots in array order, though, and `fence_map_iff` says when what it finds is the latest.
The FDs are accounted for in any case. -/

namespace Axon

open Foundation

/-- The calls of a fence cache. -/
inductive FenceEv
  | storeFence (token : UInt64) (fd : Fd)
  | closeFences

namespace FenceEv

/-- The FDs that are stored, in order. -/
def storedFds (tr : List FenceEv) : List Fd :=
  tr.filterMap fun
    | .storeFence _ fd => some fd
    | .closeFences => none

/-- The fences stored since the last `close_fences`, in order. -/
def sinceClose (tr : List FenceEv) : List FenceSlot :=
  tr.foldl (fun xs e => match e with
    | .storeFence token fd => xs ++ [⟨token, some fd⟩]
    | .closeFences => []) []

variable {tr : List FenceEv} {token : UInt64} {fd : Fd}

/-- A fence stored is one more FD. -/
theorem storedFds_store : storedFds (tr ++ [.storeFence token fd]) = storedFds tr ++ [fd] := List.filterMap_append

/-- Closing the fences stores none. -/
theorem storedFds_close : storedFds (tr ++ [.closeFences]) = storedFds tr := by
  rw [storedFds, List.filterMap_append]
  exact List.append_nil _

/-- A fence stored is the newest since the last close. -/
theorem sinceClose_store : sinceClose (tr ++ [.storeFence token fd]) = sinceClose tr ++ [⟨token, some fd⟩] :=
  List.foldl_concat _ _ _ _

/-- Behind a close there are none. -/
theorem sinceClose_close : sinceClose (tr ++ [.closeFences]) = [] := List.foldl_concat _ _ _ _

end FenceEv

/-- A slot with a fence for `token`. -/
def FenceSlot.hasToken (token : UInt64) (slot : FenceSlot) : Bool := slot.fd.isSome && slot.token == token

/-- **What a map would return**: of the last sixteen fences, the FD of the latest one with this token. -/
def latestFence (token : UInt64) (xs : List FenceSlot) : Option Fd :=
  (OverwriteRing.latest kFenceRing (FenceSlot.hasToken token) xs).bind (·.fd)

namespace FenceCache

/-- The cache after a call. -/
def after (f : FenceCache) : FenceEv → FenceCache
  | .storeFence token fd => f.storeFence token fd
  | .closeFences => f.closeFences

/-- The cache of a new subscriber after a sequence of calls. -/
def run (tr : List FenceEv) : FenceCache := tr.foldl after TensorSubscriber.create.fences

/-- The FDs in the ring. -/
def ringFds (f : FenceCache) : List Fd := f.ring.slots.toList.filterMap (·.fd)

end FenceCache

/-- **The fence ring is a map of the last sixteen fences**, in which the latest one wins, and closes every FD
once, when it is no longer among them. -/
structure FenceMap (f : FenceCache) (tr : List FenceEv) : Prop where
  latest : ∀ token, f.lookupFence token = latestFence token (FenceEv.sinceClose tr)
  closed_once : f.closed.Nodup
  closed_iff : ∀ fd, fd ∈ f.closed ↔
    fd ∈ FenceEv.storedFds tr ∧ ∀ slot ∈ (FenceEv.sinceClose tr).rtake kFenceRing, slot.fd ≠ some fd
  usable : ∀ token fd, f.lookupFence token = some fd → fd ∉ f.closed

/-- **The latest fence of a token is the first of its lap**: among the last sixteen fences, no earlier one with its
token was stored in the same lap around the slots. -/
def LatestFirstInLap (xs : List FenceSlot) : Prop :=
  ∀ token i m, OverwriteRing.LatestAt (FenceSlot.hasToken token) xs m → i < m → xs.length ≤ i + kFenceRing →
    xs[i]?.any (FenceSlot.hasToken token) = true → i / kFenceRing ≠ m / kFenceRing

namespace FenceCache

/-- What the calls keep. -/
structure Inv (f : FenceCache) (stored : List Fd) (xs : List FenceSlot) : Prop where
  holds : f.ring.Holds (·.fd = none) xs
  accounted : Accounted stored f.closed f.ringFds
  nodup : xs.Nodup
  fds : ∀ slot ∈ xs, ∃ fd ∈ stored, slot.fd = some fd

variable {f : FenceCache} {stored : List Fd} {xs : List FenceSlot} {tr : List FenceEv}

/-- Storing a fence puts its FD in the place of the one that is closed. -/
theorem ringFds_storeFence (f : FenceCache) (token : UInt64) (fd : Fd) : ∃ rest : List Fd,
    f.ringFds.Perm (f.ring.oldest.fd.toList ++ rest) ∧ (f.storeFence token fd).ringFds.Perm (fd :: rest) := by
  have hlt : f.ring.next.val < f.ring.slots.toList.length := by
    rw [Vector.length_toList]
    exact f.ring.next.isLt
  refine ⟨(f.ring.slots.toList.eraseIdx f.ring.next).filterMap (·.fd), ?_, ?_⟩
  · have hperm := ((List.getElem_cons_eraseIdx_perm hlt).symm).filterMap (·.fd)
    have hone : List.filterMap (·.fd) [f.ring.oldest] = f.ring.oldest.fd.toList := by
      cases hfd : f.ring.oldest.fd <;> simp [hfd]
    rw [← List.singleton_append, List.filterMap_append, Vector.getElem_toList] at hperm
    rw [← hone]
    exact hperm
  · have hperm := (List.set_perm_cons_eraseIdx hlt ⟨token, some fd⟩).filterMap (·.fd)
    rw [ringFds, FenceCache.storeFence, OverwriteRing.store, Vector.toList_set]
    exact hperm

/-- **Storing a fence keeps the invariant.** -/
theorem Inv.storeFence (h : f.Inv stored xs) (token : UInt64) {fd : Fd} (hfd : fd ∉ stored) :
    (f.storeFence token fd).Inv (stored ++ [fd]) (xs ++ [⟨token, some fd⟩]) := by
  have hnew : (⟨token, some fd⟩ : FenceSlot) ∉ xs := by
    intro hmem
    obtain ⟨fd', hstored, heq⟩ := h.fds _ hmem
    obtain rfl := Option.some.inj heq
    exact hfd hstored
  obtain ⟨rest, hold, hafter⟩ := f.ringFds_storeFence token fd
  refine ⟨h.holds.store _, ?_, ?_, fun slot hslot => ?_⟩
  · exact (((h.accounted.of_perm hold).closeAll).acquire hfd).of_perm hafter.symm
  · exact h.nodup.append (List.nodup_singleton _) (List.disjoint_singleton.mpr hnew)
  · rcases List.mem_append.mp hslot with hslot | hslot
    · obtain ⟨fd', hstored, heq⟩ := h.fds slot hslot
      exact ⟨fd', List.mem_append_left _ hstored, heq⟩
    · rw [List.mem_singleton.mp hslot]
      exact ⟨fd, List.mem_append_right _ List.mem_cons_self, rfl⟩

/-- **Closing the fences keeps the invariant.** -/
theorem Inv.closeFences (h : f.Inv stored xs) : f.closeFences.Inv stored [] := by
  refine ⟨f.holds_closeFences, ?_, List.nodup_nil, fun slot hslot => absurd hslot List.not_mem_nil⟩
  have hempty : f.closeFences.ringFds = [] := by
    refine List.filterMap_eq_nil_iff.mpr fun slot hslot => ?_
    obtain ⟨slot, -, rfl⟩ := Vector.mem_map.mp (Vector.mem_toList_iff.mp hslot)
    rfl
  rw [hempty]
  have hheld := h.accounted
  rw [← List.append_nil f.ringFds] at hheld
  exact hheld.closeAll

/-- **A sequence of calls** on distinct FDs keeps all of it. -/
theorem inv_run (hdistinct : (FenceEv.storedFds tr).Nodup) :
    (run tr).Inv (FenceEv.storedFds tr) (FenceEv.sinceClose tr) := by
  induction tr using List.reverseRecOn with
  | nil =>
      refine ⟨.nil rfl fun slot hslot => ?_, .nil, List.nodup_nil, fun slot hslot => absurd hslot List.not_mem_nil⟩
      rw [(Vector.mem_replicate.mp hslot).2]
      rfl
  | append_singleton tr e ih =>
      rw [run, List.foldl_concat]
      cases e with
      -- closing starts a new list of fences
      | closeFences =>
          rw [FenceEv.storedFds_close] at hdistinct ⊢
          rw [FenceEv.sinceClose_close]
          exact (ih hdistinct).closeFences
      | storeFence token fd =>
          rw [FenceEv.storedFds_store] at hdistinct ⊢
          rw [FenceEv.sinceClose_store]
          -- the FD stored is one that was not stored before
          have hnew := List.nodup_append'.mp hdistinct
          exact (ih hnew.1).storeFence token fun hmem => hnew.2.2 hmem List.mem_cons_self

/-- Of slots with a fence for one token, the FD tells which it is. -/
theorem bind_fd_inj {token : UInt64} {o o' : Option FenceSlot} (ho : ∀ slot ∈ o, slot.hasToken token = true)
    (ho' : ∀ slot ∈ o', slot.hasToken token = true) (h : o.bind (·.fd) = o'.bind (·.fd)) : o = o' := by
  -- a slot with the token is determined by its FD
  have hfd : ∀ slot : FenceSlot, slot.hasToken token = true → ∃ fd, slot = ⟨token, some fd⟩ := by
    rintro ⟨t, fd⟩ hslot
    obtain ⟨hsome, htoken⟩ := Bool.and_eq_true_iff.mp hslot
    obtain ⟨fd, rfl⟩ := Option.isSome_iff_exists.mp hsome
    obtain rfl : t = token := eq_of_beq htoken
    exact ⟨fd, rfl⟩
  cases o with
  | none =>
      cases o' with
      | none => rfl
      | some b =>
          obtain ⟨fd, rfl⟩ := hfd b (ho' b rfl)
          cases h
  | some a =>
      obtain ⟨fd, rfl⟩ := hfd a (ho a rfl)
      cases o' with
      | none => cases h
      | some b =>
          obtain ⟨fd', rfl⟩ := hfd b (ho' b rfl)
          cases h
          rfl

/-- **The latest fence is found** exactly when it is the first of its lap. -/
theorem Inv.lookup_iff (h : f.Inv stored xs) :
    (∀ token, f.lookupFence token = latestFence token xs) ↔ LatestFirstInLap xs := by
  refine forall_congr' fun token => ?_
  have hblank : ∀ slot : FenceSlot, slot.fd = none → slot.hasToken token = false := by
    intro slot hslot
    rw [FenceSlot.hasToken, hslot]
    rfl
  rw [← h.holds.find?_eq_latest_iff hblank h.nodup]
  constructor
  · intro heq
    exact bind_fd_inj (fun slot hslot => List.find?_some hslot) (fun slot hslot => List.find?_some hslot) heq
  · intro heq
    exact congrArg (·.bind (·.fd)) heq

/-- The FDs in the ring are those of the last sixteen fences. -/
theorem Inv.mem_ringFds (h : f.Inv stored xs) {fd : Fd} :
    fd ∈ f.ringFds ↔ ∃ slot ∈ xs.rtake kFenceRing, slot.fd = some fd := by
  rw [ringFds, List.mem_filterMap]
  constructor
  · rintro ⟨slot, hslot, hfd⟩
    refine ⟨slot, OverwriteRing.mem_rtake_iff.mpr (h.holds.mem (Vector.mem_toList_iff.mp hslot) ?_), hfd⟩
    rw [hfd]
    exact Option.some_ne_none fd
  · rintro ⟨slot, hslot, hfd⟩
    obtain ⟨i, hi, hlast⟩ := OverwriteRing.mem_rtake_iff.mp hslot
    refine ⟨slot, ?_, hfd⟩
    rw [← h.holds.recent i slot hi hlast (Nat.mod_lt i (by decide))]
    exact Vector.mem_toList_iff.mpr (Vector.getElem_mem _)

end FenceCache

/-- **The fence ring is a map exactly when the latest fence of every token is the first of its lap**, after any
sequence of calls that store distinct FDs. -/
theorem fence_map_iff {tr : List FenceEv} (hdistinct : (FenceEv.storedFds tr).Nodup) :
    FenceMap (FenceCache.run tr) tr ↔ LatestFirstInLap (FenceEv.sinceClose tr) := by
  have hinv := FenceCache.inv_run hdistinct
  rw [← hinv.lookup_iff]
  refine ⟨fun h => h.latest, fun hlatest => ⟨hlatest, hinv.accounted.closed_nodup, fun fd => ?_, ?_⟩⟩
  · have hopen := (hinv.accounted.open_iff (a := fd)).trans hinv.mem_ringFds
    constructor
    · intro hclosed
      exact ⟨hinv.accounted.closed_subset hclosed, fun slot hslot hfd => (hopen.mpr ⟨slot, hslot, hfd⟩).2 hclosed⟩
    · rintro ⟨hstored, hgone⟩
      by_contra hclosed
      obtain ⟨slot, hslot, hfd⟩ := hopen.mp ⟨hstored, hclosed⟩
      exact hgone slot hslot hfd
  · intro token fd hfind
    refine (hinv.accounted.open_iff.mpr ?_).2
    exact List.mem_filterMap.mpr ⟨_, Vector.mem_toList_iff.mpr (FenceCache.mem_of_lookupFence hfind), rfl⟩

/-- One token, seventeen times: the latest fence begins a new lap, and is found where the first one was. -/
theorem fence_map_one_token :
    FenceMap (FenceCache.run ((List.range 17).map fun i => .storeFence 7 ⟨i, ⟨i, 0⟩⟩))
      ((List.range 17).map fun i => .storeFence 7 ⟨i, ⟨i, 0⟩⟩) := by
  refine (fence_map_iff (by decide)).mpr fun token i m hlast hlt hwindow hi hlap => ?_
  have hxs : FenceEv.sinceClose ((List.range 17).map fun i => .storeFence 7 ⟨i, ⟨i, 0⟩⟩) =
    (List.range 17).map fun i => ⟨7, some ⟨i, ⟨i, 0⟩⟩⟩ := rfl
  rw [hxs] at hlast hi
  -- the 17 stores all have this token
  have hin : ∀ k, ((List.range 17).map fun i => (⟨7, some ⟨i, ⟨i, 0⟩⟩⟩ : FenceSlot))[k]?.any
      (FenceSlot.hasToken token) = (decide (k < 17) && (7 == token)) := by
    intro k
    by_cases hk : k < 17
    · rw [List.getElem?_map, List.getElem?_range hk, decide_eq_true hk]
      rfl
    · rw [List.getElem?_eq_none (by simpa using hk), decide_eq_false hk]
      rfl
  have hm := hlast.1
  have h16 := hlast.2 16
  rw [hin] at hi hm h16
  simp only [Bool.and_eq_true, decide_eq_true_eq] at hi hm h16
  -- the latest store with the token is the seventeenth, the first one of its lap
  have hle := h16 ⟨by decide, hi.2⟩
  change i / 16 = m / 16 at hlap
  omega

/-- **An older fence is found**: a token that is stored twice leads to the first fence. -/
theorem fence_map_shadowed :
    ¬ ∀ tr : List FenceEv, (FenceEv.storedFds tr).Nodup → FenceMap (FenceCache.run tr) tr := by
  intro h
  have hlatest := (h [.storeFence 7 ⟨0, ⟨0, 0⟩⟩, .storeFence 7 ⟨1, ⟨1, 0⟩⟩] (by decide)).latest 7
  revert hlatest
  decide

end Axon
