import Axon.Foundation.CyclicScan
import Axon.Foundation.Machine
import Axon.Producer

/-! # Handing out the buffers of a pool

`acquire_next` takes the first free buffer from the ring head on, `release` gives one back.
`ring_exclusive_and_fair` says that a buffer is never handed out twice at a time, and that one that stays free is
handed out within a round. -/

namespace Axon

open Foundation

namespace TensorPool

/-- Buffer `i` is free. -/
def isFree (p : TensorPool) (i : ℕ) : Bool := p.inUse[i]? == some false

/-- **`acquire_next`**: `-1` when the pool is exhausted. Every buffer has an FD of its own, so an index fits in
an `int`. -/
def acquireNext (p : TensorPool) : ℤ × TensorPool :=
  let n := p.buffers.length
  match cyclicScan p.isFree n p.ringHead with
  | some idx => (idx, { p with inUse := p.inUse.set idx true, ringHead := (idx + 1) % n })
  | none => (-1, p)

/-- **`release`**. -/
def release (p : TensorPool) (index : ℤ) : TensorPool :=
  if 0 ≤ index ∧ index.toNat < p.inUse.length then { p with inUse := p.inUse.set index.toNat false } else p

/-- There is a mark for every buffer. -/
def Marked (p : TensorPool) : Prop := p.inUse.length = p.buffers.length

/-- **Only the mark of buffer `idx` is set**, to `used`; the buffers and all else but the ring head are as they
were. -/
structure OnlyMarks (p q : TensorPool) (idx : ℕ) (used : Bool) : Prop where
  mark : q.inUse[idx]? = some used
  others : ∀ j, j ≠ idx → q.inUse[j]? = p.inUse[j]?
  rest : { q with inUse := p.inUse, ringHead := p.ringHead } = p

/-- **`acquire_next` is exclusive**: it fails exactly when every buffer is in use, and hands out a buffer that was
free otherwise. -/
structure AcquiresFree (p : TensorPool) : Prop where
  exhausted : p.acquireNext.1 = -1 ↔ ∀ i < p.buffers.length, p.inUse[i]? = some true
  refused : p.acquireNext.1 = -1 → p.acquireNext.2 = p
  handed : p.acquireNext.1 ≠ -1 → ∃ idx < p.buffers.length, p.acquireNext.1 = idx ∧
    p.inUse[idx]? = some false ∧ p.OnlyMarks p.acquireNext.2 idx true

/-- **`release` gives back one buffer**, and ignores what is not the index of one. -/
structure ReleasesOne (p : TensorPool) : Prop where
  one : ∀ index : ℤ, 0 ≤ index → index < p.buffers.length →
    p.OnlyMarks (p.release index) index.toNat false ∧ (p.release index).ringHead = p.ringHead
  ignored : ∀ index : ℤ, ¬ (0 ≤ index ∧ index < p.buffers.length) → p.release index = p

variable {p : TensorPool}

/-- A buffer is free when it is marked as such. -/
theorem isFree_eq_true {i : ℕ} : p.isFree i = true ↔ p.inUse[i]? = some false := beq_iff_eq

/-- Setting a mark. -/
theorem onlyMarks_set {idx : ℕ} (h : idx < p.inUse.length) (used : Bool) (head : ℕ) :
    p.OnlyMarks { p with inUse := p.inUse.set idx used, ringHead := head } idx used where
  mark := List.getElem?_set_self h
  others _ hj := List.getElem?_set_ne hj.symm
  rest := rfl

/-- The two ways through `acquire_next`. -/
theorem acquireNext_cases (p : TensorPool) :
    (cyclicScan p.isFree p.buffers.length p.ringHead = none ∧ p.acquireNext = (-1, p)) ∨
    ∃ idx : ℕ, cyclicScan p.isFree p.buffers.length p.ringHead = some idx ∧ p.acquireNext =
      ((idx : ℤ), { p with inUse := p.inUse.set idx true, ringHead := (idx + 1) % p.buffers.length }) := by
  unfold acquireNext
  cases hscan : cyclicScan p.isFree p.buffers.length p.ringHead with
  | none => exact .inl ⟨rfl, by simp only [hscan]⟩
  | some idx => exact .inr ⟨idx, rfl, by simp only [hscan]⟩

/-- With a mark for every buffer, one that is not free is in use. -/
theorem Marked.not_free_iff (h : p.Marked) {i : ℕ} (hi : i < p.buffers.length) :
    p.isFree i = false ↔ p.inUse[i]? = some true := by
  have hlt : i < p.inUse.length := by rwa [h]
  rw [isFree, List.getElem?_eq_getElem hlt]
  cases p.inUse[i] <;> simp

/-- **`acquire_next`** hands out a free buffer, if there is one. -/
theorem Marked.acquiresFree (h : p.Marked) : p.AcquiresFree := by
  rcases p.acquireNext_cases with ⟨hscan, heq⟩ | ⟨idx, hscan, heq⟩
  · have hnone := (cyclicScan_eq_none_iff _ _ _).mp hscan
    refine ⟨?_, fun _ => by rw [heq], fun hne => absurd (by rw [heq]) hne⟩
    rw [heq]
    exact iff_of_true rfl fun i hi => (h.not_free_iff hi).mp (hnone i hi)
  · obtain ⟨hidx, hfree, -⟩ := cyclicScan_eq_some hscan
    have hne : p.acquireNext.1 ≠ -1 := by
      rw [heq]
      show (idx : ℤ) ≠ -1
      omega
    refine ⟨iff_of_false hne fun hall => ?_, fun heq' => absurd heq' hne, fun _ => ⟨idx, hidx, ?_⟩⟩
    · rw [(h.not_free_iff hidx).mpr (hall idx hidx)] at hfree
      cases hfree
    · rw [heq]
      exact ⟨rfl, isFree_eq_true.mp hfree, onlyMarks_set (by rwa [h]) true _⟩

/-- **`release`** frees the buffer it is given and no other. -/
theorem Marked.releasesOne (h : p.Marked) : p.ReleasesOne := by
  constructor
  · intro index hnonneg hlt
    have hin : index.toNat < p.inUse.length := by
      rw [h]
      omega
    rw [release, if_pos ⟨hnonneg, hin⟩]
    exact ⟨onlyMarks_set hin false p.ringHead, rfl⟩
  · intro index hout
    refine if_neg fun hin => hout ⟨hin.1, ?_⟩
    have hlt := hin.2
    rw [h] at hlt
    omega

/-- Acquiring keeps one mark for each buffer. -/
theorem Marked.acquireNext (h : p.Marked) : p.acquireNext.2.Marked ∧
    p.acquireNext.2.buffers = p.buffers := by
  rcases p.acquireNext_cases with ⟨-, heq⟩ | ⟨idx, -, heq⟩
  · rw [heq]
    exact ⟨h, rfl⟩
  · rw [heq]
    exact ⟨List.length_set.trans h, rfl⟩

/-- Releasing keeps one mark for each buffer. -/
theorem Marked.release (h : p.Marked) (index : ℤ) : (p.release index).Marked ∧
    (p.release index).buffers = p.buffers := by
  unfold TensorPool.release
  split_ifs
  · exact ⟨List.length_set.trans h, rfl⟩
  · exact ⟨h, rfl⟩

/-- An allocation marks its buffers, all of them free. -/
theorem allocate_marked (p : TensorPool) (sys : Sys) : (p.allocate sys).2.1.Marked := by
  unfold allocate
  split
  · rfl
  · exact List.length_map _

end TensorPool

/-! ## Runs of the ring -/

/-- A pool, and the system below it. -/
structure PoolRing where
  pool : TensorPool
  sys : Sys

/-- What an owner does with the ring of a pool. -/
inductive PoolRingEv
  | acquireNext
  | release (index : ℤ)
  | reallocate (newBufferSize : UInt64)

namespace PoolRing

/-- The ring after an operation. -/
def after (r : PoolRing) : PoolRingEv → PoolRing
  | .acquireNext => { r with pool := r.pool.acquireNext.2 }
  | .release index => { r with pool := r.pool.release index }
  | .reallocate n =>
      let q := r.pool.retireAndReallocate n r.sys
      ⟨q.1, q.2⟩

/-- The buffer that an operation hands out, if any. -/
def handedBy (r : PoolRing) : PoolRingEv → List ℕ
  | .acquireNext => if r.pool.acquireNext.1 = -1 then [] else [r.pool.acquireNext.1.toNat]
  | _ => []

/-- **The buffers handed out** in a sequence of operations, one for each `acquire_next` that succeeds. -/
def handed : PoolRing → List PoolRingEv → List ℕ
  | _, [] => []
  | r, e :: tr => r.handedBy e ++ (r.after e).handed tr

/-- **The ring is fair**: until the next reallocation, a buffer that is free is among the next `n` handed out,
for `n` buffers, when as many are. -/
def Fair (r : PoolRing) : Prop :=
  ∀ tr, (∀ n, .reallocate n ∉ tr) → ∀ b, r.pool.inUse[b]? = some false →
    r.pool.buffers.length ≤ (r.handed tr).length → b ∈ (r.handed tr).take r.pool.buffers.length

variable {r : PoolRing} {e : PoolRingEv}

/-- **Every call keeps one mark for each buffer.** -/
theorem marked_after (h : r.pool.Marked) (e : PoolRingEv) : (r.after e).pool.Marked := by
  cases e with
  | acquireNext => exact h.acquireNext.1
  | release index => exact (h.release index).1
  | reallocate n => exact TensorPool.allocate_marked (r.pool.retired n r.sys) _

/-- How far ahead of the head buffer `b` is. -/
def distance (r : PoolRing) (b : ℕ) : ℕ := ahead r.pool.buffers.length r.pool.ringHead b

/-- **One operation**: a free buffer is handed out, or it stays free and comes nearer with every other buffer that
is handed out. -/
theorem free_after (h : r.pool.Marked) (he : ∀ n, e ≠ .reallocate n) {b : ℕ}
    (hb : r.pool.inUse[b]? = some false) :
    r.handedBy e = [b] ∨ (r.after e).pool.inUse[b]? = some false ∧
      (r.after e).distance b + (r.handedBy e).length ≤ r.distance b := by
  have hlt : b < r.pool.buffers.length := by
    rw [← h]
    exact (List.getElem?_eq_some_iff.mp hb).1
  cases e with
  | reallocate n => exact absurd rfl (he n)
  | release index =>
      -- a release only sets marks free, and leaves the head where it is
      refine .inr ⟨?_, ?_⟩
      · show (r.pool.release index).inUse[b]? = some false
        unfold TensorPool.release
        split_ifs
        · by_cases heq : index.toNat = b
          · rw [heq]
            exact List.getElem?_set_self (by rwa [h])
          · exact (List.getElem?_set_ne heq).trans hb
        · exact hb
      · unfold distance after TensorPool.release
        dsimp only
        split_ifs <;> exact le_rfl
  | acquireNext =>
      rcases r.pool.acquireNext_cases with ⟨hscan, heq⟩ | ⟨idx, hscan, heq⟩
      · -- with a free buffer the scan does not come back empty
        have hused := (cyclicScan_eq_none_iff _ _ _).mp hscan b hlt
        rw [TensorPool.isFree_eq_true.mpr hb] at hused
        cases hused
      · have hhanded : r.handedBy .acquireNext = [idx] := by
          rw [handedBy, heq, if_neg (by omega), Int.toNat_natCast]
        -- it is the buffer handed out, or lies behind that
        by_cases hne : b = idx
        · exact .inl (by rw [hhanded, hne])
        · refine .inr ⟨?_, ?_⟩
          · show r.pool.acquireNext.2.inUse[b]? = some false
            rw [heq]
            exact (List.getElem?_set_ne (Ne.symm hne)).trans hb
          · rw [hhanded]
            show ahead r.pool.acquireNext.2.buffers.length r.pool.acquireNext.2.ringHead b + 1 ≤ _
            rw [heq]
            exact ahead_lt_of_scan hscan hlt (TensorPool.isFree_eq_true.mpr hb) hne

/-- **A free buffer is handed out in time**: before more buffers are handed out than lie between it and the
head. -/
theorem mem_take_handed {tr : List PoolRingEv} (hno : ∀ n, .reallocate n ∉ tr) {b m : ℕ} (h : r.pool.Marked)
    (hb : r.pool.inUse[b]? = some false) (hdist : r.distance b < m) (hm : m ≤ (r.handed tr).length) :
    b ∈ (r.handed tr).take m := by
  induction tr generalizing r m with
  | nil => exact absurd (hdist.trans_le hm) (Nat.not_lt_zero _)
  | cons e tr ih =>
      have hne : ∀ n, e ≠ .reallocate n := fun n heq => hno n (heq ▸ List.mem_cons_self)
      rw [handed] at hm ⊢
      -- the distance goes down with every buffer handed out
      rcases free_after h hne hb with hhanded | ⟨hfree, hnear⟩
      · rw [hhanded, List.singleton_append]
        obtain ⟨m, rfl⟩ := Nat.exists_eq_succ_of_ne_zero (Nat.ne_zero_of_lt hdist)
        rw [List.take_succ_cons]
        exact List.mem_cons_self
      · rw [List.length_append] at hm
        rw [List.take_append]
        have hno' : ∀ n, .reallocate n ∉ tr := fun n hn => hno n (List.mem_cons_of_mem e hn)
        exact List.mem_append_right _ (ih hno' (marked_after h e) hfree (by omega) (by omega))

/-- A ring with a mark for every buffer is fair. -/
theorem fair_of_marked (h : r.pool.Marked) : r.Fair := by
  intro tr hno b hb hlen
  have hlt : b < r.pool.buffers.length := by
    rw [← h]
    exact (List.getElem?_eq_some_iff.mp hb).1
  exact mem_take_handed hno h hb (ahead_lt (Nat.zero_lt_of_lt hlt) _ _) hlen

end PoolRing

/-- A pool that has been created, and what is done with its buffers. -/
def poolRingMachine : Machine PoolRing PoolRingEv where
  init r := ∃ build cfg sys, TensorPool.create build cfg sys = (some r.pool, r.sys)
  step r e := some (r.after e)

/-- **The ring is exclusive and fair**, after any sequence of `acquire_next`, `release` and
`retire_and_reallocate`, whatever allocations have failed. -/
theorem ring_exclusive_and_fair {build : BuildConfig} {cfg : TensorPoolConfig} {sys sys' : Sys} {p : TensorPool}
    (hcreate : TensorPool.create build cfg sys = (some p, sys')) {tr : List PoolRingEv} {r : PoolRing}
    (hexec : poolRingMachine.exec ⟨p, sys'⟩ tr = some r) :
    r.pool.AcquiresFree ∧ r.pool.ReleasesOne ∧ r.Fair := by
  have hmarked : r.pool.Marked := by
    refine Machine.exec_invariant (P := fun r : PoolRing => r.pool.Marked) hexec ?_ ?_
    · have hallocated := TensorPool.allocate_marked (.unallocated build cfg sys) sys
      rwa [(TensorPool.allocate_of_create hcreate).2] at hallocated
    · rintro r₁ e r₂ - h ⟨⟩ -
      exact PoolRing.marked_after h e
  exact ⟨hmarked.acquiresFree, hmarked.releasesOne, PoolRing.fair_of_marked hmarked⟩

/-- Three memfds: while buffer 0 goes back and forth, buffer 2 stays free, and is the third to be handed out. -/
theorem ring_exclusive_and_fair_memfds : ∃ r : PoolRing,
    (∃ p sys', TensorPool.create ⟨false, false⟩ ⟨3, 4096, .Custom, none⟩ .obliging = (some p, sys') ∧
      poolRingMachine.exec ⟨p, sys'⟩ [.acquireNext, .release 7, .release 0, .release (-1)] = some r) ∧
    r.pool.AcquiresFree ∧ r.handed [.acquireNext, .acquireNext, .release 1, .acquireNext] = [1, 2, 0] ∧
    2 ∈ (r.handed [.acquireNext, .acquireNext, .release 1, .acquireNext]).take 3 := by
  obtain ⟨p, sys', hcreate⟩ : ∃ p sys', TensorPool.create ⟨false, false⟩ ⟨3, 4096, .Custom, none⟩ .obliging =
    (some p, sys') := ⟨_, _, rfl⟩
  obtain ⟨r, hexec⟩ : ∃ r, poolRingMachine.exec ⟨p, sys'⟩
    [.acquireNext, .release 7, .release 0, .release (-1)] = some r := ⟨_, rfl⟩
  obtain ⟨hfree, -, hfair⟩ := ring_exclusive_and_fair hcreate hexec
  refine ⟨r, ⟨p, sys', hcreate, hexec⟩, hfree, ?_⟩
  cases hcreate
  cases hexec
  exact ⟨by decide, hfair _ (by simp) 2 rfl (by decide)⟩

end Axon
