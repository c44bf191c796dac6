import Axon.Foundation.Ledger
import Axon.PoolFds

/-! # The pool closes every FD once

A pool opens one or two FDs for each buffer, a capture device behind V4L2 buffers, and `/dev/udmabuf` while it
makes dma-bufs. `Sys.Holding` keeps the account of them from a starting point on, whichever calls fail, and
`pool_fds_closed_once` reads it off for every sequence of creations, reallocations and destructions. -/

namespace Axon

open Foundation

/-! ## The account of the system -/

/-- **The account since `s₀`**: of the FDs opened since then, those that are not closed are `held`. New FDs have
new numbers. -/
def Sys.Holding (s₀ s : Sys) (held : List Fd) : Prop :=
  ∃ opened closed, s.opened = s₀.opened ++ opened ∧ s.closed = s₀.closed ++ closed ∧
    Accounted opened closed held ∧ ∀ fd ∈ opened, fd.num < s.nextFd

namespace Sys.Holding

variable {s₀ s s' : Sys} {held held' : List Fd} {fd : Fd}

/-- Nothing has been opened yet. -/
theorem refl (s : Sys) : s.Holding s [] :=
  ⟨[], [], (List.append_nil _).symm, (List.append_nil _).symm, .nil, fun _ hfd => absurd hfd List.not_mem_nil⟩

/-- The order of what is held does not matter. -/
theorem of_perm (h : s₀.Holding s held) (hperm : held.Perm held') : s₀.Holding s held' := by
  obtain ⟨opened, closed, hopened, hclosed, hacc, hnum⟩ := h
  exact ⟨opened, closed, hopened, hclosed, hacc.of_perm hperm, hnum⟩

/-- A call that opens and closes nothing. -/
theorem ask (h : s₀.Holding s held) : s₀.Holding s.ask.2 held := h

/-- A new FD is held. -/
theorem openFd (h : s₀.Holding s held) (bytes : ℕ) :
    s₀.Holding (s.openFd bytes).2 ((s.openFd bytes).1 :: held) := by
  obtain ⟨opened, closed, hopened, hclosed, hacc, hnum⟩ := h
  refine ⟨opened ++ [(s.openFd bytes).1], closed, ?_, hclosed, hacc.acquire fun hmem => ?_, fun fd hfd => ?_⟩
  · show s.opened ++ [(s.openFd bytes).1] = _
    rw [hopened, List.append_assoc]
  · exact (hnum _ hmem).false
  · rcases List.mem_append.mp hfd with hfd | hfd
    · exact (hnum fd hfd).trans (Nat.lt_succ_self _)
    · rw [List.mem_singleton.mp hfd]
      exact Nat.lt_succ_self _

/-- An FD held is closed. -/
theorem close (h : s₀.Holding s (fd :: held)) : s₀.Holding (s.close fd) held := by
  obtain ⟨opened, closed, hopened, hclosed, hacc, hnum⟩ := h
  refine ⟨opened, closed ++ [fd], hopened, ?_, hacc.close, hnum⟩
  show s.closed ++ [fd] = _
  rw [hclosed, List.append_assoc]

/-- All of several FDs are closed. -/
theorem closeAll {fds : List Fd} (h : s₀.Holding s (fds ++ held)) (hopened' : s'.opened = s.opened)
    (hclosed' : s'.closed = s.closed ++ fds) (hnext : s'.nextFd = s.nextFd) : s₀.Holding s' held := by
  obtain ⟨opened, closed, hopened, hclosed, hacc, hnum⟩ := h
  refine ⟨opened, closed ++ fds, hopened'.trans hopened, ?_, hacc.closeAll, hnext ▸ hnum⟩
  rw [hclosed', hclosed, List.append_assoc]

end Sys.Holding

/-! ## Allocating and freeing -/

/-- The FDs of a buffer. -/
def PoolBuffer.fds (b : PoolBuffer) : List Fd := b.shareFd :: b.backingFd.toList

/-- The FDs of several buffers. -/
def bufferFds (bs : List PoolBuffer) : List Fd := bs.flatMap PoolBuffer.fds

/-- **An allocation keeps the account** when what it leaves open are the FDs of the buffer it returns. -/
def BufferAlloc.Accounts (alloc : BufferAlloc) : Prop := ∀ (s₀ s : Sys) (held : List Fd), s₀.Holding s held →
  s₀.Holding (alloc s).2 (bufferFds ((alloc s).1.map Prod.fst).toList ++ held)

/-- A memfd is held when it is sealed; one that cannot be sealed is closed again. -/
theorem makeSealedMemfd_holding {s₀ s : Sys} {held : List Fd} (h : s₀.Holding s held) (size : UInt64) :
    s₀.Holding (makeSealedMemfd s size).2 ((makeSealedMemfd s size).1.toList ++ held) := by
  have hopened := h.ask.openFd size.toNat
  unfold makeSealedMemfd
  -- each failure closes what was opened, so that nothing more is held
  split
  · rename_i e sys heq
    obtain rfl := Sys.of_ask_eq heq
    exact h.ask
  · rename_i n sys heq
    obtain rfl := Sys.of_ask_eq heq
    dsimp only
    split
    · rename_i e sys heq
      obtain rfl := Sys.of_ask_eq heq
      exact hopened.ask.close
    · rename_i n sys heq
      obtain rfl := Sys.of_ask_eq heq
      split
      · rename_i e sys heq
        obtain rfl := Sys.of_ask_eq heq
        exact hopened.ask.ask.close
      · rename_i n sys heq
        obtain rfl := Sys.of_ask_eq heq
        exact hopened.ask.ask

/-- **Custom** holds the memfd that it returns. -/
theorem allocCustom_accounts (size : UInt64) : (allocCustom size).Accounts := by
  intro s₀ s held h
  have hmemfd := makeSealedMemfd_holding h size
  unfold allocCustom
  split
  · rename_i sys heq
    rwa [heq] at hmemfd
  · rename_i fd sys heq
    rwa [heq] at hmemfd

/-- **UDMABUF** holds memfd and dma-buf, or closes the memfd. -/
theorem allocUdmabuf_accounts (size : UInt64) : (allocUdmabuf size).Accounts := by
  intro s₀ s held h
  have hmemfd := makeSealedMemfd_holding h size
  unfold allocUdmabuf
  split
  · rename_i sys heq
    rwa [heq] at hmemfd
  · rename_i memfd sys heq
    rw [heq] at hmemfd
    split
    · -- without a dma-buf on it the memfd is closed
      rename_i e sys' heq'
      obtain rfl := Sys.of_ask_eq heq'
      exact hmemfd.ask.close
    · rename_i n sys' heq'
      obtain rfl := Sys.of_ask_eq heq'
      exact hmemfd.ask.openFd size.toNat

/-- **V4L2** holds the buffer exported. -/
theorem allocV4l2_accounts (size : UInt64) : (allocV4l2 size).Accounts := by
  intro s₀ s held h
  unfold allocV4l2
  split
  · rename_i e sys heq
    obtain rfl := Sys.of_ask_eq heq
    exact h.ask
  · rename_i bytes sys heq
    obtain rfl := Sys.of_ask_eq heq
    exact h.ask.openFd bytes

/-- **The allocation loop keeps the account**, wherever it stops. -/
theorem allocLoop_holding {alloc : BufferAlloc} (halloc : alloc.Accounts) (n : ℕ) {bs : List PoolBuffer}
    {maxSize : UInt64} {s₀ s : Sys} {held : List Fd} (h : s₀.Holding s (bufferFds bs ++ held)) :
    s₀.Holding (allocLoop alloc n bs maxSize s).2.2.2
      (bufferFds (allocLoop alloc n bs maxSize s).2.1 ++ held) := by
  induction n generalizing bs maxSize s with
  | zero => exact h
  | succ n ih =>
      have hone := halloc s₀ s _ h
      unfold allocLoop
      split
      · rename_i sys heq
        rwa [heq] at hone
      · rename_i b size sys heq
        rw [heq] at hone
        refine ih (hone.of_perm ?_)
        -- the new buffer is the last one
        show (bufferFds [b] ++ (bufferFds bs ++ held)).Perm (bufferFds (bs ++ [b]) ++ held)
        rw [bufferFds, bufferFds, bufferFds, List.flatMap_append, ← List.append_assoc]
        exact List.perm_append_comm.append_right held

namespace TensorPool

/-- **The FDs a pool owns**: those of its buffers, and the capture device. -/
def ownFds (p : TensorPool) : List Fd := bufferFds p.buffers ++ p.v4l2Fd.toList

/-- A pool without buffers and device owns no FD. -/
theorem ownFds_of_empty {p : TensorPool} (hbuffers : p.buffers = []) (hdevice : p.v4l2Fd = none) :
    p.ownFds = [] := by
  rw [ownFds, hbuffers, hdevice]
  rfl

/-- Allocating buffers with a capture device or without. -/
theorem allocateWith_holding {p : TensorPool} {alloc : BufferAlloc} (halloc : alloc.Accounts) {s₀ s : Sys}
    {held : List Fd} (h : s₀.Holding s (p.ownFds ++ held)) :
    s₀.Holding (p.allocateWith s alloc).2.2 ((p.allocateWith s alloc).2.1.ownFds ++ held) := by
  rw [ownFds, List.append_assoc] at h
  have hloop := @allocLoop_holding alloc halloc p.cfg.nBuffers p.buffers 0 s₀ s (p.v4l2Fd.toList ++ held) h
  rwa [← List.append_assoc] at hloop

/-- The device behind udmabufs is closed again, whether or not the buffers could be made. -/
theorem allocateUdmabuf_holding {p : TensorPool} {s₀ s : Sys} {held : List Fd}
    (h : s₀.Holding s (p.ownFds ++ held)) :
    s₀.Holding (p.allocateUdmabuf s).2.2 ((p.allocateUdmabuf s).2.1.ownFds ++ held) := by
  unfold allocateUdmabuf
  split
  · rename_i e sys heq
    obtain rfl := Sys.of_ask_eq heq
    exact h.ask
  · rename_i n sys heq
    obtain rfl := Sys.of_ask_eq heq
    have hopened := (h.ask.openFd 0).of_perm List.perm_middle.symm
    exact ((allocateWith_holding (allocUdmabuf_accounts p.bufferSize) hopened).of_perm List.perm_middle).close

/-- The capture device stays with the pool, whether or not the buffers could be made. -/
theorem allocateV4l2_holding {p : TensorPool} (hdevice : p.v4l2Fd = none) {s₀ s : Sys} {held : List Fd}
    (h : s₀.Holding s (p.ownFds ++ held)) :
    s₀.Holding (p.allocateV4l2 s).2.2 ((p.allocateV4l2 s).2.1.ownFds ++ held) := by
  unfold allocateV4l2
  split_ifs
  · exact h
  · split
    · rename_i e sys heq
      obtain rfl := Sys.of_ask_eq heq
      exact h.ask
    · rename_i n sys heq
      obtain rfl := Sys.of_ask_eq heq
      -- the device is held from here on, also when a later call fails
      have hopened : s₀.Holding (s.ask.2.openFd 0).2
          (ownFds { p with v4l2Fd := some (s.ask.2.openFd 0).1 } ++ held) := by
        refine (h.ask.openFd 0).of_perm ?_
        rw [ownFds, ownFds, hdevice, Option.toList_none, List.append_nil, List.append_assoc]
        exact List.perm_middle.symm
      dsimp only
      split
      · rename_i e sys heq
        obtain rfl := Sys.of_ask_eq heq
        exact hopened.ask
      · rename_i count sys heq
        obtain rfl := Sys.of_ask_eq heq
        split_ifs
        · exact hopened.ask
        · exact allocateWith_holding (allocV4l2_accounts p.bufferSize) hopened.ask

/-- The backends whose buffers are FDs and nothing else. -/
def FdBackend (backend : PoolBackend) : Prop := backend = .Custom ∨ backend = .UDMABUF ∨ backend = .V4L2

/-- Whether a backend is one of these can be read off it. -/
instance (backend : PoolBackend) : Decidable (FdBackend backend) := inferInstanceAs (Decidable (_ ∨ _))

/-- **Allocating** adds the pool's own FDs to what is held. -/
theorem allocateBackend_holding {p : TensorPool} (hbackend : FdBackend p.cfg.backend)
    (hdevice : p.v4l2Fd = none) {s₀ s : Sys} {held : List Fd} (h : s₀.Holding s (p.ownFds ++ held)) :
    s₀.Holding (p.allocateBackend s).2.2 ((p.allocateBackend s).2.1.ownFds ++ held) := by
  unfold allocateBackend
  rcases hbackend with hb | hb | hb <;> rw [hb]
  · exact allocateWith_holding (allocCustom_accounts p.bufferSize) h
  · exact allocateUdmabuf_holding h
  · exact allocateV4l2_holding hdevice h

/-- Freeing a buffer closes its FDs. -/
theorem freeBuffer_closed (s : Sys) (b : PoolBuffer) :
    (freeBuffer s b).opened = s.opened ∧ (freeBuffer s b).closed = s.closed ++ b.fds := by
  unfold freeBuffer PoolBuffer.fds
  dsimp only
  split
  · rename_i fd hfd
    rw [hfd]
    exact ⟨rfl, List.append_assoc _ _ _⟩
  · rename_i hfd
    rw [hfd]
    exact ⟨rfl, rfl⟩

/-- Freeing buffers closes all their FDs. -/
theorem foldl_freeBuffer_closed (bs : List PoolBuffer) (s : Sys) :
    (bs.foldl freeBuffer s).opened = s.opened ∧ (bs.foldl freeBuffer s).closed = s.closed ++ bufferFds bs := by
  induction bs generalizing s with
  | nil => exact ⟨rfl, (List.append_nil _).symm⟩
  | cons b bs ih =>
      obtain ⟨hopened, hclosed⟩ := ih (freeBuffer s b)
      obtain ⟨hopened_b, hclosed_b⟩ := freeBuffer_closed s b
      refine ⟨hopened.trans hopened_b, ?_⟩
      rw [List.foldl_cons, hclosed, hclosed_b, List.append_assoc]
      rfl

/-- Freeing closes what the pool owns, in order. -/
theorem freeAll_closed (p : TensorPool) (s : Sys) : (p.freeAll s).2.opened = s.opened ∧
    (p.freeAll s).2.closed = s.closed ++ p.ownFds := by
  obtain ⟨hopened, hclosed⟩ := foldl_freeBuffer_closed p.buffers s
  unfold freeAll ownFds
  dsimp only
  split
  · rename_i fd hfd
    rw [hfd]
    refine ⟨hopened, ?_⟩
    show _ ++ [fd] = _
    rw [hclosed, List.append_assoc]
    rfl
  · rename_i hfd
    rw [hfd]
    exact ⟨hopened, hclosed.trans (congrArg _ (List.append_nil _).symm)⟩

/-- **`free_all`** closes the pool's own FDs and leaves what else is held. -/
theorem freeAll_holding {p : TensorPool} {s₀ s : Sys} {held : List Fd} (h : s₀.Holding s (p.ownFds ++ held)) :
    s₀.Holding (p.freeAll s).2 held := by
  obtain ⟨hopened, hclosed⟩ := p.freeAll_closed s
  exact h.closeAll hopened hclosed (p.freeAll_spec s).1

/-- **An allocation keeps the account**: what is open is what the pool owns, and a failed one owns nothing. -/
theorem allocate_holding {p : TensorPool} (hbackend : FdBackend p.cfg.backend) (hbuffers : p.buffers = [])
    (hdevice : p.v4l2Fd = none) {s₀ s : Sys} (h : s₀.Holding s []) :
    s₀.Holding (p.allocate s).2.2 (p.allocate s).2.1.ownFds ∧
      ((p.allocate s).1 = false → (p.allocate s).2.1.ownFds = []) := by
  have hempty : s₀.Holding s (p.ownFds ++ []) := by
    rw [ownFds_of_empty hbuffers hdevice]
    exact h
  have hmade := allocateBackend_holding hbackend hdevice hempty
  unfold allocate
  split
  · rename_i q sys heq
    rw [heq] at hmade
    exact ⟨freeAll_holding hmade, fun _ => rfl⟩
  · rename_i q sys heq
    rw [heq, List.append_nil] at hmade
    exact ⟨hmade, nofun⟩

/-- **Creating a pool**: what is open is what it owns; nothing, if there is no pool. -/
theorem create_holding {build : BuildConfig} {cfg : TensorPoolConfig} (hbackend : FdBackend cfg.backend)
    {s₀ s : Sys} (h : s₀.Holding s []) :
    s₀.Holding (create build cfg s).2 ((create build cfg s).1.elim [] ownFds) := by
  obtain ⟨hmade, hfailed⟩ := allocate_holding (p := unallocated build cfg s) hbackend rfl rfl h
  unfold create
  split_ifs
  · exact h
  · exact h
  · dsimp only
    split
    -- what failed has let go of everything it held
    · rename_i p sys heq
      have heq' : (unallocated build cfg s).allocate s = (false, p, sys) := heq
      rw [heq'] at hmade hfailed
      rw [hfailed rfl] at hmade
      exact hmade
    · rename_i p sys heq
      have heq' : (unallocated build cfg s).allocate s = (true, p, sys) := heq
      rwa [heq'] at hmade

/-- **Reallocating a pool**: what is open is what the pool then owns. -/
theorem retireAndReallocate_holding {p : TensorPool} (hbackend : FdBackend p.cfg.backend) {s₀ s : Sys}
    (h : s₀.Holding s p.ownFds) (n : UInt64) :
    s₀.Holding (p.retireAndReallocate n s).2 (p.retireAndReallocate n s).1.ownFds := by
  rw [← List.append_nil p.ownFds] at h
  exact (allocate_holding (p := p.retired n s) hbackend rfl rfl (freeAll_holding h)).1

/-- **`~TensorPool`**. -/
def destroy (p : TensorPool) (sys : Sys) : Sys := (p.freeAll sys).2

end TensorPool

/-! ## Lives of pools -/

/-- The pool there is, and the system below it. -/
structure PoolLife where
  pool : Option TensorPool
  sys : Sys

/-- What an owner does with one pool. -/
inductive PoolLifeEv
  | create (cfg : TensorPoolConfig)
  | reallocate (newBufferSize : UInt64)
  | destroy

namespace PoolLife

/-- The FDs of the pool, if there is one. -/
def fds (s : PoolLife) : List Fd := s.pool.elim [] TensorPool.ownFds

/-- One of these steps. A pool is created when there is none. -/
def step (build : BuildConfig) (s : PoolLife) : PoolLifeEv → Option PoolLife
  | .create cfg =>
      if s.pool = none ∧ TensorPool.FdBackend cfg.backend then
        let r := TensorPool.create build cfg s.sys
        some ⟨r.1, r.2⟩
      else none
  | .reallocate n => s.pool.map fun p =>
      let r := p.retireAndReallocate n s.sys
      ⟨some r.1, r.2⟩
  | .destroy => s.pool.map fun p => ⟨none, p.destroy s.sys⟩

end PoolLife

/-- Pools of the FD backends, one after the other. -/
def poolLifeMachine (build : BuildConfig) : Machine PoolLife PoolLifeEv where
  init s := s.pool = none
  step := PoolLife.step build

namespace PoolLife

/-- What every operation keeps. -/
structure Inv (s₀ : Sys) (s : PoolLife) : Prop where
  holding : s₀.Holding s.sys s.fds
  backend : ∀ p, s.pool = some p → TensorPool.FdBackend p.cfg.backend

/-- **A step keeps the ledger.** -/
theorem Inv.step {build : BuildConfig} {s₀ : Sys} {s s' : PoolLife} {e : PoolLifeEv} (h : s.Inv s₀)
    (hs : s.step build e = some s') : s'.Inv s₀ := by
  -- what is held is what the pool, if there is one, keeps a record of
  cases e with
  | create cfg =>
      obtain ⟨⟨hnone, hbackend⟩, hs⟩ := Option.ite_none_right_eq_some.mp hs
      cases hs
      have hholding := h.holding
      rw [fds, hnone] at hholding
      refine ⟨TensorPool.create_holding hbackend hholding, fun p hp => ?_⟩
      rwa [TensorPool.cfg_of_create (Prod.ext hp rfl)]
  | reallocate n =>
      obtain ⟨p, hp, rfl⟩ := Option.map_eq_some_iff.mp hs
      have hholding := h.holding
      rw [fds, hp] at hholding
      refine ⟨TensorPool.retireAndReallocate_holding (h.backend p hp) hholding n, ?_⟩
      rintro q ⟨⟩
      rw [(p.sameConfig_retireAndReallocate n s.sys).cfg]
      exact h.backend p hp
  | destroy =>
      obtain ⟨p, hp, rfl⟩ := Option.map_eq_some_iff.mp hs
      have hholding := h.holding
      rw [fds, hp, Option.elim_some, ← List.append_nil p.ownFds] at hholding
      exact ⟨TensorPool.freeAll_holding hholding, nofun⟩

end PoolLife

namespace Sys

/-- The FDs opened since `s₀`. -/
def openedSince (s₀ s : Sys) : List Fd := s.opened.drop s₀.opened.length

/-- The FDs closed since `s₀`. -/
def closedSince (s₀ s : Sys) : List Fd := s.closed.drop s₀.closed.length

/-- A ledger that holds what is open is accounted for. -/
theorem Holding.accounted {s₀ s : Sys} {held : List Fd} (h : s₀.Holding s held) :
    Accounted (s₀.openedSince s) (s₀.closedSince s) held := by
  obtain ⟨opened, closed, hopened, hclosed, hacc, -⟩ := h
  rw [openedSince, closedSince, hopened, hclosed, List.drop_left, List.drop_left]
  exact hacc

end Sys

/-- **The pool closes every FD it opens exactly once.** After any sequence of creations, reallocations and
destructions, whatever calls have failed, the FDs opened and not closed are those of the pool's buffers and its
capture device; none has been closed twice; and where there is no pool, none is open. -/
theorem pool_fds_closed_once {build : BuildConfig} {s₀ : Sys} {tr : List PoolLifeEv} {s : PoolLife}
    (hexec : (poolLifeMachine build).exec ⟨none, s₀⟩ tr = some s) :
    (∀ fd, fd ∈ s₀.openedSince s.sys ∧ fd ∉ s₀.closedSince s.sys ↔ fd ∈ s.fds) ∧
      (s₀.closedSince s.sys).Nodup ∧ s₀.closedSince s.sys ⊆ s₀.openedSince s.sys ∧
      (s.pool = none → ∀ fd ∈ s₀.openedSince s.sys, fd ∈ s₀.closedSince s.sys) := by
  have hinv : s.Inv s₀ := Machine.exec_invariant hexec ⟨.refl s₀, nofun⟩ fun _ _ _ _ h hs _ => h.step hs
  have hacc := hinv.holding.accounted
  refine ⟨fun fd => hacc.open_iff, hacc.closed_nodup, hacc.closed_subset, fun hnone fd hopened => ?_⟩
  by_contra hclosed
  have hheld := hacc.open_iff.mp ⟨hopened, hclosed⟩
  rw [PoolLife.fds, hnone] at hheld
  exact absurd hheld List.not_mem_nil

/-- A system that refuses the first udmabuf of the second set. -/
def Sys.withoutUdmabuf : Sys := { Sys.obliging with answer := fun i => if i = 13 then .error .other else .ok 0 }

/-- Two dma-bufs on memfds are replaced, which fails on the way: seven FDs have been opened, and seven closed. -/
theorem pool_fds_closed_once_udmabuf : ∃ s, (poolLifeMachine ⟨false, false⟩).exec ⟨none, .withoutUdmabuf⟩
      [.create ⟨2, 4096, .UDMABUF, none⟩, .reallocate 8192, .destroy] = some s ∧
    (Sys.withoutUdmabuf.openedSince s.sys).length = 7 ∧ (Sys.withoutUdmabuf.closedSince s.sys).Nodup ∧
    ∀ fd ∈ Sys.withoutUdmabuf.openedSince s.sys, fd ∈ Sys.withoutUdmabuf.closedSince s.sys := by
  obtain ⟨s, hs⟩ : ∃ s, (poolLifeMachine ⟨false, false⟩).exec ⟨none, .withoutUdmabuf⟩
      [.create ⟨2, 4096, .UDMABUF, none⟩, .reallocate 8192, .destroy] = some s := ⟨_, rfl⟩
  obtain ⟨-, hnodup, -, hnone⟩ := pool_fds_closed_once hs
  refine ⟨s, hs, ?_, hnodup, hnone ?_⟩ <;> cases hs <;> rfl

end Axon
