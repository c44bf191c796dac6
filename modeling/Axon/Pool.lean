import Axon.Sidecar.Wire

/-! # The buffer pool

`TensorPool` allocates the buffers of a producer, hands them out in ring order, and replaces all of them
on `retire_and_reallocate`. Everything the allocation asks of the system goes through `Sys`: each call
that can fail takes the next answer of an arbitrary sequence, so a statement about all systems is a
statement about all sequences of answers. -/

namespace Axon

/-! ## The system below -/

/-- **The system calls of one process**: the answers they will give, and the FDs opened and closed so
far. -/
structure Sys where
  /-- `sysconf(_SC_PAGESIZE)`, `0` when it fails. -/
  page : UInt64
  /-- The answer of the `n`-th call that can fail. The number says how large, or where. -/
  answer : ℕ → Except Errno ℕ
  /-- How many calls have been answered. -/
  calls : ℕ
  nextFd : ℕ
  opened : List Fd
  closed : List Fd
  /-- `NvBufSurfaceGetMapParams` of a surface. -/
  mapParams : ℕ → List UInt8

namespace Sys

/-- Make a call that can fail. -/
def ask (s : Sys) : Except Errno ℕ × Sys := (s.answer s.calls, { s with calls := s.calls + 1 })

/-- A new FD, for a new file of `bytes` bytes. -/
def openFd (s : Sys) (bytes : ℕ) : Fd × Sys :=
  let fd : Fd := ⟨s.nextFd, ⟨s.nextFd, bytes⟩⟩
  (fd, { s with nextFd := s.nextFd + 1, opened := s.opened ++ [fd] })

/-- An FD is closed. -/
def close (s : Sys) (fd : Fd) : Sys := { s with closed := s.closed ++ [fd] }

end Sys

/-- Round a size up to whole pages. -/
def pageRoundUp (sys : Sys) (n : UInt64) : UInt64 :=
  let page := if sys.page ≠ 0 then sys.page else 4096
  (n + page - 1) &&& ~~~(page - 1)

/-- A memfd of `size` bytes, sealed against shrinking. -/
def makeSealedMemfd (sys : Sys) (size : UInt64) : Option Fd × Sys :=
  match sys.ask with
  | (.error _, sys) => (none, sys)
  | (.ok _, sys) =>
      let (fd, sys) := sys.openFd size.toNat
      match sys.ask with  -- ftruncate
      | (.error _, sys) => (none, sys.close fd)
      | (.ok _, sys) =>
          match sys.ask with  -- F_SEAL_SHRINK
          | (.error _, sys) => (none, sys.close fd)
          | (.ok _, sys) => (some fd, sys)

/-! ## The pool -/

/-- One buffer of a pool. -/
structure PoolBuffer where
  /-- The FD handed to consumers. -/
  shareFd : Fd
  /-- The memfd kept alive behind a udmabuf. -/
  backingFd : Option Fd
  /-- Accelerator only: the device pointer in the owning process. -/
  devicePtr : Option ℕ
  /-- NvBufSurface only. -/
  nvbufSurf : Option ℕ
  /-- NvBufSurface only: row pitch of plane 0. -/
  pitch : UInt32
  deriving DecidableEq

/-- A buffer that is an FD and nothing else. -/
def PoolBuffer.ofFd (shareFd : Fd) (backingFd : Option Fd) : PoolBuffer where
  shareFd := shareFd
  backingFd := backingFd
  devicePtr := none
  nvbufSurf := none
  pitch := 0

/-- `TensorPoolConfig`. -/
structure TensorPoolConfig where
  nBuffers : ℕ
  bufferSize : UInt64
  backend : PoolBackend
  v4l2Device : Option String

/-- **`TensorPool::Impl`**. -/
structure TensorPool where
  build : BuildConfig
  cfg : TensorPoolConfig
  /-- Page-aligned actual size. -/
  bufferSize : UInt64
  gen : PoolGeneration
  buffers : List PoolBuffer
  /-- Cached view for `dma_buf_fds`. -/
  shareFds : List Fd
  inUse : List Bool
  ringHead : ℕ
  /-- NvBufSurface import params. -/
  importBlob : List UInt8
  v4l2Fd : Option Fd

/-- One buffer and its size, or a failure. -/
abbrev BufferAlloc := Sys → Option (PoolBuffer × UInt64) × Sys

/-- Allocate `n` buffers one after the other: the buffers up to the first failure, the largest of their
sizes, and whether there was no failure. -/
def allocLoop (alloc : BufferAlloc) : ℕ → List PoolBuffer → UInt64 → Sys →
    Bool × List PoolBuffer × UInt64 × Sys
  | 0, bs, maxSize, sys => (true, bs, maxSize, sys)
  | n + 1, bs, maxSize, sys =>
      match alloc sys with
      | (none, sys) => (false, bs, maxSize, sys)
      | (some (b, size), sys) =>
          allocLoop alloc n (bs ++ [b]) (if maxSize < size then size else maxSize) sys

/-- Custom: one memfd. -/
def allocCustom (size : UInt64) : BufferAlloc := fun sys =>
  match makeSealedMemfd sys size with
  | (none, sys) => (none, sys)
  | (some fd, sys) => (some (.ofFd fd none, size), sys)

/-- UDMABUF: one memfd and a dma-buf on it. -/
def allocUdmabuf (size : UInt64) : BufferAlloc := fun sys =>
  match makeSealedMemfd sys size with
  | (none, sys) => (none, sys)
  | (some memfd, sys) =>
      match sys.ask with  -- UDMABUF_CREATE
      | (.error _, sys) => (none, sys.close memfd)
      | (.ok _, sys) =>
          let (dmabuf, sys) := sys.openFd size.toNat
          (some (.ofFd dmabuf (some memfd), size), sys)

/-- V4L2: one exported capture buffer, as large as the driver made it. -/
def allocV4l2 (size : UInt64) : BufferAlloc := fun sys =>
  match sys.ask with  -- VIDIOC_EXPBUF
  | (.error _, sys) => (none, sys)
  | (.ok bytes, sys) =>
      let (fd, sys) := sys.openFd bytes
      (some (.ofFd fd none, size), sys)

/-- `aligned_size`: round up to the device's allocation granularity. -/
def alignedSize (granularity size : UInt64) : UInt64 :=
  if granularity = 0 then 0 else (size + granularity - 1) / granularity * granularity

/-- A device mapping covers what was asked for. -/
theorem le_alignedSize {granularity size : UInt64} (h : alignedSize granularity size ≠ 0) :
    size ≤ alignedSize granularity size := by
  unfold alignedSize at h ⊢
  split_ifs at h ⊢ with hg
  · exact absurd rfl h
  have hg0 : 0 < granularity.toNat := Nat.pos_of_ne_zero fun h0 => hg (UInt64.toNat_inj.mp h0)
  have hs := size.toNat_lt
  have hgl := granularity.toNat_lt
  have hsum : (size + granularity - 1).toNat = (size.toNat + granularity.toNat - 1) % 2 ^ 64 := by
    rw [UInt64.toNat_sub, UInt64.toNat_add]
    simp only [UInt64.toNat_one]
    omega
  have hdiv : (size + granularity - 1).toNat / granularity.toNat * granularity.toNat < 2 ^ 64 :=
    (Nat.div_mul_le_self _ _).trans_lt (UInt64.toNat_lt _)
  have hval : ((size + granularity - 1) / granularity * granularity).toNat =
      (size + granularity - 1).toNat / granularity.toNat * granularity.toNat := by
    rw [UInt64.toNat_mul, UInt64.toNat_div, Nat.mod_eq_of_lt hdiv]
  rw [UInt64.le_iff_toNat_le, hval]
  have hne : (size + granularity - 1).toNat / granularity.toNat ≠ 0 := by
    intro h0
    refine h (UInt64.toNat_inj.mp ?_)
    rw [hval, h0]
    simp
  rw [hsum] at hne ⊢
  rcases Nat.lt_or_ge (size.toNat + granularity.toNat - 1) (2 ^ 64) with hlt | hge
  · rw [Nat.mod_eq_of_lt hlt]
    have := Nat.lt_div_mul_add (a := size.toNat + granularity.toNat - 1) hg0
    omega
  · -- a sum that wraps is smaller than the granularity, and then the result is zero
    refine absurd (Nat.div_eq_of_lt ?_) hne
    rw [Nat.mod_eq_sub_mod hge, Nat.mod_eq_of_lt (by omega)]
    omega

/-- Accelerator: one exported device buffer, of whole granules. -/
def allocAccelerator (size : UInt64) : BufferAlloc := fun sys =>
  if size = 0 then (none, sys)
  else
    match sys.ask with  -- accel_init and cuMemGetAllocationGranularity
    | (.error _, sys) => (none, sys)
    | (.ok gran, sys) =>
        let sz := alignedSize (.ofNat gran) size
        if sz = 0 then (none, sys)
        else
          match sys.ask with  -- cuMemCreate, map_rw and cuMemExportToShareableHandle
          | (.error _, sys) => (none, sys)
          | (.ok ptr, sys) =>
              let (fd, sys) := sys.openFd sz.toNat
              (some ({ PoolBuffer.ofFd fd none with devicePtr := some ptr }, size), sys)

/-- NvBufSurface: one surface, whose size and pitch the system decides. -/
def allocNvbufsurface : BufferAlloc := fun sys =>
  match sys.ask with  -- nvbuf_alloc
  | (.error _, sys) => (none, sys)
  | (.ok bytes, sys) =>
      let (pitch, sys) := sys.ask
      let (fd, sys) := sys.openFd bytes
      (some ({ PoolBuffer.ofFd fd none with
          nvbufSurf := some fd.num
          pitch := .ofNat (pitch.toOption.getD 0) }, .ofNat bytes), sys)

/-- `NvBufSurfaceGetMapParams` for all buffers: the blob, or nothing when one of the calls fails. -/
def nvbufImportBlob : List PoolBuffer → Sys → Option (List UInt8) × Sys
  | [], sys => (some [], sys)
  | b :: bs, sys =>
      match sys.ask with
      | (.error _, sys) => (none, sys)
      | (.ok _, sys) =>
          match nvbufImportBlob bs sys with
          | (none, sys) => (none, sys)
          | (some blob, sys) => (some (sys.mapParams (b.nvbufSurf.getD 0) ++ blob), sys)

namespace TensorPool

/-- Allocate with `alloc` and keep what was allocated. -/
def allocateWith (p : TensorPool) (sys : Sys) (alloc : BufferAlloc) : Bool × TensorPool × Sys :=
  let (ok, bs, _, sys) := allocLoop alloc p.cfg.nBuffers p.buffers 0 sys
  (ok, { p with buffers := bs }, sys)

/-- Custom: one memfd for each buffer. -/
def allocateCustom (p : TensorPool) (sys : Sys) : Bool × TensorPool × Sys :=
  p.allocateWith sys (allocCustom p.bufferSize)

/-- UDMABUF: its device is open while the buffers are made. -/
def allocateUdmabuf (p : TensorPool) (sys : Sys) : Bool × TensorPool × Sys :=
  match sys.ask with  -- open("/dev/udmabuf")
  | (.error _, sys) => (false, p, sys)
  | (.ok _, sys) =>
      let (udma, sys) := sys.openFd 0
      let (ok, p, sys) := p.allocateWith sys (allocUdmabuf p.bufferSize)
      (ok, p, sys.close udma)

/-- V4L2: the device stays open as long as the buffers. -/
def allocateV4l2 (p : TensorPool) (sys : Sys) : Bool × TensorPool × Sys :=
  if p.cfg.v4l2Device = none then (false, p, sys)
  else
    match sys.ask with  -- open
    | (.error _, sys) => (false, p, sys)
    | (.ok _, sys) =>
        let (fd, sys) := sys.openFd 0
        let p := { p with v4l2Fd := some fd }
        match sys.ask with  -- VIDIOC_REQBUFS answers with the count it grants
        | (.error _, sys) => (false, p, sys)
        | (.ok count, sys) =>
            if count < p.cfg.nBuffers then (false, p, sys)
            else p.allocateWith sys (allocV4l2 p.bufferSize)

/-- Accelerator: none without CUDA. -/
def allocateAccelerator (p : TensorPool) (sys : Sys) : Bool × TensorPool × Sys :=
  if p.build.cuda then p.allocateWith sys (allocAccelerator p.bufferSize) else (false, p, sys)

/-- NvBufSurface: the largest surface decides on the size, and the import parameters are read at the end. -/
def allocateNvbufsurface (p : TensorPool) (sys : Sys) : Bool × TensorPool × Sys :=
  if p.build.jetson then
    match allocLoop allocNvbufsurface p.cfg.nBuffers p.buffers 0 sys with
    | (false, bs, _, sys) => (false, { p with buffers := bs }, sys)
    | (true, bs, maxSize, sys) =>
        let p := { p with buffers := bs, bufferSize := pageRoundUp sys maxSize }
        match nvbufImportBlob bs sys with
        | (none, sys) => (false, { p with importBlob := [] }, sys)
        | (some blob, sys) => (true, { p with importBlob := blob }, sys)
  else (false, p, sys)

/-- Close a buffer's FDs. -/
def freeBuffer (sys : Sys) (b : PoolBuffer) : Sys :=
  let sys := sys.close b.shareFd
  match b.backingFd with
  | some fd => sys.close fd
  | none => sys

/-- **`free_all`**: release every buffer and the capture device. -/
def freeAll (p : TensorPool) (sys : Sys) : TensorPool × Sys :=
  let sys := p.buffers.foldl freeBuffer sys
  let sys := match p.v4l2Fd with
    | some fd => sys.close fd
    | none => sys
  ({ p with buffers := [], shareFds := [], inUse := [], importBlob := [], v4l2Fd := none }, sys)

/-- The backend's part of `allocate`. -/
def allocateBackend (p : TensorPool) (sys : Sys) : Bool × TensorPool × Sys :=
  match p.cfg.backend with
  | .Custom => p.allocateCustom sys
  | .UDMABUF => p.allocateUdmabuf sys
  | .V4L2 => p.allocateV4l2 sys
  | .Accelerator => p.allocateAccelerator sys
  | .NvBufSurface => p.allocateNvbufsurface sys

/-- **`allocate`**: fill the pool, or leave it empty. -/
def allocate (p : TensorPool) (sys : Sys) : Bool × TensorPool × Sys :=
  match p.allocateBackend sys with
  | (false, p, sys) =>
      let (p, sys) := p.freeAll sys
      (false, p, sys)
  | (true, p, sys) =>
      (true, { p with
        inUse := p.buffers.map fun _ => false
        ringHead := 0
        shareFds := p.buffers.map (·.shareFd) }, sys)

/-- **`create`**. -/
def create (build : BuildConfig) (cfg : TensorPoolConfig) (sys : Sys) : Option TensorPool × Sys :=
  if cfg.nBuffers = 0 then (none, sys)
  else if cfg.bufferSize = 0 ∧ cfg.backend ≠ .NvBufSurface then (none, sys)
  else
    let p : TensorPool :=
      { build := build
        cfg := cfg
        bufferSize := pageRoundUp sys cfg.bufferSize
        gen := 1
        buffers := []
        shareFds := []
        inUse := []
        ringHead := 0
        importBlob := []
        v4l2Fd := none }
    match p.allocate sys with
    | (false, _, sys) => (none, sys)
    | (true, p, sys) => (some p, sys)

/-- `dma_buf_fds`. -/
def dmaBufFds (p : TensorPool) : List Fd := p.shareFds

/-- `generation`. -/
def generation (p : TensorPool) : PoolGeneration := p.gen

/-- `backend`. -/
def backend (p : TensorPool) : PoolBackend := p.cfg.backend

/-- `import_params`. -/
def importParams (p : TensorPool) : List UInt8 := p.importBlob

/-- **`retire_and_reallocate`**: free the pool and allocate it anew, as the next generation. -/
def retireAndReallocate (p : TensorPool) (newBufferSize : UInt64) (sys : Sys) : TensorPool × Sys :=
  let (p, sys) := p.freeAll sys
  let p := { p with bufferSize := pageRoundUp sys newBufferSize, gen := p.gen + 1 }
  let (_, p, sys) := p.allocate sys
  (p, sys)

/-- The size a reallocation to `new_buffer_size` is going to work with, from the request and from what
the system will answer: the rounded request, or for surfaces the rounded size of the largest one. -/
def requestedSize (p : TensorPool) (newBufferSize : UInt64) (sys : Sys) : UInt64 :=
  if p.cfg.backend = .NvBufSurface ∧ p.build.jetson = true then
    match allocLoop allocNvbufsurface p.cfg.nBuffers [] 0 (p.freeAll sys).2 with
    | (true, _, maxSize, sys) => pageRoundUp sys maxSize
    | (false, _, _, _) => pageRoundUp sys newBufferSize
  else pageRoundUp sys newBufferSize

/-! ## What a reallocation leaves -/

/-- The parts of a pool that no allocation touches. -/
structure SameConfig (p q : TensorPool) : Prop where
  gen : q.gen = p.gen
  cfg : q.cfg = p.cfg
  build : q.build = p.build

/-- Allocating leaves the configuration. -/
theorem sameConfig_allocateBackend (p : TensorPool) (sys : Sys) :
    p.SameConfig (p.allocateBackend sys).2.1 := by
  -- by backend; none of them touches what is configured
  unfold allocateBackend
  split
  · exact ⟨rfl, rfl, rfl⟩
  · unfold allocateUdmabuf
    split <;> exact ⟨rfl, rfl, rfl⟩
  · unfold allocateV4l2
    split_ifs
    · exact ⟨rfl, rfl, rfl⟩
    · split
      · exact ⟨rfl, rfl, rfl⟩
      · dsimp only
        split
        · exact ⟨rfl, rfl, rfl⟩
        · split_ifs <;> exact ⟨rfl, rfl, rfl⟩
  · unfold allocateAccelerator
    split_ifs <;> exact ⟨rfl, rfl, rfl⟩
  · unfold allocateNvbufsurface
    split_ifs
    · split
      · exact ⟨rfl, rfl, rfl⟩
      · dsimp only
        split <;> exact ⟨rfl, rfl, rfl⟩
    · exact ⟨rfl, rfl, rfl⟩

/-- So does `allocate`, also when it fails. -/
theorem sameConfig_allocate (p : TensorPool) (sys : Sys) : p.SameConfig (p.allocate sys).2.1 := by
  have h := p.sameConfig_allocateBackend sys
  unfold allocate
  split
  · case h_1 q sys' heq =>
      rw [heq] at h
      exact ⟨h.gen, h.cfg, h.build⟩
  · case h_2 q sys' heq =>
      rw [heq] at h
      exact ⟨h.gen, h.cfg, h.build⟩

/-- The pool that `create` is going to fill. -/
def unallocated (build : BuildConfig) (cfg : TensorPoolConfig) (sys : Sys) : TensorPool where
  build := build
  cfg := cfg
  bufferSize := pageRoundUp sys cfg.bufferSize
  gen := 1
  buffers := []
  shareFds := []
  inUse := []
  ringHead := 0
  importBlob := []
  v4l2Fd := none

/-- **A pool that was created** has been allocated, for a configuration that asks for buffers. -/
theorem allocate_of_create {build : BuildConfig} {cfg : TensorPoolConfig} {sys sys' : Sys} {p : TensorPool}
    (h : create build cfg sys = (some p, sys')) :
    0 < cfg.nBuffers ∧ (unallocated build cfg sys).allocate sys = (true, p, sys') := by
  unfold create at h
  split_ifs at h with hbuffers
  · cases h
  · cases h
  · refine ⟨Nat.pos_of_ne_zero hbuffers, ?_⟩
    dsimp only at h
    split at h
    · cases h
    · rename_i heq
      cases h
      exact heq

/-- The pool that a reallocation is going to fill. -/
def retired (p : TensorPool) (newBufferSize : UInt64) (sys : Sys) : TensorPool :=
  { (p.freeAll sys).1 with
    bufferSize := pageRoundUp (p.freeAll sys).2 newBufferSize
    gen := p.gen + 1 }

/-- A new pool is in its first generation. -/
theorem gen_of_create {build : BuildConfig} {cfg : TensorPoolConfig} {sys sys' : Sys} {p : TensorPool}
    (h : create build cfg sys = (some p, sys')) : p.gen = 1 := by
  have hsame := sameConfig_allocate (unallocated build cfg sys) sys
  rw [(allocate_of_create h).2] at hsame
  exact hsame.gen

/-- A new pool has the configuration asked for. -/
theorem cfg_of_create {build : BuildConfig} {cfg : TensorPoolConfig} {sys sys' : Sys} {p : TensorPool}
    (h : create build cfg sys = (some p, sys')) : p.cfg = cfg := by
  have hsame := sameConfig_allocate (unallocated build cfg sys) sys
  rw [(allocate_of_create h).2] at hsame
  exact hsame.cfg

/-- A reallocation begins the next generation of the same configuration. -/
theorem sameConfig_retireAndReallocate (p : TensorPool) (n : UInt64) (sys : Sys) :
    (p.retired n sys).SameConfig (p.retireAndReallocate n sys).1 :=
  sameConfig_allocate (p.retired n sys) _

/-- **A reallocation begins the next generation**, also when it fails. -/
theorem retireAndReallocate_gen (p : TensorPool) (n : UInt64) (sys : Sys) :
    (p.retireAndReallocate n sys).1.gen = p.gen + 1 :=
  (p.sameConfig_retireAndReallocate n sys).gen

/-- The backend stays. -/
theorem retireAndReallocate_backend (p : TensorPool) (n : UInt64) (sys : Sys) :
    (p.retireAndReallocate n sys).1.backend = p.backend :=
  congrArg TensorPoolConfig.backend (p.sameConfig_retireAndReallocate n sys).cfg

/-- Only the surfaces of an NvBufSurface pool decide on their size themselves. -/
theorem allocateBackend_bufferSize (p : TensorPool) (sys : Sys) :
    (p.allocateBackend sys).2.1.bufferSize =
      if p.cfg.backend = .NvBufSurface ∧ p.build.jetson = true then
        match allocLoop allocNvbufsurface p.cfg.nBuffers p.buffers 0 sys with
        | (true, _, maxSize, sys) => pageRoundUp sys maxSize
        | (false, _, _, _) => p.bufferSize
      else p.bufferSize := by
  unfold allocateBackend
  split
  · case h_1 hb => simp [hb, allocateCustom, allocateWith]
  · case h_2 hb =>
      simp only [hb, reduceCtorEq, false_and, if_false, allocateUdmabuf]
      split <;> rfl
  · case h_3 hb =>
      simp only [hb, reduceCtorEq, false_and, if_false, allocateV4l2]
      split_ifs
      · rfl
      · split
        · rfl
        · split
          · rfl
          · split_ifs <;> rfl
  · case h_4 hb =>
      simp only [hb, reduceCtorEq, false_and, if_false, allocateAccelerator]
      split_ifs <;> rfl
  · case h_5 hb =>
      simp only [hb, true_and, allocateNvbufsurface]
      split_ifs
      · -- the size is that of the largest surface, even when the import parameters fail
        split
        · case h_1 heq => simp [heq]
        · case h_2 heq =>
            simp only [heq]
            split <;> rfl
      · rfl

/-- The size that `allocate` leaves is the backend's. -/
theorem allocate_bufferSize (p : TensorPool) (sys : Sys) :
    (p.allocate sys).2.1.bufferSize = (p.allocateBackend sys).2.1.bufferSize := by
  unfold allocate
  split
  · case h_1 heq => rw [heq]; rfl
  · case h_2 heq => rw [heq]

/-- Freeing does not change the page size. -/
theorem page_freeAll (p : TensorPool) (sys : Sys) : (p.freeAll sys).2.page = sys.page := by
  have hfold : ∀ (bs : List PoolBuffer) (sys : Sys), (bs.foldl freeBuffer sys).page = sys.page := by
    intro bs
    induction bs with
    | nil => exact fun _ => rfl
    | cons b bs ih =>
        intro sys
        rw [List.foldl_cons, ih]
        unfold freeBuffer
        split <;> rfl
  unfold freeAll
  dsimp only
  split
  · exact hfold _ _
  · exact hfold _ _

/-- **The buffer size after a reallocation** is the requested one. -/
theorem retireAndReallocate_bufferSize (p : TensorPool) (n : UInt64) (sys : Sys) :
    (p.retireAndReallocate n sys).1.bufferSize = p.requestedSize n sys := by
  have hpage : pageRoundUp (p.freeAll sys).2 n = pageRoundUp sys n := by
    unfold pageRoundUp
    rw [page_freeAll]
  unfold retireAndReallocate requestedSize
  dsimp only
  rw [allocate_bufferSize, allocateBackend_bufferSize, ← hpage]
  rfl

end TensorPool

end Axon
