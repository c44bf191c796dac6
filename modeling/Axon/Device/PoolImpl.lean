import Axon.Device.NvBuf

/-! # The resources of a pool

`TensorPool::Impl` with everything it holds, for all five backends: FDs, memfds behind udmabufs, the capture device,
device buffers of the CUDA driver, and surfaces with the CUDA views that `device_ptr` maps on demand. -/

namespace Axon.Device

open Foundation Prog

/-- One buffer of a pool. -/
structure Buffer where
  /-- The FD handed to consumers. -/
  shareFd : Option Fd
  /-- The memfd kept alive behind a udmabuf. -/
  backingFd : Option Fd
  /-- Accelerator only. -/
  devicePtr : Option ℕ
  accelH : ℕ
  accelSize : UInt64
  /-- NvBufSurface only. -/
  nvbufSurf : Option ℕ
  /-- NvBufSurface only: row pitch of plane 0. -/
  pitch : UInt32
  deriving DecidableEq

/-- A buffer that is its FDs. -/
def Buffer.ofFds (shareFd backingFd : Option Fd) : Buffer := ⟨shareFd, backingFd, none, 0, 0, none, 0⟩

/-- `TensorPoolConfig`. -/
structure PoolConfig where
  nBuffers : ℕ
  bufferSize : UInt64
  backend : PoolBackend
  /-- `v4l2_device` is given. -/
  v4l2Device : Bool
  width : UInt32
  height : UInt32
  fourcc : UInt32

/-- **`TensorPool::Impl`**. -/
structure PoolImpl where
  cfg : PoolConfig
  /-- Page-aligned actual size. -/
  bufferSize : UInt64
  gen : ℕ
  buffers : List Buffer
  /-- Cached view for `dma_buf_fds`. -/
  shareFds : List (Option Fd)
  inUse : List Bool
  ringHead : ℕ
  /-- Import params of the surfaces; what they say is left open. -/
  importBlob : List ℕ
  /-- The CUDA view of each surface. -/
  nvcudas : List NvBufCuda
  v4l2Fd : Option Fd

/-- The page size that `sysconf` tells, or 4096. -/
def pageSize (answer : Option ℕ) : UInt64 :=
  let page : UInt64 := .ofNat (answer.getD 0)
  if page ≠ 0 then page else 4096

/-- `page_round_up`. -/
def pageRoundUp (n : UInt64) : Call UInt64 := do
  let page := pageSize (← ask)
  return (n + page - 1) &&& ~~~(page - 1)

/-! ## Allocating one buffer -/

/-- **`make_sealed_memfd`**. -/
def makeSealedMemfd (size : UInt64) : Call (Option Fd) := do
  match ← opening fun n => .fd (newFd n size.toNat) with
  | none => return none
  | some n =>
      -- ftruncate and F_SEAL_SHRINK
      if ← allSucceed 2 then return some (newFd n size.toNat)
      else
        close (newFd n size.toNat)
        return none

/-- Custom: a memfd. -/
def allocCustom (size : UInt64) : Call (Option Buffer) := do
  match ← makeSealedMemfd size with
  | none => return none
  | some fd => return some (.ofFds (some fd) none)

/-- UDMABUF: a dma-buf on a memfd. -/
def allocUdmabuf (size : UInt64) : Call (Option Buffer) := do
  match ← makeSealedMemfd size with
  | none => return none
  | some memfd =>
      -- UDMABUF_CREATE
      match ← opening fun n => .fd (newFd n size.toNat) with
      | none =>
          close memfd
          return none
      | some n => return some (.ofFds (some (newFd n size.toNat)) (some memfd))

/-- V4L2: a capture buffer exported by the device. -/
def allocV4l2 (device : Fd) (size : UInt64) : Call (Option Buffer) := do
  access (.fd device)
  -- VIDIOC_EXPBUF
  match ← opening fun n => .fd (newFd n size.toNat) with
  | none => return none
  | some n => return some (.ofFds (some (newFd n size.toNat)) none)

/-- Accelerator: an exported device buffer. -/
def allocAccelerator (size : UInt64) : Call (Option Buffer) := do
  match ← accelAlloc size with
  | none => return none
  | some ab => return some ⟨ab.exportFd, none, ab.devicePtr, ab.handle, ab.aligned, none, 0⟩

/-- NvBufSurface: a surface. -/
def allocNvbufsurface (width height fourcc : UInt32) : Call (Option (Buffer × UInt64)) := do
  match ← nvbufAlloc width height fourcc with
  | none => return none
  | some nb => return some (⟨nb.fd, none, none, 0, 0, nb.surf, nb.pitch⟩, nb.size)

/-- Allocate buffers one after the other, up to the first that fails. -/
def allocLoop {β : Type} (alloc : Call (Option β)) : ℕ → List β → Call (Bool × List β)
  | 0, bs => return (true, bs)
  | n + 1, bs => do
      match ← alloc with
      | none => return (false, bs)
      | some b => allocLoop alloc n (bs ++ [b])

/-- A surface of the pool, as the nvbuf functions take it. -/
def Buffer.nvbuf (b : Buffer) : NvBuf := ⟨b.nvbufSurf, b.shareFd, 0, b.pitch⟩

/-- `nvbuf_get_import_params`. -/
def nvbufGetImportParams (b : NvBuf) : Call (Option ℕ) :=
  match b.surf with
  | none => return none
  | some surf => do
      access (.surface surf b.fd)
      ask

/-- The import params of all surfaces, or none when one of them gives none. -/
def importParams : List Buffer → Call (Option (List ℕ))
  | [] => return some []
  | b :: bs => do
      match ← nvbufGetImportParams b.nvbuf with
      | none => return none
      | some params =>
          match ← importParams bs with
          | none => return none
          | some blob => return some (params :: blob)

namespace PoolImpl

/-! ## `allocate` -/

/-- Keep the buffers allocated. -/
def allocateWith (p : PoolImpl) (alloc : Call (Option Buffer)) : Call (Bool × PoolImpl) := do
  let r ← allocLoop alloc p.cfg.nBuffers p.buffers
  return (r.1, { p with buffers := r.2 })

/-- UDMABUF: its device is open while the buffers are made. -/
def allocateUdmabuf (p : PoolImpl) : Call (Bool × PoolImpl) := do
  -- /dev/udmabuf
  match ← opening fun n => .fd (newFd n 0) with
  | none => return (false, p)
  | some udma =>
      let r ← p.allocateWith (allocUdmabuf p.bufferSize)
      close (newFd udma 0)
      return r

/-- V4L2: the device stays open as long as the buffers. -/
def allocateV4l2 (p : PoolImpl) : Call (Bool × PoolImpl) := do
  if p.cfg.v4l2Device = false then return (false, p)
  else
    match ← opening fun n => .fd (newFd n 0) with
    | none => return (false, p)
    | some n =>
        -- VIDIOC_REQBUFS, and how many buffers it grants
        match ← ask with
        | none => return (false, { p with v4l2Fd := some (newFd n 0) })
        | some count =>
            if count < p.cfg.nBuffers then return (false, { p with v4l2Fd := some (newFd n 0) })
            else allocateWith { p with v4l2Fd := some (newFd n 0) } (allocV4l2 (newFd n 0) p.bufferSize)

/-- NvBufSurface: the largest surface decides on the size, and each gets a place for its view. -/
def allocateNvbufsurface (p : PoolImpl) : Call (Bool × PoolImpl) := do
  let r ← allocLoop (allocNvbufsurface p.cfg.width p.cfg.height p.cfg.fourcc) p.cfg.nBuffers []
  let buffers := p.buffers ++ r.2.map Prod.fst
  if r.1 then
    let size ← pageRoundUp (r.2.foldl (fun maxSize x => if maxSize < x.2 then x.2 else maxSize) 0)
    let blob ← importParams buffers
    let p := { p with
      buffers := buffers, bufferSize := size, nvcudas := .replicate buffers.length .zeroed
      importBlob := blob.getD [] }
    return (blob.isSome, p)
  else return (false, { p with buffers := buffers })

/-- The backend's part of `allocate`. -/
def allocateBackend (build : BuildConfig) (p : PoolImpl) : Call (Bool × PoolImpl) :=
  match p.cfg.backend with
  | .Custom => p.allocateWith (allocCustom p.bufferSize)
  | .UDMABUF => p.allocateUdmabuf
  | .V4L2 => p.allocateV4l2
  | .Accelerator =>
      if build.cuda then p.allocateWith (allocAccelerator p.bufferSize) else return (false, p)
  | .NvBufSurface => if build.jetson then p.allocateNvbufsurface else return (false, p)

/-! ## Freeing -/

/-- Free one buffer, with the CUDA view recorded for it. -/
def freeBuffer (build : BuildConfig) (b : Buffer) (c : Option NvBufCuda) : Call Unit := do
  if build.jetson = true ∧ b.nvbufSurf.isSome = true then
    let nb : NvBuf := ⟨b.nvbufSurf, b.shareFd, 0, 0⟩
    match c with
    | none =>
        let _ ← nvbufFree nb
    | some c =>
        let _ ← nvbufCudaUnmap build nb c
        let _ ← nvbufFree nb
  else if build.cuda = true ∧ b.devicePtr.isSome = true then
    let _ ← accelFree ⟨b.devicePtr, b.shareFd, b.accelSize, b.accelH⟩
  else
    closeOpt b.shareFd
    closeOpt b.backingFd

/-- Free the buffers in order; the views are indexed in step with them. -/
def freeBuffers (build : BuildConfig) : List Buffer → List NvBufCuda → Call Unit
  | [], _ => return ()
  | b :: bs, cs => do
      freeBuffer build b cs.head?
      freeBuffers build bs cs.tail

/-- The records of a pool without buffers. -/
def freed (p : PoolImpl) : PoolImpl :=
  { p with buffers := [], shareFds := [], inUse := [], importBlob := [], nvcudas := [], v4l2Fd := none }

/-- **`free_all`**. -/
def freeAll (build : BuildConfig) (p : PoolImpl) : Call PoolImpl := do
  freeBuffers build p.buffers p.nvcudas
  closeOpt p.v4l2Fd
  return p.freed

/-- **`allocate`**: fill the pool, or leave it empty. -/
def allocate (build : BuildConfig) (p : PoolImpl) : Call (Bool × PoolImpl) := do
  let r ← p.allocateBackend build
  if r.1 then
    return (true, { r.2 with
      inUse := .replicate r.2.buffers.length false
      ringHead := 0
      shareFds := r.2.buffers.map (·.shareFd) })
  else
    let p ← r.2.freeAll build
    return (false, p)

/-- A pool before its buffers are allocated. -/
def unallocated (cfg : PoolConfig) (bufferSize : UInt64) : PoolImpl :=
  ⟨cfg, bufferSize, 1, [], [], [], 0, [], [], none⟩

/-- **`TensorPool::create`**. -/
def create (build : BuildConfig) (cfg : PoolConfig) : Call (Option PoolImpl) := do
  if cfg.nBuffers = 0 then return none
  else if cfg.bufferSize = 0 ∧ cfg.backend ≠ .NvBufSurface then return none
  else
    let size ← pageRoundUp cfg.bufferSize
    let r ← (unallocated cfg size).allocate build
    -- a pool that could not be filled is destroyed, with nothing in it
    if r.1 then return some r.2
    else
      let _ ← r.2.freeAll build
      return none

/-- **`retire_and_reallocate`**: the result of the allocation is not looked at. -/
def retireAndReallocate (build : BuildConfig) (p : PoolImpl) (newBufferSize : UInt64) : Call PoolImpl := do
  let p ← p.freeAll build
  let size ← pageRoundUp newBufferSize
  let r ← allocate build { p with bufferSize := size, gen := p.gen + 1 }
  return r.2

/-- **`device_ptr`**: a surface's view is mapped on demand, once. -/
def devicePtr (build : BuildConfig) (p : PoolImpl) (index : ℕ) : Call (Option ℕ × PoolImpl) := do
  match p.buffers[index]? with
  | none => return (none, p)
  | some b =>
      if build.jetson = true ∧ b.nvbufSurf.isSome = true then
        let c := p.nvcudas.getD index .zeroed
        if c.devicePtr = none ∧ c.failed = false then
          match ← nvbufCudaMap build b.nvbuf with
          | none => return (none, { p with nvcudas := p.nvcudas.set index { c with failed := true } })
          | some c => return (c.devicePtr, { p with nvcudas := p.nvcudas.set index c })
        else return (c.devicePtr, p)
      else return (b.devicePtr, p)

/-- **The destructor**. -/
def destroy (build : BuildConfig) (p : PoolImpl) : Call PoolImpl := p.freeAll build

end PoolImpl

end Axon.Device
