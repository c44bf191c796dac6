import Axon.Device.PoolImpl
import Mathlib.Tactic.Abel

/-! # A pool releases everything it allocates

What a pool owns is exactly what it keeps a record of, for every backend and whichever of the calls of an allocation
fail, the CUDA views that are mapped on demand included.

* **`PoolImpl.resources`** is what a pool owns, **`PoolImpl.Valid`** what its records are like.
* **`create_spec`**, **`retireAndReallocate_spec`**, **`devicePtr_spec`** and **`freeAll_uses`**: each function of
  a pool turns what it owned into what it owns then.
* **`Valid.backed`**: the FDs and pointers of a pool are those of what it owns. -/

namespace Axon.Device

open Foundation Prog

/-! ## One buffer -/

namespace Buffer

/-- **The resources of a buffer**, with the CUDA view recorded for it. -/
def resources (b : Buffer) (c : Option NvBufCuda) : Multiset Resource :=
  if b.nvbufSurf.isSome = true then surfaceResources b.nvbuf (c.getD .zeroed)
  else if b.devicePtr.isSome = true then
    AccelBuffer.resources ⟨b.devicePtr, b.shareFd, b.accelSize, b.accelH⟩
  else fdRes b.shareFd + fdRes b.backingFd

/-- Surfaces and device buffers are there in the builds that can release them. -/
structure Valid (build : BuildConfig) (b : Buffer) : Prop where
  surface : build.jetson = false → b.nvbufSurf = none
  device : build.cuda = false → b.devicePtr = none

/-- Device memory of at least this size. -/
def Covers (b : Buffer) (size : UInt64) : Prop := b.devicePtr.isSome = true → size ≤ b.accelSize

/-- A buffer that is its FDs is a proper one, whatever the size. -/
theorem ofFds_ok (build : BuildConfig) (size : UInt64) (shareFd backingFd : Option Fd) :
    (ofFds shareFd backingFd).Valid build ∧ (ofFds shareFd backingFd).nvbufSurf = none ∧
      (ofFds shareFd backingFd).Covers size :=
  ⟨⟨fun _ => rfl, fun _ => rfl⟩, rfl, fun h => by cases h⟩

end Buffer

/-- The records of the CUDA views: a pointer and a registered resource, or neither. -/
structure NvBufCuda.Ok (build : BuildConfig) (c : NvBufCuda) : Prop where
  possible : c.Possible build
  devicePtr : c.devicePtr.isSome = c.resource.isSome

/-- A view that was never mapped is in order. -/
theorem NvBufCuda.ok_zeroed (build : BuildConfig) : NvBufCuda.zeroed.Ok build := ⟨fun _ => rfl, rfl⟩

/-- **Freeing a buffer** releases its resources. -/
theorem freeBuffer_uses {build : BuildConfig} {b : Buffer} (hb : b.Valid build) {c : Option NvBufCuda}
    (hc : ∀ c', c = some c' → c'.Possible build) :
    Uses (b.resources c) (PoolImpl.freeBuffer build b c) fun _ => 0 := by
  unfold PoolImpl.freeBuffer Buffer.resources
  -- a surface, then device memory, and at last the FDs of a host buffer
  by_cases hsurf : b.nvbufSurf.isSome = true
  -- only a Jetson build has surfaces, and only a CUDA build device memory
  · have hjetson : build.jetson = true := by
      by_contra hoff
      rw [hb.surface (by simpa using hoff)] at hsurf
      cases hsurf
    rw [if_pos hsurf, if_pos ⟨hjetson, hsurf⟩]
    cases c with
    | none => exact (nvbufFree_uses ⟨b.nvbufSurf, b.shareFd, 0, 0⟩).bind fun _ => .pure rfl
    | some c => exact nvbufRelease_uses ⟨b.nvbufSurf, b.shareFd, 0, 0⟩ (hc c rfl)
  · have hnosurf : ¬(build.jetson = true ∧ b.nvbufSurf.isSome = true) := fun h => hsurf h.2
    rw [if_neg hsurf, if_neg hnosurf]
    by_cases hdev : b.devicePtr.isSome = true
    · have hcuda : build.cuda = true := by
        by_contra hoff
        rw [hb.device (by simpa using hoff)] at hdev
        cases hdev
      rw [if_pos hdev, if_pos ⟨hcuda, hdev⟩]
      exact (accelFree_uses _).bind fun _ => .pure rfl
    · have hnodev : ¬(build.cuda = true ∧ b.devicePtr.isSome = true) := fun h => hdev h.2
      rw [if_neg hdev, if_neg hnodev]
      refine ((closeOpt_uses b.shareFd).frame _).bind fun _ => ?_
      exact (closeOpt_uses b.backingFd).of_pre_eq (zero_add _)

/-! ## The buffers of a pool -/

/-- The resources of buffers, with the views recorded in step with them. -/
def buffersRes : List Buffer → List NvBufCuda → Multiset Resource
  | [], _ => 0
  | b :: bs, cs => b.resources cs.head? + buffersRes bs cs.tail

/-- Buffers without views own what they were allocated with. -/
theorem buffersRes_nil (bs : List Buffer) : buffersRes bs [] = (bs.map fun b => b.resources none).sum := by
  induction bs with
  | nil => rfl
  | cons b bs ih =>
      rw [List.map_cons, List.sum_cons, ← ih]
      rfl

/-- Views that are not mapped yet. -/
theorem buffersRes_replicate (bs : List Buffer) :
    buffersRes bs (.replicate bs.length .zeroed) = (bs.map fun b => b.resources none).sum := by
  induction bs with
  | nil => rfl
  | cons b bs ih =>
      rw [List.map_cons, List.sum_cons, ← ih]
      rfl

/-- **One buffer among the others**, which another view of it does not concern. -/
theorem buffersRes_split {bs : List Buffer} {cs : List NvBufCuda} {i : ℕ} {b : Buffer} (hb : bs[i]? = some b)
    (hi : i < cs.length) : ∃ rest, buffersRes bs cs = b.resources cs[i]? + rest ∧
      ∀ c, buffersRes bs (cs.set i c) = b.resources (some c) + rest := by
  induction bs generalizing cs i with
  | nil => cases hb
  | cons b' bs ih =>
      obtain ⟨c', cs, rfl⟩ := List.exists_cons_of_length_pos (Nat.zero_lt_of_lt hi)
      -- the buffer asked about is this one, or among the rest
      cases i with
      | zero =>
          obtain rfl := Option.some.inj hb
          exact ⟨buffersRes bs cs, rfl, fun _ => rfl⟩
      | succ i =>
          obtain ⟨rest, hcs, hset⟩ := ih hb (Nat.lt_of_succ_lt_succ hi : i < cs.length)
          refine ⟨b'.resources (some c') + rest, ?_, fun c => ?_⟩
          · rw [add_left_comm, List.getElem?_cons_succ, ← hcs]
            rfl
          · rw [add_left_comm, ← hset]
            rfl

/-- **Freeing the buffers** in order, each with its view, releases all of them. -/
theorem freeBuffers_uses {build : BuildConfig} {bs : List Buffer} (hbs : ∀ b ∈ bs, b.Valid build)
    {cs : List NvBufCuda} (hcs : ∀ c ∈ cs, c.Possible build) :
    Uses (buffersRes bs cs) (PoolImpl.freeBuffers build bs cs) fun _ => 0 := by
  induction bs generalizing cs with
  | nil => exact .pure rfl
  | cons b bs ih =>
      have hone := freeBuffer_uses (hbs b List.mem_cons_self) fun c hc => hcs c (List.mem_of_mem_head? hc)
      refine (hone.frame _).bind fun _ => ?_
      rw [zero_add]
      exact ih (fun b' hb' => hbs b' (List.mem_cons_of_mem b hb')) fun c hc => hcs c (List.mem_of_mem_tail hc)

/-! ## Allocating -/

/-- A memfd is open exactly when it is returned. -/
theorem makeSealedMemfd_uses (size : UInt64) (rest : Multiset Resource) :
    Uses rest (makeSealedMemfd size) (adding .fd rest) := by
  refine (opening_uses _ rest).bind fun r => ?_
  cases r with
  | none => exact .pure rfl
  | some n =>
      refine (allSucceed_uses 2 _).bind fun ok => .ite (fun _ => .pure rfl) fun _ => ?_
      exact (close_uses (newFd n size.toNat) rest).bind fun _ => .pure rfl

/-- Rounding up concerns no resource. -/
theorem pageRoundUp_uses (n : UInt64) (rest : Multiset Resource) : Uses rest (pageRoundUp n) fun _ => rest :=
  (Uses.ask rest).bind fun _ => .pure rfl

/-- **An allocation is sound** when it opens the resources of the buffer it returns, and nothing when it fails. -/
structure AllocOk (build : BuildConfig) (size : UInt64) (alloc : Call (Option Buffer)) (rest : Multiset Resource) :
    Prop where
  uses : Uses rest alloc fun r => optRes (fun b => b.resources none) r + rest
  valid : Returns alloc fun r => ∀ b, r = some b → b.Valid build ∧ b.nvbufSurf = none ∧ b.Covers size

/-- **Custom** opens the buffer it returns. -/
theorem allocCustom_ok (build : BuildConfig) (size : UInt64) : AllocOk build size (allocCustom size) 0 := by
  refine ⟨(makeSealedMemfd_uses size 0).bind fun r => ?_, (Returns.trivial _).bind fun r _ => ?_⟩
  · cases r with
    | none => exact .pure rfl
    | some fd => exact .pure rfl
  · cases r with
    | none => exact .pure (by simp)
    | some fd => exact .pure fun b hb => Option.some.inj hb ▸ Buffer.ofFds_ok build size _ _

/-- **UDMABUF** closes its memfd again when the dma-buf fails. -/
theorem allocUdmabuf_ok (build : BuildConfig) (size : UInt64) : AllocOk build size (allocUdmabuf size) 0 := by
  refine ⟨(makeSealedMemfd_uses size 0).bind fun r => ?_, (Returns.trivial _).bind fun r _ => ?_⟩
  · cases r with
    | none => exact .pure rfl
    | some memfd =>
        refine (opening_uses _ _).bind fun r => ?_
        cases r with
        | none => exact (close_uses memfd 0).bind fun _ => .pure rfl
        | some n => exact .pure rfl
  · cases r with
    | none => exact .pure (by simp)
    | some memfd =>
        refine (Returns.trivial _).bind fun r _ => ?_
        cases r with
        | none => exact (Returns.trivial _).bind fun _ _ => .pure (by simp)
        | some n => exact .pure fun b hb => Option.some.inj hb ▸ Buffer.ofFds_ok build size _ _

/-- **V4L2** needs its device open. -/
theorem allocV4l2_ok (build : BuildConfig) (device : Fd) (size : UInt64) :
    AllocOk build size (allocV4l2 device size) {.fd device} := by
  refine ⟨(Uses.access (Multiset.mem_singleton_self _)).bind fun _ => (opening_uses _ _).bind fun r => ?_,
    (Returns.trivial _).bind fun _ _ => (Returns.trivial _).bind fun r _ => ?_⟩
  · cases r with
    | none => exact .pure rfl
    | some n => exact .pure rfl
  · cases r with
    | none => exact .pure (by simp)
    | some n => exact .pure fun b hb => Option.some.inj hb ▸ Buffer.ofFds_ok build size _ _

/-- **Accelerator** opens the device buffer it returns. -/
theorem allocAccelerator_ok {build : BuildConfig} (hcuda : build.cuda = true) (size : UInt64) :
    AllocOk build size (allocAccelerator size) 0 := by
  refine ⟨(accelAlloc_uses size).bind_returns (accelAlloc_returns size) fun r hr => ?_,
    (accelAlloc_returns size).bind fun r hr => ?_⟩
  · cases r with
    | none => exact .pure rfl
    | some ab =>
        refine .pure ?_
        rw [optRes_some, optRes_some, Buffer.resources, if_neg (by simp), if_pos (hr ab rfl).devicePtr]
        exact (add_zero _).symm
  · cases r with
    | none => exact .pure (by simp)
    | some ab =>
        refine .pure fun b hb => ?_
        obtain rfl := Option.some.inj hb
        exact ⟨⟨fun _ => rfl, fun hoff => absurd (hcuda.symm.trans hoff) (by simp)⟩, rfl, fun _ => (hr ab rfl).le⟩

/-- An allocated surface. -/
structure Buffer.IsSurface (b : Buffer) : Prop where
  surf : b.nvbufSurf.isSome = true
  devicePtr : b.devicePtr = none

/-- **NvBufSurface** opens the surface it returns. -/
theorem allocNvbufsurface_uses (width height fourcc : UInt32) :
    Uses 0 (allocNvbufsurface width height fourcc) (optRes fun x => x.1.resources none) := by
  refine (nvbufAlloc_uses width height fourcc).bind_returns (nvbufAlloc_returns width height fourcc) fun r hr => ?_
  cases r with
  | none => exact .pure rfl
  | some nb =>
      refine .pure ?_
      rw [optRes_some, optRes_some, Buffer.resources, if_pos (hr nb rfl)]
      rfl

/-- What it returns is a surface. -/
theorem allocNvbufsurface_returns (width height fourcc : UInt32) :
    Returns (allocNvbufsurface width height fourcc) fun r => ∀ x, r = some x → x.1.IsSurface := by
  refine (nvbufAlloc_returns width height fourcc).bind fun r hr => ?_
  cases r with
  | none => exact .pure (by simp)
  | some nb =>
      refine .pure fun x hx => ?_
      obtain rfl := Option.some.inj hx
      exact ⟨hr nb rfl, rfl⟩

/-- **The allocation loop**, wherever it stops. -/
theorem allocLoop_uses {β : Type} {alloc : Call (Option β)} {res : β → Multiset Resource} {rest : Multiset Resource}
    (h : Uses rest alloc fun r => optRes res r + rest) (n : ℕ) (bs : List β) :
    Uses ((bs.map res).sum + rest) (allocLoop alloc n bs) fun r => (r.2.map res).sum + rest := by
  induction n generalizing bs with
  | zero => exact .pure rfl
  | succ n ih =>
      refine ((h.frame (bs.map res).sum).of_pre_eq (add_comm _ _)).bind fun r => ?_
      cases r with
      | none => exact .pure (by rw [optRes, zero_add, add_comm])
      | some b =>
          refine (ih (bs ++ [b])).of_pre_eq ?_
          simp only [optRes_some, List.map_append, List.sum_append, List.map_cons, List.map_nil, List.sum_cons,
            List.sum_nil]
          abel

/-- What holds of every buffer allocated holds of all of them. -/
theorem allocLoop_returns {β : Type} {alloc : Call (Option β)} {φ : β → Prop}
    (h : Returns alloc fun r => ∀ b, r = some b → φ b) (n : ℕ) (bs : List β) (hbs : ∀ b ∈ bs, φ b) :
    Returns (allocLoop alloc n bs) fun r => ∀ b ∈ r.2, φ b := by
  induction n generalizing bs with
  | zero => exact .pure hbs
  | succ n ih =>
      refine h.bind fun r hr => ?_
      cases r with
      | none => exact .pure hbs
      | some b =>
          refine ih _ fun b' hb' => ?_
          rcases List.mem_append.mp hb' with hb' | hb'
          · exact hbs b' hb'
          · exact List.mem_singleton.mp hb' ▸ hr b rfl

/-- Reading the import params of a surface needs it open. -/
theorem nvbufGetImportParams_uses (nb : NvBuf) :
    Uses nb.resources (nvbufGetImportParams nb) fun _ => nb.resources := by
  unfold nvbufGetImportParams NvBuf.resources surfaceResources
  cases nb.surf with
  | none => exact .pure rfl
  | some surf => exact (Uses.access (Multiset.mem_singleton_self _)).bind fun _ => .ask _

/-- Reading the import parameters needs every surface there and leaves it. -/
theorem importParams_uses {bs : List Buffer} (hbs : ∀ b ∈ bs, b.IsSurface) :
    Uses (bs.map fun b => b.resources none).sum (importParams bs) fun _ => (bs.map fun b => b.resources none).sum := by
  induction bs with
  | nil => exact .pure rfl
  | cons b bs ih =>
      have hb : b.resources none = b.nvbuf.resources := if_pos (hbs b List.mem_cons_self).surf
      have hrest := ih fun b' hb' => hbs b' (List.mem_cons_of_mem b hb')
      rw [List.map_cons, List.sum_cons, hb]
      refine ((nvbufGetImportParams_uses b.nvbuf).frame _).bind fun params => ?_
      cases params with
      | none => exact .pure rfl
      | some params =>
          refine ((hrest.frame _).of_eq (add_comm _ _) fun _ => add_comm _ _).bind fun blob => ?_
          cases blob with
          | none => exact .pure rfl
          | some blob => exact .pure rfl

namespace PoolImpl

/-! ## The pool -/

/-- **What a pool owns**. -/
def resources (p : PoolImpl) : Multiset Resource := buffersRes p.buffers p.nvcudas + fdRes p.v4l2Fd

/-- The records that `free_all` relies on. -/
structure Freeable (build : BuildConfig) (p : PoolImpl) : Prop where
  buffers : ∀ b ∈ p.buffers, b.Valid build
  nvcudas : ∀ c ∈ p.nvcudas, c.Ok build

/-- A pool that is filled: there is a place for the view of every surface. -/
structure Filled (build : BuildConfig) (p : PoolImpl) : Prop extends p.Freeable build where
  views : ∀ i b, p.buffers[i]? = some b → b.nvbufSurf.isSome = true → i < p.nvcudas.length
  covers : ∀ b ∈ p.buffers, b.Covers p.bufferSize

/-- **The records of a pool**. -/
structure Valid (build : BuildConfig) (p : PoolImpl) : Prop extends p.Filled build where
  shareFds : p.shareFds = p.buffers.map (·.shareFd)

/-- A pool without buffers. -/
structure Empty (p : PoolImpl) : Prop where
  buffers : p.buffers = []
  shareFds : p.shareFds = []
  nvcudas : p.nvcudas = []
  v4l2Fd : p.v4l2Fd = none

/-- A pool without buffers owns nothing. -/
theorem Empty.resources {p : PoolImpl} (h : p.Empty) : p.resources = 0 := by
  rw [PoolImpl.resources, h.buffers, h.v4l2Fd]
  rfl

/-- Its records are proper. -/
theorem Empty.valid {p : PoolImpl} (h : p.Empty) (build : BuildConfig) : p.Valid build := by
  refine ⟨⟨⟨?_, ?_⟩, fun i b hb => ?_, ?_⟩, ?_⟩
  · simp [h.buffers]
  · simp [h.nvcudas]
  · rw [h.buffers] at hb
    cases hb
  · simp [h.buffers]
  · simp [h.buffers, h.shareFds]

/-- **`free_all`** releases what the pool owns. -/
theorem freeAll_uses {build : BuildConfig} {p : PoolImpl} (hp : p.Freeable build) :
    Uses p.resources (p.freeAll build) fun _ => 0 := by
  refine ((freeBuffers_uses hp.buffers fun c hc => (hp.nvcudas c hc).possible).frame _).bind fun _ => ?_
  rw [zero_add]
  exact (closeOpt_uses p.v4l2Fd).bind fun _ => .pure rfl

/-- **The destructor** releases what the pool owns. -/
theorem destroy_uses {build : BuildConfig} {p : PoolImpl} (hp : p.Valid build) :
    Uses p.resources (p.destroy build) fun _ => 0 := freeAll_uses hp.toFreeable

/-- A freed pool has no buffers. -/
theorem freeAll_returns (build : BuildConfig) (p : PoolImpl) :
    Returns (p.freeAll build) fun p' => p' = p.freed :=
  (Returns.trivial _).bind fun _ _ => (Returns.trivial _).bind fun _ _ => .pure rfl

/-! ### The backends -/

/-- **A backend's part of an allocation**: what it opens is what the pool records, and the records are proper; without
a failure there is a place for every view. -/
structure Allocates (build : BuildConfig) (prog : Call (Bool × PoolImpl)) (rest : Multiset Resource) : Prop where
  uses : Uses rest prog fun r => r.2.resources
  freeable : Returns prog fun r => r.2.Freeable build ∧ (r.1 = true → r.2.Filled build)

/-- A pool that fails before it allocates a buffer. -/
theorem Allocates.fail (build : BuildConfig) {p : PoolImpl} (hbuffers : p.buffers = []) (hviews : p.nvcudas = []) :
    Allocates build (return (false, p)) (fdRes p.v4l2Fd) := by
  refine ⟨.pure ?_, .pure ⟨⟨?_, ?_⟩, by simp⟩⟩
  · rw [PoolImpl.resources, hbuffers]
    exact (zero_add _).symm
  · simp [hbuffers]
  · simp [hviews]

/-- Buffers of one kind, each in order, make a proper pool. -/
theorem allocateWith_allocates {build : BuildConfig} {p : PoolImpl} (hbuffers : p.buffers = [])
    (hviews : p.nvcudas = []) {alloc : Call (Option Buffer)}
    (h : AllocOk build p.bufferSize alloc (fdRes p.v4l2Fd)) :
    Allocates build (p.allocateWith alloc) (fdRes p.v4l2Fd) := by
  unfold allocateWith
  rw [hbuffers]
  constructor
  · refine ((allocLoop_uses h.uses p.cfg.nBuffers []).of_pre_eq (zero_add _).symm).bind fun r => .pure ?_
    show _ = buffersRes r.2 p.nvcudas + fdRes p.v4l2Fd
    rw [hviews, buffersRes_nil]
  · refine (allocLoop_returns h.valid p.cfg.nBuffers [] (by simp)).bind fun r hr => .pure ?_
    have hfree : Freeable build { p with buffers := r.2 } := ⟨fun b hb => (hr b hb).1, by simp [hviews]⟩
    refine ⟨hfree, fun _ => ⟨hfree, fun i b hb hsurf => ?_, fun b hb => (hr b hb).2.2⟩⟩
    rw [(hr b (List.mem_of_getElem? hb)).2.1] at hsurf
    cases hsurf

/-- **UDMABUF**: the device is open during the loop alone. -/
theorem allocateUdmabuf_allocates {build : BuildConfig} {p : PoolImpl} (hp : p.Empty) :
    Allocates build p.allocateUdmabuf 0 := by
  have hnodev : fdRes p.v4l2Fd = 0 := by rw [hp.v4l2Fd]; rfl
  have hfail := hnodev ▸ Allocates.fail build hp.buffers hp.nvcudas
  have hmade : Allocates build (p.allocateWith (allocUdmabuf p.bufferSize)) 0 :=
    hnodev ▸ allocateWith_allocates hp.buffers hp.nvcudas (hnodev.symm ▸ allocUdmabuf_ok build p.bufferSize)
  constructor
  -- `/dev/udmabuf` is open during the loop only
  · refine (opening_uses _ 0).bind fun r => ?_
    cases r with
    | none => exact hfail.uses
    | some udma =>
        refine ((hmade.uses.frame {.fd (newFd udma 0)}).of_pre_eq (zero_add _).symm).bind fun r => ?_
        exact (((close_uses (newFd udma 0) 0).frame r.2.resources).of_pre_eq (add_comm _ _)).bind fun _ =>
          .pure (zero_add _)
  · refine (Returns.trivial _).bind fun r _ => ?_
    cases r with
    | none => exact hfail.freeable
    | some udma => exact hmade.freeable.bind fun r hr => (Returns.trivial _).bind fun _ _ => .pure hr

/-- **V4L2**: the device stays open, also when the loop fails. -/
theorem allocateV4l2_allocates {build : BuildConfig} {p : PoolImpl} (hp : p.Empty) :
    Allocates build p.allocateV4l2 0 := by
  have hnodev : fdRes p.v4l2Fd = 0 := by rw [hp.v4l2Fd]; rfl
  have hfail := hnodev ▸ Allocates.fail build hp.buffers hp.nvcudas
  have hopened := fun n => Allocates.fail build (p := { p with v4l2Fd := some (newFd n 0) }) hp.buffers hp.nvcudas
  have hmade := fun n => allocateWith_allocates (p := { p with v4l2Fd := some (newFd n 0) }) hp.buffers hp.nvcudas
    (allocV4l2_ok build (newFd n 0) p.bufferSize)
  refine ⟨.ite (fun _ => hfail.uses) fun _ => (opening_uses _ 0).bind fun r => ?_,
    .ite (fun _ => hfail.freeable) fun _ => (Returns.trivial _).bind fun r _ => ?_⟩
  -- the device stays open with the pool, also when the request for buffers fails
  · cases r with
    | none => exact hfail.uses
    | some n =>
        refine (Uses.ask _).bind fun count => ?_
        cases count with
        | none => exact (hopened n).uses
        | some count => exact .ite (fun _ => (hopened n).uses) fun _ => (hmade n).uses
  · cases r with
    | none => exact hfail.freeable
    | some n =>
        refine (Returns.trivial _).bind fun count _ => ?_
        cases count with
        | none => exact (hopened n).freeable
        | some count => exact .ite (fun _ => (hopened n).freeable) fun _ => (hmade n).freeable

/-- **NvBufSurface**: every surface gets a place for its view. -/
theorem allocateNvbufsurface_allocates {build : BuildConfig} (hjetson : build.jetson = true) {p : PoolImpl}
    (hp : p.Empty) : Allocates build p.allocateNvbufsurface 0 := by
  have hloop := allocLoop_returns (allocNvbufsurface_returns p.cfg.width p.cfg.height p.cfg.fourcc) p.cfg.nBuffers
    [] (by simp)
  -- a surface owns its FD and has no device memory
  have hvalid : ∀ b : Buffer, b.IsSurface → b.Valid build := fun b hb =>
    ⟨fun hoff => absurd (hjetson.symm.trans hoff) (by simp), fun _ => hb.devicePtr⟩
  have hsurf : ∀ r : Bool × List (Buffer × UInt64), (∀ x ∈ r.2, x.1.IsSurface) →
      ∀ b ∈ [] ++ r.2.map Prod.fst, b.IsSurface := by
    intro r hr b hb
    obtain ⟨x, hx, rfl⟩ := List.mem_map.mp hb
    exact hr x hx
  unfold allocateNvbufsurface
  rw [hp.buffers]
  constructor
  · refine ((allocLoop_uses ((allocNvbufsurface_uses _ _ _).opens 0) p.cfg.nBuffers []).bind_returns hloop
      fun r hr => ?_)
    -- no buffer is mapped for CUDA yet
    have hres : (r.2.map fun x => x.1.resources none).sum + 0 =
        (([] ++ r.2.map Prod.fst).map fun b => Buffer.resources b none).sum := by
      rw [add_zero, List.nil_append, List.map_map]
      rfl
    rw [hres]
    refine .ite (fun _ => ?_) fun _ => .pure ?_
    · refine (pageRoundUp_uses _ _).bind fun size => (importParams_uses (hsurf r hr)).bind fun blob => .pure ?_
      rw [PoolImpl.resources, buffersRes_replicate, hp.v4l2Fd]
      exact (add_zero _).symm
    · rw [PoolImpl.resources, hp.nvcudas, buffersRes_nil, hp.v4l2Fd]
      exact (add_zero _).symm
  · refine hloop.bind fun r hr => .ite (fun _ => ?_) fun _ => .pure ⟨⟨?_, ?_⟩, by simp⟩
    · refine (Returns.trivial _).bind fun size _ => (Returns.trivial _).bind fun blob _ => .pure ?_
      -- what may be freed does not depend on how many views there are, as all are empty
      have hfree : ∀ cs, (∀ c ∈ cs, c = NvBufCuda.zeroed) → Freeable build { p with
          buffers := [] ++ r.2.map Prod.fst, bufferSize := size, nvcudas := cs, importBlob := blob.getD [] } :=
        fun cs hcs => ⟨fun b hb => hvalid b (hsurf r hr b hb), fun c hc => hcs c hc ▸ NvBufCuda.ok_zeroed build⟩
      refine ⟨hfree _ fun c hc => List.eq_of_mem_replicate hc, fun _ => ⟨hfree _ fun c hc =>
        List.eq_of_mem_replicate hc, fun i b hb _ => ?_, fun b hb hptr => ?_⟩⟩
      · rw [List.length_replicate]
        exact (List.getElem?_eq_some_iff.mp hb).1
      · rw [(hsurf r hr b hb).devicePtr] at hptr
        cases hptr
    · exact fun b hb => hvalid b (hsurf r hr b hb)
    · simp [hp.nvcudas]

/-- **Every backend**. -/
theorem allocateBackend_allocates (build : BuildConfig) {p : PoolImpl} (hp : p.Empty) :
    Allocates build (p.allocateBackend build) 0 := by
  -- a backend that the build does not have opens nothing
  have hnodev : fdRes p.v4l2Fd = 0 := by rw [hp.v4l2Fd]; rfl
  have hfail := hnodev ▸ Allocates.fail build hp.buffers hp.nvcudas
  have hwith : ∀ alloc, AllocOk build p.bufferSize alloc 0 → Allocates build (p.allocateWith alloc) 0 := fun alloc h =>
    hnodev ▸ allocateWith_allocates hp.buffers hp.nvcudas (hnodev.symm ▸ h)
  unfold allocateBackend
  cases p.cfg.backend with
  | Custom => exact hwith _ (allocCustom_ok build p.bufferSize)
  | UDMABUF => exact allocateUdmabuf_allocates hp
  | V4L2 => exact allocateV4l2_allocates hp
  | Accelerator =>
      dsimp only
      split_ifs with hcuda
      · exact hwith _ (allocAccelerator_ok hcuda p.bufferSize)
      · exact hfail
  | NvBufSurface =>
      dsimp only
      split_ifs with hjetson
      · exact allocateNvbufsurface_allocates hjetson hp
      · exact hfail

/-- **An allocation** fills the pool, or leaves it empty with nothing open. -/
theorem allocate_spec (build : BuildConfig) {p : PoolImpl} (hp : p.Empty) :
    Uses 0 (p.allocate build) (fun r => r.2.resources) ∧
      Returns (p.allocate build) fun r => r.2.Valid build ∧ (r.1 = false → r.2.Empty) := by
  have hmade := allocateBackend_allocates build hp
  constructor
  · refine hmade.uses.bind_returns hmade.freeable fun r hr => .ite (fun _ => .pure rfl) fun _ => ?_
    refine (freeAll_uses hr.1).bind_returns (freeAll_returns build r.2) fun p' hp' => .pure ?_
    rw [hp']
    rfl
  · refine hmade.freeable.bind fun r hr => .ite (fun hok => .pure ⟨?_, by simp⟩) fun _ => ?_
    · obtain ⟨hfree, hviews, hcovers⟩ := hr.2 hok
      exact ⟨⟨⟨hfree.buffers, hfree.nvcudas⟩, hviews, hcovers⟩, rfl⟩
    · refine (freeAll_returns build r.2).bind fun p' hp' => .pure ?_
      subst hp'
      have hempty : r.2.freed.Empty := ⟨rfl, rfl, rfl, rfl⟩
      exact ⟨hempty.valid build, fun _ => hempty⟩

/-- **`create`**. -/
theorem create_spec (build : BuildConfig) (cfg : PoolConfig) :
    Uses 0 (create build cfg) (optRes PoolImpl.resources) ∧
      Returns (create build cfg) fun r => ∀ p, r = some p → p.Valid build := by
  have hspec := fun size => allocate_spec build (p := unallocated cfg size) ⟨rfl, rfl, rfl, rfl⟩
  constructor
  · refine .ite (fun _ => .pure rfl) fun _ => .ite (fun _ => .pure rfl) fun _ => ?_
    refine (pageRoundUp_uses _ 0).bind fun size => ?_
    refine (hspec size).1.bind_returns (hspec size).2 fun r hr => .ite (fun _ => .pure rfl) fun _ => ?_
    exact (freeAll_uses hr.1.toFreeable).bind fun _ => .pure rfl
  · refine .ite (fun _ => .pure (by simp)) fun _ => .ite (fun _ => .pure (by simp)) fun _ => ?_
    refine (Returns.trivial _).bind fun size _ => (hspec size).2.bind fun r hr => .ite (fun _ => .pure ?_) fun _ => ?_
    · intro p hp
      obtain rfl := Option.some.inj hp
      exact hr.1
    · exact (Returns.trivial _).bind fun _ _ => .pure (by simp)

/-- **`retire_and_reallocate`**: what the old buffers were is released, and what the pool owns then is open. -/
theorem retireAndReallocate_spec {build : BuildConfig} {p : PoolImpl} (hp : p.Valid build) (n : UInt64) :
    Uses p.resources (p.retireAndReallocate build n) PoolImpl.resources ∧
      Returns (p.retireAndReallocate build n) fun p' => p'.Valid build := by
  have hspec := fun size => allocate_spec build (p := { p.freed with bufferSize := size, gen := p.freed.gen + 1 })
    ⟨rfl, rfl, rfl, rfl⟩
  constructor
  · refine (freeAll_uses hp.toFreeable).bind_returns (freeAll_returns build p) fun p' hp' => ?_
    subst hp'
    exact (pageRoundUp_uses _ 0).bind fun size => (hspec size).1.bind fun r => .pure rfl
  · refine (freeAll_returns build p).bind fun p' hp' => ?_
    subst hp'
    exact (Returns.trivial _).bind fun size _ => (hspec size).2.bind fun r hr => .pure hr.1

/-- The view of a surface, looked up. -/
theorem Valid.getD_view {build : BuildConfig} {p : PoolImpl} (hp : p.Valid build) {i : ℕ} {b : Buffer}
    (hb : p.buffers[i]? = some b) (hsurf : b.nvbufSurf.isSome = true) :
    p.nvcudas[i]? = some (p.nvcudas.getD i .zeroed) := by
  have hi := hp.views i b hb hsurf
  rw [List.getD_eq_getElem?_getD, List.getElem?_eq_getElem hi]
  rfl

/-- Recording another view. -/
theorem Valid.set_view {build : BuildConfig} {p : PoolImpl} (hp : p.Valid build) (i : ℕ) {c : NvBufCuda}
    (hc : c.Ok build) : Valid build { p with nvcudas := p.nvcudas.set i c } := by
  refine ⟨⟨⟨hp.buffers, fun c' hc' => ?_⟩, fun j b hb hsurf => ?_, hp.covers⟩, hp.shareFds⟩
  · exact (List.mem_or_eq_of_mem_set hc').elim (hp.nvcudas c') fun h => h ▸ hc
  · exact (List.length_set ..).symm ▸ hp.views j b hb hsurf

/-- A surface with its view, among the resources of the pool. -/
theorem Valid.resources_split {build : BuildConfig} {p : PoolImpl} (hp : p.Valid build) {i : ℕ} {b : Buffer}
    (hb : p.buffers[i]? = some b) (hsurf : b.nvbufSurf.isSome = true) :
    ∃ rest, p.resources = surfaceResources b.nvbuf (p.nvcudas.getD i .zeroed) + rest ∧
      ∀ c, resources { p with nvcudas := p.nvcudas.set i c } = surfaceResources b.nvbuf c + rest := by
  obtain ⟨rest, hcs, hset⟩ := buffersRes_split hb (hp.views i b hb hsurf)
  have hview : ∀ c, b.resources c = surfaceResources b.nvbuf (c.getD .zeroed) := fun c => if_pos hsurf
  rw [hp.getD_view hb hsurf, hview] at hcs
  refine ⟨rest + fdRes p.v4l2Fd, ?_, fun c => ?_⟩
  · rw [resources, hcs, add_assoc]
    rfl
  · have hset := hset c
    rw [hview] at hset
    show buffersRes p.buffers (p.nvcudas.set i c) + fdRes p.v4l2Fd = _
    rw [hset, add_assoc]
    rfl

/-- **`device_ptr`** opens the view that it records. -/
theorem devicePtr_spec {build : BuildConfig} {p : PoolImpl} (hp : p.Valid build) (index : ℕ) :
    Uses p.resources (p.devicePtr build index) (fun r => r.2.resources) ∧
      Returns (p.devicePtr build index) fun r => r.2.Valid build := by
  unfold devicePtr
  cases hb : p.buffers[index]? with
  | none => exact ⟨.pure rfl, .pure hp⟩
  | some b =>
      dsimp only
      split_ifs with hsurf hmap
      · have hok := hp.nvcudas _ (List.mem_of_getElem? (hp.getD_view hb hsurf.2))
        obtain ⟨rest, hres, hset⟩ := hp.resources_split hb hsurf.2
        generalize p.nvcudas.getD index .zeroed = c at hok hmap hres
        -- nothing is mapped yet
        have hnone : c.resource = none := by
          have := hok.devicePtr
          rw [hmap.1] at this
          exact Option.not_isSome_iff_eq_none.mp (by simp [← this])
        have hbare : surfaceResources b.nvbuf c = b.nvbuf.resources := by
          unfold NvBuf.resources surfaceResources
          rw [hnone]
          rfl
        have hmapped := nvbufCudaMap_returns build b.nvbuf
        constructor
        · refine (((nvbufCudaMap_uses build b.nvbuf).frame rest).of_pre_eq (hbare ▸ hres)).bind fun r => ?_
          cases r with
          | none =>
              refine .pure ?_
              rw [hset, Option.getD_none]
              unfold surfaceResources
              rw [hnone]
              rfl
          | some c' =>
              refine .pure ?_
              rw [hset]
              rfl
        · refine hmapped.bind fun r hr => ?_
          cases r with
          | none => exact .pure (hp.set_view index ⟨hok.possible, hok.devicePtr⟩)
          | some c' =>
              have hc' := hr c' rfl
              exact .pure (hp.set_view index ⟨hc'.possible, hc'.devicePtr.trans hc'.resource.symm⟩)
      · exact ⟨.pure rfl, .pure hp⟩
      · exact ⟨.pure rfl, .pure hp⟩

/-! ### The generation -/

/-- Allocating does not touch the generation. -/
theorem allocateWith_gen (p : PoolImpl) (alloc : Call (Option Buffer)) :
    Returns (p.allocateWith alloc) fun r => r.2.gen = p.gen :=
  (Returns.trivial _).bind fun _ _ => .pure rfl

/-- UDMABUF does not touch the generation. -/
theorem allocateUdmabuf_gen (p : PoolImpl) : Returns p.allocateUdmabuf fun r => r.2.gen = p.gen := by
  refine (Returns.trivial _).bind fun r _ => ?_
  cases r with
  | none => exact .pure rfl
  | some udma =>
      exact (allocateWith_gen p _).bind fun r hr => (Returns.trivial _).bind fun _ _ => .pure hr

/-- V4L2 does not touch the generation. -/
theorem allocateV4l2_gen (p : PoolImpl) : Returns p.allocateV4l2 fun r => r.2.gen = p.gen := by
  refine .ite (fun _ => .pure rfl) fun _ => (Returns.trivial _).bind fun r _ => ?_
  cases r with
  | none => exact .pure rfl
  | some n =>
      refine (Returns.trivial _).bind fun count _ => ?_
      cases count with
      | none => exact .pure rfl
      | some count => exact .ite (fun _ => .pure rfl) fun _ => allocateWith_gen { p with v4l2Fd := some (newFd n 0) } _

/-- NvBufSurface does not touch the generation. -/
theorem allocateNvbufsurface_gen (p : PoolImpl) : Returns p.allocateNvbufsurface fun r => r.2.gen = p.gen := by
  refine (Returns.trivial _).bind fun r _ => .ite (fun _ => ?_) fun _ => .pure rfl
  exact (Returns.trivial _).bind fun size _ => (Returns.trivial _).bind fun blob _ => .pure rfl

/-- No backend touches the generation. -/
theorem allocateBackend_gen (build : BuildConfig) (p : PoolImpl) :
    Returns (p.allocateBackend build) fun r => r.2.gen = p.gen := by
  unfold allocateBackend
  cases p.cfg.backend with
  | Custom => exact allocateWith_gen p _
  | UDMABUF => exact allocateUdmabuf_gen p
  | V4L2 => exact allocateV4l2_gen p
  | Accelerator => exact .ite (fun _ => allocateWith_gen p _) fun _ => .pure rfl
  | NvBufSurface => exact .ite (fun _ => allocateNvbufsurface_gen p) fun _ => .pure rfl

/-- **A reallocation is of the next generation**, whether or not it succeeds. -/
theorem retireAndReallocate_gen (build : BuildConfig) (p : PoolImpl) (n : UInt64) :
    Returns (p.retireAndReallocate build n) fun p' => p'.gen = p.gen + 1 := by
  refine (freeAll_returns build p).bind fun p' hp' => ?_
  subst hp'
  refine (Returns.trivial _).bind fun size _ => ?_
  have hallocate : Returns (allocate build { p.freed with bufferSize := size, gen := p.freed.gen + 1 })
      fun r => r.2.gen = p.gen + 1 := by
    refine (allocateBackend_gen build _).bind fun r hr => .ite (fun _ => .pure hr) fun _ => ?_
    refine (freeAll_returns build r.2).bind fun p' hp' => .pure ?_
    subst hp'
    exact hr
  exact hallocate.bind fun r hr => .pure hr

/-- `device_ptr` concerns the views only. -/
theorem devicePtr_returns (build : BuildConfig) (p : PoolImpl) (index : ℕ) :
    Returns (p.devicePtr build index) fun r => ∃ nvcudas, r.2 = { p with nvcudas := nvcudas } := by
  unfold devicePtr
  cases p.buffers[index]? with
  | none => exact .pure ⟨p.nvcudas, rfl⟩
  | some b =>
      refine .ite (fun _ => .ite (fun _ => ?_) fun _ => .pure ⟨p.nvcudas, rfl⟩) fun _ => .pure ⟨p.nvcudas, rfl⟩
      refine (Returns.trivial _).bind fun r _ => ?_
      cases r with
      | none => exact .pure ⟨_, rfl⟩
      | some c => exact .pure ⟨_, rfl⟩

/-! ### What the pool hands out -/

/-- A buffer's resources are among those of the pool. -/
theorem le_buffersRes {bs : List Buffer} {i : ℕ} {b : Buffer} (hb : bs[i]? = some b) (cs : List NvBufCuda) :
    b.resources cs[i]? ≤ buffersRes bs cs := by
  induction bs generalizing cs i with
  | nil => cases hb
  | cons b' bs ih =>
      cases i with
      | zero =>
          obtain rfl := Option.some.inj hb
          rw [← List.head?_eq_getElem?]
          exact Multiset.le_add_right _ _
      | succ i =>
          rw [← List.getElem?_tail]
          exact (ih hb cs.tail).trans (Multiset.le_add_left _ _)

end PoolImpl

/-- **What is open for a buffer**: its FD, the memory behind its device pointer, and the view that a surface's pointer
belongs to. -/
structure Buffer.Backed (b : Buffer) (c : Option NvBufCuda) (live : Multiset Resource) : Prop where
  shareFd : ∀ fd, b.shareFd = some fd → Held live fd
  devicePtr : ∀ ptr, b.devicePtr = some ptr → b.nvbufSurf = none → .mapped ptr b.accelSize ∈ live
  view : ∀ surf ptr, b.nvbufSurf = some surf → c.bind (·.devicePtr) = some ptr →
    .eglImage surf b.shareFd ∈ live ∧ ∃ res, .graphics res ∈ live

/-- More that is open changes nothing. -/
theorem Buffer.Backed.mono {b : Buffer} {c : Option NvBufCuda} {live live' : Multiset Resource} (h : b.Backed c live)
    (hle : live ≤ live') : b.Backed c live' where
  shareFd fd hfd := (h.shareFd fd hfd).mono hle
  devicePtr ptr hptr hsurf := Multiset.mem_of_le hle (h.devicePtr ptr hptr hsurf)
  view surf ptr hsurf hptr := (h.view surf ptr hsurf hptr).imp (Multiset.mem_of_le hle)
    fun ⟨res, hres⟩ => ⟨res, Multiset.mem_of_le hle hres⟩

/-- A buffer's resources keep its FD open. -/
theorem Buffer.held_shareFd (b : Buffer) (c : Option NvBufCuda) {fd : Fd} (hfd : b.shareFd = some fd) :
    Held (b.resources c) fd := by
  unfold Buffer.resources
  split_ifs with hsurf hdev
  · obtain ⟨surf, hsurf⟩ := Option.isSome_iff_exists.mp hsurf
    unfold surfaceResources Buffer.nvbuf
    rw [hsurf]
    cases (c.getD .zeroed).resource with
    | none => exact ⟨_, Multiset.mem_singleton_self _, hfd⟩
    | some res => exact ⟨.eglImage surf b.shareFd, by simp, hfd⟩
  · obtain ⟨ptr, hptr⟩ := Option.isSome_iff_exists.mp hdev
    exact .of_mem (by simp [AccelBuffer.resources, hptr, hfd])
  · exact .of_mem (by simp [fdRes, hfd])

/-- The resources of a buffer back it. -/
theorem Buffer.backed (b : Buffer) {build : BuildConfig} {c : Option NvBufCuda} (hc : ∀ c', c = some c' → c'.Ok build) :
    b.Backed c (b.resources c) := by
  refine ⟨fun fd => b.held_shareFd c, fun ptr hptr hsurf => ?_, fun surf ptr hsurf hptr => ?_⟩
  · rw [Buffer.resources, if_neg (by simp [hsurf]), if_pos (by simp [hptr])]
    simp [AccelBuffer.resources, hptr]
  · obtain ⟨c', rfl, hptr'⟩ := Option.bind_eq_some_iff.mp hptr
    have hres : c'.resource.isSome = true := by rw [← (hc c' rfl).devicePtr, hptr']; rfl
    obtain ⟨res, hres⟩ := Option.isSome_iff_exists.mp hres
    rw [Buffer.resources, if_pos (by simp [hsurf])]
    simp [surfaceResources, Buffer.nvbuf, hsurf, hres]

namespace PoolImpl

/-- **What is open for a pool**: the FDs it hands out are those of its buffers, and its device memory is as large as it
says. -/
structure Backed (p : PoolImpl) (live : Multiset Resource) : Prop where
  shareFds : p.shareFds = p.buffers.map (·.shareFd)
  buffers : ∀ (i : ℕ) (b : Buffer), p.buffers[i]? = some b → b.Backed p.nvcudas[i]? live ∧ b.Covers p.bufferSize

/-- **What a pool owns backs its FDs and pointers**. -/
theorem Valid.backed {build : BuildConfig} {p : PoolImpl} (hp : p.Valid build) : p.Backed p.resources := by
  refine ⟨hp.shareFds, fun i b hb => ⟨?_, hp.covers b (List.mem_of_getElem? hb)⟩⟩
  refine (b.backed fun c hc => hp.nvcudas c (List.mem_of_getElem? hc)).mono ?_
  exact (le_buffersRes hb p.nvcudas).trans (Multiset.le_add_right _ _)

/-- A pool stays backed while more is opened. -/
theorem Backed.mono {p : PoolImpl} {live live' : Multiset Resource} (h : p.Backed live) (hle : live ≤ live') :
    p.Backed live' :=
  ⟨h.shareFds, fun i b hb => (h.buffers i b hb).imp_left fun hback => hback.mono hle⟩

end PoolImpl

end Axon.Device
