import Axon.Device.Driver
import Axon.Pool

/-! # Device buffers of the CUDA backend

`accel_alloc` makes a device buffer and exports it as an FD, `accel_import` maps one that was exported elsewhere,
`accel_free` takes either apart again. A buffer is four things at once: a range of addresses, the memory mapped into
it, the handle of that memory and the exported FD.

* **`accelAlloc_uses`** and **`accelImport_uses`**: whichever call fails, what was opened before it is released;
  otherwise exactly the buffer's resources are open.
* **`accelFree_uses`**: it releases all of them. -/

namespace Axon.Device

open Foundation Prog

/-- One device buffer. -/
structure AccelBuffer where
  devicePtr : Option ℕ
  /-- Of a buffer allocated here; whoever imports a buffer owns the FD it has received. -/
  exportFd : Option Fd
  /-- Allocation size, of whole granules. -/
  aligned : UInt64
  handle : ℕ
  deriving DecidableEq

/-- A zeroed buffer. -/
def AccelBuffer.zeroed : AccelBuffer := ⟨none, none, 0, 0⟩

/-! ## The CUDA driver -/

/-- A range of device addresses. -/
def cuMemAddressReserve (size : UInt64) : Call (Option ℕ) := opening fun ptr => .reserved ptr size

/-- Memory is mapped into the range. -/
def cuMemMap (ptr : ℕ) (size : UInt64) (handle : ℕ) : Call Bool := do
  access (.allocation handle)
  access (.reserved ptr size)
  if ← succeeds then
    exchange (.reserved ptr size) (.mapped ptr size)
    return true
  else return false

/-- The range is opened for access. -/
def cuMemSetAccess (ptr : ℕ) (size : UInt64) : Call Bool := do
  access (.mapped ptr size)
  succeeds

/-- The range has no memory any more. -/
def cuMemUnmap (ptr : ℕ) (size : UInt64) : Call Unit := exchange (.mapped ptr size) (.reserved ptr size)

/-- The range is given back, which has to be empty. -/
def cuMemAddressFree (ptr : ℕ) (size : UInt64) : Call Unit := release (.reserved ptr size)

/-- Device memory. -/
def cuMemCreate : Call (Option ℕ) := opening .allocation

/-- A handle of device memory is given back. -/
def cuMemRelease (handle : ℕ) : Call Unit := release (.allocation handle)

/-- The exported FD refers to memory of `size` bytes. -/
def cuMemExportToShareableHandle (handle : ℕ) (size : UInt64) : Call (Option Fd) := do
  access (.allocation handle)
  match ← ask with
  | none => return none
  | some n =>
      acquire (.fd (newFd n size.toNat))
      return some (newFd n size.toNat)

/-- A handle of the memory behind an FD, which stays open. -/
def cuMemImportFromShareableHandle (fd : Fd) : Call (Option ℕ) := do
  access (.fd fd)
  opening .allocation

section

variable (ptr : ℕ) (size : UInt64) (handle : ℕ) (rest : Multiset Resource)

/-- Something has to be mapped. -/
theorem cuMemUnmap_uses :
    Uses (.mapped ptr size ::ₘ rest) (cuMemUnmap ptr size) fun _ => .reserved ptr size ::ₘ rest :=
  exchange_uses _ _ rest

/-- The range has to be reserved and empty. -/
theorem cuMemAddressFree_uses : Uses (.reserved ptr size ::ₘ rest) (cuMemAddressFree ptr size) fun _ => rest :=
  .release _ rest

/-- The handle has to be there. -/
theorem cuMemRelease_uses : Uses (.allocation handle ::ₘ rest) (cuMemRelease handle) fun _ => rest :=
  .release _ rest

end

/-- The range becomes a mapped one, if the call succeeds. -/
theorem cuMemMap_uses (ptr : ℕ) (size : UInt64) (handle : ℕ) :
    Uses {.reserved ptr size, .allocation handle} (cuMemMap ptr size handle) fun
      | true => {.mapped ptr size, .allocation handle}
      | false => {.reserved ptr size, .allocation handle} := by
  refine (Uses.access (by simp)).bind fun _ => (Uses.access (by simp)).bind fun _ => ?_
  refine (succeeds_uses _).bind fun ok => .ite (fun _ => ?_) fun _ => .pure rfl
  exact (exchange_uses _ _ _).bind fun _ => .pure rfl

/-- An export opens an FD beside the handle. -/
theorem cuMemExport_uses (size : UInt64) {handle : ℕ} {rest : Multiset Resource}
    (h : .allocation handle ∈ rest) :
    Uses rest (cuMemExportToShareableHandle handle size) (adding .fd rest) := by
  refine (Uses.access h).bind fun _ => (Uses.ask _).bind fun a => ?_
  cases a with
  | none => exact .pure rfl
  | some n => exact (Uses.acquire _ _).bind fun _ => .pure rfl

/-! ## `accelerator_cuda.cpp` -/

/-- **`map_rw`**: reserve a range of addresses, map the memory into it and open it for access. -/
def mapRw (handle : ℕ) (size : UInt64) : Call (Option ℕ) := do
  match ← cuMemAddressReserve size with
  | none => return none
  | some ptr =>
      if ← cuMemMap ptr size handle then
        if ← cuMemSetAccess ptr size then return some ptr
        else
          cuMemUnmap ptr size
          cuMemAddressFree ptr size
          return none
      else
        cuMemAddressFree ptr size
        return none

/-- **`accel_init`**: make the primary context current on the calling thread, after the driver has been
initialised once. -/
def accelInit : Call Bool := do
  let g ← get
  if g.gInit then succeeds
  else
    -- cuInit, cuDeviceGet, cuDevicePrimaryCtxRetain and cuCtxSetCurrent
    if ← allSucceed 4 then
      set { g with gInit := true }
      return true
    else return false

/-- **`aligned_size`**: `0` when the driver does not tell its granularity. -/
def alignedSize (size : UInt64) : Call UInt64 := do
  match ← ask with
  | none => return 0
  | some gran => return Axon.alignedSize (.ofNat gran) size

/-- **`accel_alloc`**. -/
def accelAlloc (size : UInt64) : Call (Option AccelBuffer) := do
  if size = 0 then return none
  else if ← accelInit then
    let sz ← alignedSize size
    if sz = 0 then return none
    else
      match ← cuMemCreate with
      | none => return none
      | some h =>
          match ← mapRw h sz with
          | none =>
              cuMemRelease h
              return none
          | some ptr =>
              match ← cuMemExportToShareableHandle h sz with
              | none =>
                  cuMemUnmap ptr sz
                  cuMemAddressFree ptr sz
                  cuMemRelease h
                  return none
              | some fd => return some ⟨some ptr, some fd, sz, h⟩
  else return none

/-- **`accel_import`**: the caller keeps the FD. -/
def accelImport (exportFd : Fd) (size : UInt64) : Call (Option AccelBuffer) := do
  if size = 0 then return none
  else if ← accelInit then
    let sz ← alignedSize size
    if sz = 0 then return none
    else
      match ← cuMemImportFromShareableHandle exportFd with
      | none => return none
      | some h =>
          match ← mapRw h sz with
          | none =>
              cuMemRelease h
              return none
          | some ptr => return some ⟨some ptr, none, sz, h⟩
  else return none

/-- **`accel_free`**: take a buffer apart; the result is what is left in `*b`. -/
def accelFree (b : AccelBuffer) : Call AccelBuffer := do
  match b.devicePtr with
  | none => return b
  | some ptr =>
      cuMemUnmap ptr b.aligned
      cuMemAddressFree ptr b.aligned
      cuMemRelease b.handle
      match b.exportFd with
      | none => return .zeroed
      | some fd =>
          close fd
          return .zeroed

/-! ## What they open -/

/-- **The resources of a device buffer**. -/
def AccelBuffer.resources (b : AccelBuffer) : Multiset Resource :=
  match b.devicePtr with
  | none => 0
  | some ptr => .mapped ptr b.aligned ::ₘ .allocation b.handle ::ₘ optRes (fun fd => {.fd fd}) b.exportFd

/-- **`map_rw`** maps the memory, or leaves nothing of the range. -/
theorem mapRw_uses (handle : ℕ) (size : UInt64) : Uses {.allocation handle} (mapRw handle size)
    (adding (fun ptr => .mapped ptr size) {.allocation handle}) := by
  refine (opening_uses _ _).bind fun r => ?_
  cases r with
  | none => exact .pure rfl
  | some ptr =>
      refine (cuMemMap_uses ptr size handle).bind_ite ?_ ?_
      · refine Uses.bind ((Uses.access (Multiset.mem_cons_self _ _)).bind fun _ => succeeds_uses _) fun ok => ?_
        refine .ite (fun _ => .pure rfl) fun _ => ?_
        exact (cuMemUnmap_uses _ _ _).bind fun _ => (cuMemAddressFree_uses _ _ _).bind fun _ => .pure rfl
      · exact (cuMemAddressFree_uses _ _ _).bind fun _ => .pure rfl

/-- Initialising the driver opens nothing that has to be closed. -/
theorem accelInit_uses (rest : Multiset Resource) : Uses rest accelInit fun _ => rest := by
  refine (Uses.get rest).bind fun g => .ite (fun _ => succeeds_uses rest) fun _ => ?_
  refine (allSucceed_uses 4 rest).bind fun ok => .ite (fun _ => ?_) fun _ => .pure rfl
  exact (Uses.set _ rest).bind fun _ => .pure rfl

/-- Nor does asking for the granularity. -/
theorem alignedSize_uses (size : UInt64) (rest : Multiset Resource) :
    Uses rest (alignedSize size) fun _ => rest := by
  refine (Uses.ask rest).bind fun a => ?_
  cases a with
  | none => exact .pure rfl
  | some gran => exact .pure rfl

/-- **An allocation** opens the resources of the buffer it returns; a failed one leaves nothing open. -/
theorem accelAlloc_uses (size : UInt64) : Uses 0 (accelAlloc size) (optRes AccelBuffer.resources) := by
  refine .ite (fun _ => .pure rfl) fun _ => ?_
  refine (accelInit_uses 0).bind fun ok => .ite (fun _ => ?_) fun _ => .pure rfl
  refine (alignedSize_uses size 0).bind fun sz => .ite (fun _ => .pure rfl) fun _ => ?_
  refine (opening_uses _ _).bind fun r => ?_
  cases r with
  | none => exact .pure rfl
  | some h =>
      -- from here on the allocation has to be released, or be part of what is returned
      refine (mapRw_uses h sz).bind fun r => ?_
      cases r with
      | none => exact (cuMemRelease_uses h 0).bind fun _ => .pure rfl
      | some ptr =>
          refine (cuMemExport_uses sz (by simp [adding])).bind fun r => ?_
          -- each step that fails undoes those before it, the last one first
          cases r with
          | none =>
              refine (cuMemUnmap_uses ptr sz {.allocation h}).bind fun _ => ?_
              refine (cuMemAddressFree_uses ptr sz _).bind fun _ => ?_
              exact (cuMemRelease_uses h 0).bind fun _ => .pure rfl
          | some fd =>
              refine .pure ?_
              show Resource.fd fd ::ₘ .mapped ptr sz ::ₘ {.allocation h} = .mapped ptr sz ::ₘ .allocation h ::ₘ {.fd fd}
              rw [Multiset.cons_swap, ← Multiset.cons_zero, Multiset.cons_swap (Resource.fd fd) (.allocation h)]
              rfl

/-- **An import** opens the resources of the buffer it returns, beside the FD, which stays the caller's; a failed
one leaves nothing open but this FD. -/
theorem accelImport_uses (exportFd : Fd) (size : UInt64) : Uses {.fd exportFd} (accelImport exportFd size)
    fun r => optRes AccelBuffer.resources r + {.fd exportFd} := by
  refine .ite (fun _ => .pure rfl) fun _ => ?_
  refine (accelInit_uses _).bind fun ok => .ite (fun _ => ?_) fun _ => .pure rfl
  refine (alignedSize_uses size _).bind fun sz => .ite (fun _ => .pure rfl) fun _ => ?_
  refine Uses.bind ((Uses.access (Multiset.mem_singleton_self _)).bind fun _ => opening_uses _ _) fun r => ?_
  cases r with
  | none => exact .pure rfl
  | some h =>
      refine (((mapRw_uses h sz).frame {.fd exportFd}).of_pre_eq (Multiset.singleton_add _ _).symm).bind fun r => ?_
      cases r with
      | none => exact ((cuMemRelease_uses h 0).frame {.fd exportFd}).bind fun _ => .pure rfl
      | some ptr => exact .pure rfl

/-- **A buffer made for `size` bytes**: it has a pointer, and as many whole granules as that takes. -/
structure AccelBuffer.Covers (b : AccelBuffer) (size : UInt64) : Prop where
  size_ne_zero : size ≠ 0
  devicePtr : b.devicePtr.isSome = true
  aligned : ∃ gran, b.aligned = Axon.alignedSize gran size
  aligned_ne_zero : b.aligned ≠ 0

/-- A buffer is as large as was asked for. -/
theorem AccelBuffer.Covers.le {b : AccelBuffer} {size : UInt64} (h : b.Covers size) : size ≤ b.aligned := by
  obtain ⟨gran, hgran⟩ := h.aligned
  rw [hgran]
  exact le_alignedSize (hgran ▸ h.aligned_ne_zero)

/-- A size that is not zero is one of whole granules. -/
theorem alignedSize_returns (size : UInt64) :
    Returns (alignedSize size) fun sz => sz ≠ 0 → ∃ gran, sz = Axon.alignedSize gran size := by
  refine (Returns.trivial _).bind fun a _ => ?_
  cases a with
  | none => exact .pure fun h => absurd rfl h
  | some gran => exact .pure fun _ => ⟨.ofNat gran, rfl⟩

/-- What is allocated covers the size asked for. -/
theorem accelAlloc_returns (size : UInt64) :
    Returns (accelAlloc size) fun r => ∀ b, r = some b → b.Covers size := by
  refine .ite (fun _ => .pure (by simp)) fun hsize => ?_
  refine (Returns.trivial _).bind fun ok _ => .ite (fun _ => ?_) fun _ => .pure (by simp)
  refine (alignedSize_returns size).bind fun sz hsz => .ite (fun _ => .pure (by simp)) fun hne => ?_
  refine (Returns.trivial _).bind fun r _ => ?_
  cases r with
  | none => exact .pure (by simp)
  | some h =>
      refine (Returns.trivial _).bind fun r _ => ?_
      cases r with
      | none => exact (Returns.trivial _).bind fun _ _ => .pure (by simp)
      | some ptr =>
          refine (Returns.trivial _).bind fun r _ => ?_
          cases r with
          | none =>
              refine (Returns.trivial _).bind fun _ _ => (Returns.trivial _).bind fun _ _ => ?_
              exact (Returns.trivial _).bind fun _ _ => .pure (by simp)
          | some fd =>
              -- only the last branch returns a buffer
              refine .pure fun b hb => ?_
              obtain rfl := Option.some.inj hb
              exact ⟨hsize, rfl, hsz hne, hne⟩

/-- What is imported covers the size asked for. -/
theorem accelImport_returns (exportFd : Fd) (size : UInt64) :
    Returns (accelImport exportFd size) fun r => ∀ b, r = some b → b.Covers size := by
  refine .ite (fun _ => .pure (by simp)) fun hsize => ?_
  refine (Returns.trivial _).bind fun ok _ => .ite (fun _ => ?_) fun _ => .pure (by simp)
  refine (alignedSize_returns size).bind fun sz hsz => .ite (fun _ => .pure (by simp)) fun hne => ?_
  refine (Returns.trivial _).bind fun r _ => ?_
  cases r with
  | none => exact .pure (by simp)
  | some h =>
      refine (Returns.trivial _).bind fun r _ => ?_
      cases r with
      | none => exact (Returns.trivial _).bind fun _ _ => .pure (by simp)
      | some ptr =>
          refine .pure fun b hb => ?_
          obtain rfl := Option.some.inj hb
          exact ⟨hsize, rfl, hsz hne, hne⟩

/-- **Taking a buffer apart** releases all its resources. -/
theorem accelFree_uses (b : AccelBuffer) : Uses b.resources (accelFree b) fun _ => 0 := by
  unfold accelFree AccelBuffer.resources
  cases b.devicePtr with
  | none => exact .pure rfl
  | some ptr =>
      refine (cuMemUnmap_uses _ _ _).bind fun _ => (cuMemAddressFree_uses _ _ _).bind fun _ => ?_
      refine (cuMemRelease_uses _ _).bind fun _ => ?_
      cases b.exportFd with
      | none => exact .pure rfl
      | some fd => exact (close_uses fd 0).bind fun _ => .pure rfl

end Axon.Device
