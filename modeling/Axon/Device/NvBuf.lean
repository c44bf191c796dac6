import Axon.Device.Accelerator

/-! # NvBufSurface buffers and their CUDA views

A surface owns its FD. It may be mapped as an EGL image, and the image registered with CUDA: then the surface has a
device pointer, and both have to be undone before the surface is destroyed.

* **`nvbufAlloc_uses`** and **`nvbufImport_uses`**: exactly the surface returned is open; an import leaves the FD it
  was given to the caller.
* **`nvbufCudaMap_uses`**: whichever call fails, the surface is as it was.
* **`nvbufRelease_uses`**: unmapping the view and destroying the surface releases everything. -/

namespace Axon.Device

open Foundation Prog

/-- A surface, as the nvbuf functions hand it around. -/
structure NvBuf where
  /-- Owns the FD. -/
  surf : Option ℕ
  fd : Option Fd
  size : UInt64
  pitch : UInt32
  deriving DecidableEq

/-- No surface. -/
def NvBuf.zeroed : NvBuf := ⟨none, none, 0, 0⟩

/-- The CUDA view of a surface. -/
structure NvBufCuda where
  resource : Option ℕ
  devicePtr : Option ℕ
  /-- A map attempt failed. -/
  failed : Bool
  deriving DecidableEq

/-- No view. -/
def NvBufCuda.zeroed : NvBufCuda := ⟨none, none, false⟩

/-- `v4l2_fourcc`. -/
def v4l2Fourcc (a b c d : Char) : UInt32 := a.val ||| b.val <<< 8 ||| c.val <<< 16 ||| d.val <<< 24

/-- The color formats that a surface may have here. -/
inductive NvBufSurfaceColorFormat
  | YUYV
  | GRAY8
  | RGBA

/-- The color format of a V4L2 pixel format; others are refused. -/
def colorFormat (fourcc : UInt32) : Option NvBufSurfaceColorFormat :=
  if fourcc = v4l2Fourcc 'Y' 'U' 'Y' 'V' then some .YUYV
  else if fourcc = v4l2Fourcc 'G' 'R' 'E' 'Y' then some .GRAY8
  else if fourcc = v4l2Fourcc 'A' 'B' '2' '4' then some .RGBA
  else none

/-! ## The library -/

/-- What `surfaceList[0]` of a surface says. -/
def surfaceList0 (surf : ℕ) : Call NvBuf := do
  let bufferDesc := (← ask).getD 0
  let dataSize := (← ask).getD 0
  let pitch := (← ask).getD 0
  return ⟨some surf, some (newFd bufferDesc dataSize), .ofNat dataSize, .ofNat pitch⟩

/-- A new surface of this format. -/
def NvBufSurfaceAllocate (_width _height : UInt32) (_color : NvBufSurfaceColorFormat) : Call (Option NvBuf) := do
  match ← ask with
  | none => return none
  | some surf =>
      let b ← surfaceList0 surf
      acquire (.surface surf b.fd)
      return some b

/-- A surface imported from an FD, which it owns from then on. -/
def NvBufSurfaceImport (own : Fd) (_params : List UInt8) : Call (Option NvBuf) := do
  match ← ask with
  | none => return none
  | some surf =>
      let b ← surfaceList0 surf
      exchange (.fd own) (.surface surf b.fd)
      return some b

section

variable (surf : ℕ) (fd : Option Fd)

/-- The surface is destroyed, and its FD closed with it. -/
def NvBufSurfaceDestroy : Call Unit := release (.surface surf fd)

/-- The surface is mapped as an EGL image. -/
def NvBufSurfaceMapEglImage : Call Bool := do
  access (.surface surf fd)
  if ← succeeds then
    exchange (.surface surf fd) (.eglImage surf fd)
    return true
  else return false

/-- The EGL image is a surface again. -/
def NvBufSurfaceUnMapEglImage : Call Unit := exchange (.eglImage surf fd) (.surface surf fd)

/-- The EGL image is registered with CUDA. -/
def cuGraphicsEGLRegisterImage : Call (Option ℕ) := do
  access (.eglImage surf fd)
  opening .graphics

end

/-- Plane 0 of the frame, if it is a pitch-linear one. -/
def cuGraphicsResourceGetMappedEglFrame (resource : ℕ) : Call (Option ℕ) := do
  access (.graphics resource)
  ask

/-- The registration ends. -/
def cuGraphicsUnregisterResource (resource : ℕ) : Call Unit := release (.graphics resource)

/-! ## `pool_nvbufsurface.cpp` -/

/-- **`nvbuf_alloc`**. -/
def nvbufAlloc (width height fourcc : UInt32) : Call (Option NvBuf) := do
  if width = 0 ∨ height = 0 then return none
  else
    match colorFormat fourcc with
    | none => return none
    | some color => NvBufSurfaceAllocate width height color

/-- **`nvbuf_free`**: destroying the surface closes its FD. -/
def nvbufFree (b : NvBuf) : Call NvBuf := do
  match b.surf with
  | none => return b
  | some surf =>
      NvBufSurfaceDestroy surf b.fd
      return .zeroed

/-- **`nvbuf_import`**: on a duplicate of the FD, for the surface will close it. -/
def nvbufImport (fd : Fd) (params : List UInt8) : Call (Option NvBuf) := do
  access (.fd fd)
  match ← opening fun own => .fd ⟨own, fd.file⟩ with
  | none => return none
  | some own =>
      match ← NvBufSurfaceImport ⟨own, fd.file⟩ params with
      | none =>
          close ⟨own, fd.file⟩
          return none
      | some b => return some b

/-- **`nvbuf_cuda_map`**: what is written to `*out` when it returns true. -/
def nvbufCudaMap (build : BuildConfig) (b : NvBuf) : Call (Option NvBufCuda) := do
  if build.cuda = false then return none
  else
    match b.surf with
    | none => return none
    | some surf =>
        if ← accelInit then
          if ← NvBufSurfaceMapEglImage surf b.fd then
            match ← cuGraphicsEGLRegisterImage surf b.fd with
            | none =>
                NvBufSurfaceUnMapEglImage surf b.fd
                return none
            | some res =>
                match ← cuGraphicsResourceGetMappedEglFrame res with
                | none =>
                    cuGraphicsUnregisterResource res
                    NvBufSurfaceUnMapEglImage surf b.fd
                    return none
                | some devicePtr => return some ⟨some res, some devicePtr, false⟩
          else return none
        else return none

/-- **`nvbuf_cuda_unmap`**: what is left in `*c`. -/
def nvbufCudaUnmap (build : BuildConfig) (b : NvBuf) (c : NvBufCuda) : Call NvBufCuda := do
  if build.cuda = false then return c
  else
    match c.resource with
    | none => return c
    | some res =>
        -- the result does not matter
        let _ ← accelInit
        cuGraphicsUnregisterResource res
        match b.surf with
        | none => return .zeroed
        | some surf =>
            NvBufSurfaceUnMapEglImage surf b.fd
            return .zeroed

/-! ## What they open -/

/-- What a surface says of itself is about this surface. -/
theorem surfaceList0_returns (surf : ℕ) : Returns (surfaceList0 surf) fun b => b.surf = some surf :=
  (Returns.trivial _).bind fun _ _ => (Returns.trivial _).bind fun _ _ => (Returns.trivial _).bind fun _ _ => .pure rfl

/-- Reading it concerns no resource. -/
theorem surfaceList0_uses (surf : ℕ) (rest : Multiset Resource) : Uses rest (surfaceList0 surf) fun _ => rest :=
  (Uses.ask _).bind fun _ => (Uses.ask _).bind fun _ => (Uses.ask _).bind fun _ => .pure rfl

/-- A surface has been allocated. -/
theorem nvbufAlloc_returns (width height fourcc : UInt32) :
    Returns (nvbufAlloc width height fourcc) fun r => ∀ b, r = some b → b.surf.isSome = true := by
  refine .ite (fun _ => .pure (by simp)) fun _ => ?_
  cases colorFormat fourcc with
  | none => exact .pure (by simp)
  | some color =>
      refine (Returns.trivial _).bind fun r _ => ?_
      cases r with
      | none => exact .pure (by simp)
      | some surf =>
          refine (surfaceList0_returns surf).bind fun b hb => (Returns.trivial _).bind fun _ _ => .pure fun b' hb' => ?_
          obtain rfl := Option.some.inj hb'
          rw [hb]
          rfl

/-- **The resources of a surface** and its CUDA view. -/
def surfaceResources (b : NvBuf) (c : NvBufCuda) : Multiset Resource :=
  match b.surf, c.resource with
  | none, none => 0
  | none, some res => {.graphics res}
  | some surf, none => {.surface surf b.fd}
  | some surf, some res => {.graphics res, .eglImage surf b.fd}

/-- A surface without a view. -/
def NvBuf.resources (b : NvBuf) : Multiset Resource := surfaceResources b .zeroed

section

variable (surf res : ℕ) (fd : Option Fd) (rest : Multiset Resource)

/-- The image has to be there. -/
theorem NvBufSurfaceUnMapEglImage_uses :
    Uses (.eglImage surf fd ::ₘ rest) (NvBufSurfaceUnMapEglImage surf fd) fun _ => .surface surf fd ::ₘ rest :=
  exchange_uses _ _ rest

/-- The registration has to be there, and stays. -/
theorem cuGraphicsResourceGetMappedEglFrame_uses :
    Uses (.graphics res ::ₘ rest) (cuGraphicsResourceGetMappedEglFrame res) fun _ => .graphics res ::ₘ rest :=
  (Uses.access (Multiset.mem_cons_self _ _)).bind fun _ => .ask _

/-- The registration has to be there. -/
theorem cuGraphicsUnregisterResource_uses :
    Uses (.graphics res ::ₘ rest) (cuGraphicsUnregisterResource res) fun _ => rest := .release _ rest

/-- The surface has to be there, and unmapped. -/
theorem NvBufSurfaceDestroy_uses : Uses (.surface surf fd ::ₘ rest) (NvBufSurfaceDestroy surf fd) fun _ => rest :=
  .release _ rest

/-- The surface becomes an image, if the call succeeds. -/
theorem NvBufSurfaceMapEglImage_uses : Uses {.surface surf fd} (NvBufSurfaceMapEglImage surf fd) fun
    | true => {.eglImage surf fd}
    | false => {.surface surf fd} := by
  refine (Uses.access (Multiset.mem_singleton_self _)).bind fun _ => (succeeds_uses _).bind fun ok => ?_
  exact .ite (fun _ => (exchange_uses _ _ 0).bind fun _ => .pure rfl) fun _ => .pure rfl

end

/-- The resources of a surface as its `surfaceList[0]` has it. -/
theorem NvBuf.resources_eq {b : NvBuf} {surf : ℕ} (h : b.surf = some surf) : b.resources = {.surface surf b.fd} := by
  unfold NvBuf.resources surfaceResources
  rw [h]
  rfl

/-- **An allocation** opens the surface it returns. -/
theorem nvbufAlloc_uses (width height fourcc : UInt32) :
    Uses 0 (nvbufAlloc width height fourcc) (optRes NvBuf.resources) := by
  refine .ite (fun _ => .pure rfl) fun _ => ?_
  cases colorFormat fourcc with
  | none => exact .pure rfl
  | some color =>
      refine (Uses.ask 0).bind fun r => ?_
      cases r with
      | none => exact .pure rfl
      | some surf =>
          refine (surfaceList0_uses surf 0).bind_returns (surfaceList0_returns surf) fun b hb => ?_
          refine (Uses.acquire (Resource.surface surf b.fd) 0).bind fun _ => .pure ?_
          rw [optRes_some, NvBuf.resources_eq hb]
          rfl

/-- The library takes the FD over, if it imports the surface. -/
theorem NvBufSurfaceImport_uses (own : Fd) (params : List UInt8) (rest : Multiset Resource) :
    Uses (.fd own ::ₘ rest) (NvBufSurfaceImport own params) fun
      | none => .fd own ::ₘ rest
      | some b => b.resources + rest := by
  refine (Uses.ask _).bind fun a => ?_
  cases a with
  | none => exact .pure rfl
  | some surf =>
      refine (surfaceList0_uses surf _).bind_returns (surfaceList0_returns surf) fun b hb => ?_
      refine (exchange_uses (.fd own) (.surface surf b.fd) rest).bind fun _ => .pure ?_
      show _ = b.resources + rest
      rw [NvBuf.resources_eq hb, Multiset.singleton_add]

/-- **An import** opens the surface it returns, beside the FD given. -/
theorem nvbufImport_uses (fd : Fd) (params : List UInt8) : Uses {.fd fd} (nvbufImport fd params)
    fun r => optRes NvBuf.resources r + {.fd fd} := by
  refine (Uses.access (Multiset.mem_singleton_self _)).bind fun _ => (opening_uses _ _).bind fun r => ?_
  cases r with
  | none => exact .pure rfl
  | some own =>
      refine (NvBufSurfaceImport_uses ⟨own, fd.file⟩ params {.fd fd}).bind fun r => ?_
      cases r with
      | none => exact (close_uses ⟨own, fd.file⟩ {.fd fd}).bind fun _ => .pure rfl
      | some b => exact .pure rfl

/-- **Mapping a surface for CUDA** opens its view; when it fails, the surface is as it was. -/
theorem nvbufCudaMap_uses (build : BuildConfig) (b : NvBuf) : Uses b.resources (nvbufCudaMap build b)
    fun r => surfaceResources b (r.getD .zeroed) := by
  unfold nvbufCudaMap NvBuf.resources surfaceResources
  refine .ite (fun _ => .pure rfl) fun _ => ?_
  cases b.surf with
  | none => exact .pure rfl
  | some surf =>
      -- a failure undoes the EGL image, and the registration if there is one
      refine (accelInit_uses _).bind fun ok => .ite (fun _ => ?_) fun _ => .pure rfl
      refine (NvBufSurfaceMapEglImage_uses surf b.fd).bind_ite ?_ (.pure rfl)
      refine Uses.bind ((Uses.access (Multiset.mem_singleton_self _)).bind fun _ => opening_uses _ _) fun r => ?_
      cases r with
      | none => exact (NvBufSurfaceUnMapEglImage_uses surf b.fd 0).bind fun _ => .pure rfl
      | some res =>
          refine (cuGraphicsResourceGetMappedEglFrame_uses res {.eglImage surf b.fd}).bind fun r => ?_
          cases r with
          | none =>
              refine (cuGraphicsUnregisterResource_uses res {.eglImage surf b.fd}).bind fun _ => ?_
              exact (NvBufSurfaceUnMapEglImage_uses surf b.fd 0).bind fun _ => .pure rfl
          | some devicePtr => exact .pure rfl

/-- A view is unmapped and its surface destroyed. -/
def nvbufRelease (build : BuildConfig) (b : NvBuf) (c : NvBufCuda) : Call Unit := do
  let _ ← nvbufCudaUnmap build b c
  let _ ← nvbufFree b

/-- A build without CUDA has no views. -/
def NvBufCuda.Possible (build : BuildConfig) (c : NvBufCuda) : Prop := build.cuda = false → c.resource = none

/-- What is mapped is a view of a surface that is there. -/
structure NvBufCuda.Mapped (build : BuildConfig) (b : NvBuf) (c : NvBufCuda) : Prop where
  cuda : build.cuda = true
  surf : b.surf.isSome = true
  resource : c.resource.isSome = true
  devicePtr : c.devicePtr.isSome = true

/-- What is mapped is possible in this build. -/
theorem NvBufCuda.Mapped.possible {build : BuildConfig} {b : NvBuf} {c : NvBufCuda} (h : c.Mapped build b) :
    c.Possible build := fun hoff => absurd (h.cuda.symm.trans hoff) (by simp)

/-- **A view that is returned** is mapped. -/
theorem nvbufCudaMap_returns (build : BuildConfig) (b : NvBuf) :
    Returns (nvbufCudaMap build b) fun r => ∀ c, r = some c → c.Mapped build b := by
  refine .ite (fun _ => .pure (by simp)) fun hcuda => ?_
  rw [Bool.not_eq_false] at hcuda
  cases hsurf : b.surf with
  | none => exact .pure (by simp)
  | some surf =>
      refine (Returns.trivial _).bind fun ok _ => .ite (fun _ => ?_) fun _ => .pure (by simp)
      refine (Returns.trivial _).bind fun ok _ => .ite (fun _ => ?_) fun _ => .pure (by simp)
      refine (Returns.trivial _).bind fun r _ => ?_
      -- a registration that fails leaves the surface without a view
      cases r with
      | none => exact (Returns.trivial _).bind fun _ _ => .pure (by simp)
      | some res =>
          refine (Returns.trivial _).bind fun r _ => ?_
          cases r with
          | none => exact (Returns.trivial _).bind fun _ _ => (Returns.trivial _).bind fun _ _ => .pure (by simp)
          | some devicePtr =>
              -- the view that is returned has all of the parts
              refine .pure fun c hc => ?_
              obtain rfl := Option.some.inj hc
              exact ⟨hcuda, by rw [hsurf]; rfl, rfl, rfl⟩

/-- **Unmapping the view** leaves the surface. -/
theorem nvbufCudaUnmap_uses {build : BuildConfig} (b : NvBuf) {c : NvBufCuda} (hc : c.Possible build) :
    Uses (surfaceResources b c) (nvbufCudaUnmap build b c) fun _ => b.resources := by
  unfold nvbufCudaUnmap NvBuf.resources surfaceResources
  refine .ite (fun hcuda => .pure ?_) fun _ => ?_
  · rw [hc hcuda]
    rfl
  · cases c.resource with
    | none => exact .pure rfl
    | some res =>
        refine (accelInit_uses _).bind fun _ => ?_
        cases b.surf with
        | none => exact (cuGraphicsUnregisterResource_uses res 0).bind fun _ => .pure rfl
        | some surf =>
            refine (cuGraphicsUnregisterResource_uses res {.eglImage surf b.fd}).bind fun _ => ?_
            exact (NvBufSurfaceUnMapEglImage_uses surf b.fd 0).bind fun _ => .pure rfl

/-- **`nvbuf_free`** destroys the surface. -/
theorem nvbufFree_uses (b : NvBuf) : Uses b.resources (nvbufFree b) fun _ => 0 := by
  unfold nvbufFree NvBuf.resources surfaceResources
  cases b.surf with
  | none => exact .pure rfl
  | some surf => exact (NvBufSurfaceDestroy_uses surf b.fd 0).bind fun _ => .pure rfl

/-- **Unmapping the view and destroying the surface** releases everything. -/
theorem nvbufRelease_uses {build : BuildConfig} (b : NvBuf) {c : NvBufCuda} (hc : c.Possible build) :
    Uses (surfaceResources b c) (nvbufRelease build b c) fun _ => 0 :=
  (nvbufCudaUnmap_uses b hc).bind fun _ => (nvbufFree_uses b).bind fun _ => .pure rfl

end Axon.Device
