import Axon.Device.Impl
import Mathlib.Tactic.Abel

/-! # A subscriber releases everything it opens

What a subscriber owns is exactly what it keeps a record of, whichever of the calls of `wait_handshake` fail.

* **`Impl.resources`** is what a subscriber owns, **`Impl.Valid`** what its records are like.
* **`waitHandshake_uses`**, **`drainFences_uses`** and **`destroy_uses`**: each function turns what the subscriber
  owned into what it owns then, the last one into nothing.
* **`Valid.backed`**: the pointers of a subscriber lie in what it owns. -/

namespace Axon.Device

open Foundation Prog

/-- A host view. -/
def viewRes (bufferSize : UInt64) (view : Option ℕ) : Multiset Resource :=
  optRes (fun p => {.host p bufferSize}) view

/-- FDs. -/
def fdsRes (fds : List Fd) : Multiset Resource := (fds.map Resource.fd : List Resource)

namespace Impl

/-- What is attached to the buffers' FDs. -/
def bufferRes (s : Impl) : Multiset Resource :=
  (s.views.map (viewRes s.bufferSize)).sum + (s.accelBufs.map AccelBuffer.resources).sum +
    (s.surfaces.map fun x => surfaceResources x.1 x.2).sum

/-- **What a subscriber owns**. -/
def resources (s : Impl) : Multiset Resource :=
  s.bufferRes + fdsRes s.fds + fenceRes s.fences + fdRes s.sock + slotRes s.metadata

/-- A surface with its view: a pointer belongs to a view of a surface that is there. -/
structure SurfaceOk (build : BuildConfig) (x : NvBuf × NvBufCuda) : Prop where
  possible : x.2.Possible build
  devicePtr : x.2.devicePtr.isSome = true → x.1.surf.isSome = true ∧ x.2.resource.isSome = true

/-- **The records of a subscriber**: device buffers and surfaces are there in the builds that can release them, and
every device pointer is one of theirs. -/
structure Valid (build : BuildConfig) (s : Impl) : Prop where
  accel_off : build.cuda = false → s.accelBufs = []
  surfaces_off : build.jetson = false → s.surfaces = []
  accelBufs : ∀ b ∈ s.accelBufs, b = .zeroed ∨ b.Covers s.bufferSize
  surfaces : ∀ x ∈ s.surfaces, SurfaceOk build x
  devicePtrs : s.devicePtrs = s.accelBufs.map (·.devicePtr) ++ s.surfaces.map (·.2.devicePtr)

/-- Code of one build releases nothing in the other, where there is nothing to release. -/
theorem onlyIf_uses {enabled : Bool} {prog : Call Unit} {pre : Multiset Resource}
    (h : Uses pre prog fun _ => 0) (hpre : enabled = false → pre = 0) :
    Uses pre (onlyIf enabled prog) fun _ => 0 := by
  refine .ite (fun _ => h) fun hoff => .pure (hpre ?_)
  simpa using hoff

/-- A view is unmapped with the size it was mapped with. -/
theorem unmapView_uses (bufferSize : UInt64) (view : Option ℕ) :
    Uses (viewRes bufferSize view) (unmapView bufferSize view) fun _ => 0 := by
  cases view with
  | none => exact .pure rfl
  | some p => exact munmap_uses p bufferSize 0

/-- **Releasing the buffers**. -/
theorem release_uses {build : BuildConfig} {s : Impl} (hs : s.Valid build) :
    Uses (s.bufferRes + fdsRes s.fds) (s.release build) fun _ => 0 := by
  have hviews := Uses.forM s.views fun v _ => unmapView_uses s.bufferSize v
  have haccel : Uses (s.accelBufs.map AccelBuffer.resources).sum
      (s.accelBufs.forM fun b => do let _ ← accelFree b) fun _ => 0 :=
    Uses.forM s.accelBufs fun b _ => (accelFree_uses b).bind fun _ => .pure rfl
  have hsurfaces : Uses (s.surfaces.map fun x => surfaceResources x.1 x.2).sum
      (s.surfaces.forM fun x => nvbufRelease build x.1 x.2) fun _ => 0 :=
    Uses.forM s.surfaces fun x hx => nvbufRelease_uses x.1 (hs.surfaces x hx).possible
  have hfds : Uses (fdsRes s.fds) (s.fds.forM close) fun _ => 0 :=
    Uses.forM_singleton Resource.fd s.fds fun fd _ => close_uses fd 0
  -- `detach` releases views, device memory, surfaces and FDs in this order
  unfold release bufferRes
  rw [add_assoc, add_assoc]
  refine (hviews.frame _).bind fun _ => ?_
  rw [zero_add]
  -- a build without the part has nothing of it
  refine ((onlyIf_uses haccel fun hoff => ?_).frame _).bind fun _ => ?_
  · rw [hs.accel_off hoff]
    rfl
  rw [zero_add]
  refine ((onlyIf_uses hsurfaces fun hoff => ?_).frame _).bind fun _ => ?_
  · rw [hs.surfaces_off hoff]
    rfl
  rw [zero_add]
  exact hfds

/-- What `detach` leaves in the records. -/
theorem detach_returns (build : BuildConfig) (s : Impl) : Returns (s.detach build) fun s' => s' = s.detached := by
  refine (Returns.trivial _).bind fun _ _ => ?_
  have hfences : Returns (closeFences s.fences) fun fences => fences = clearedFences s.fences :=
    (Returns.trivial _).bind fun _ _ => .pure rfl
  refine hfences.bind fun fences hfences => .pure ?_
  rw [hfences]
  rfl

/-- **`detach`** releases everything but the socket and the slot. -/
theorem detach_uses {build : BuildConfig} {s : Impl} (hs : s.Valid build) :
    Uses s.resources (s.detach build) fun _ => fdRes s.sock + slotRes s.metadata := by
  have hrest : s.resources = (s.bufferRes + fdsRes s.fds) + (fenceRes s.fences + (fdRes s.sock + slotRes s.metadata)) := by
    unfold resources
    abel
  rw [hrest]
  refine ((release_uses hs).frame _).bind fun _ => ?_
  rw [zero_add]
  exact ((closeFences_uses s.fences).frame _).bind fun fences => .pure (zero_add _)

/-! ### Attaching -/

/-- An FD of the list is open. -/
theorem mem_fdsRes {fds : List Fd} {fd : Fd} (h : fd ∈ fds) : .fd fd ∈ fdsRes fds :=
  Multiset.mem_coe.mpr (List.mem_map_of_mem h)

/-- **Importing a buffer** leaves its FD open. -/
theorem importBuffer_uses (bufferSize : UInt64) (fd : Fd) :
    Uses {.fd fd} (importBuffer bufferSize fd) fun b => b.resources + {.fd fd} := by
  refine (accelImport_uses fd bufferSize).bind fun r => .pure ?_
  cases r <;> rfl

/-- **Importing a surface** leaves the FD open that it was imported from. -/
theorem importSurface_uses (build : BuildConfig) (fd : Fd) (params : List UInt8) :
    Uses {.fd fd} (importSurface build fd params) fun x => surfaceResources x.1 x.2 + {.fd fd} := by
  refine (nvbufImport_uses fd params).bind fun r => ?_
  cases r with
  | none => exact .pure rfl
  | some b => exact ((nvbufCudaMap_uses build b).frame {.fd fd}).bind fun c => .pure rfl

/-! What the loops return: one entry for every FD. -/

/-- There is a place for the view of every FD. -/
theorem mapHost_returns (s : Impl) : Returns s.mapHost fun s' =>
    ∃ views, views.length = s.fds.length ∧ s' = { s with views := views } :=
  (Returns.mapM s.fds fun _ _ => .trivial _).bind fun views hviews => .pure ⟨views, hviews.1, rfl⟩

/-- There is a place for the device buffer of every FD. -/
theorem importDevice_returns (s : Impl) : Returns s.importDevice fun s' => ∃ bufs : List AccelBuffer,
    (bufs.length = s.fds.length ∧ ∀ b ∈ bufs, b = .zeroed ∨ b.Covers s.bufferSize) ∧
      s' = { s with accelBufs := bufs, devicePtrs := bufs.map (·.devicePtr) } := by
  refine (Returns.mapM s.fds fun fd _ => ?_).bind fun bufs hbufs => .pure ⟨bufs, hbufs, rfl⟩
  refine (accelImport_returns fd s.bufferSize).bind fun r hr => .pure ?_
  cases r with
  | none => exact .inl rfl
  | some b => exact .inr (hr b rfl)

/-- A surface that was imported is in order. -/
theorem importSurface_returns (build : BuildConfig) (fd : Fd) (params : List UInt8) :
    Returns (importSurface build fd params) (SurfaceOk build) := by
  refine (Returns.trivial _).bind fun r _ => ?_
  cases r with
  | none => exact .pure ⟨fun _ => rfl, by simp [NvBufCuda.zeroed]⟩
  | some b =>
      refine (nvbufCudaMap_returns build b).bind fun c hc => .pure ?_
      cases c with
      | none => exact ⟨fun _ => rfl, by simp [NvBufCuda.zeroed]⟩
      | some c =>
          have hmapped := hc c rfl
          exact ⟨hmapped.possible, fun _ => ⟨hmapped.surf, hmapped.resource⟩⟩

/-- There is a place for the surface of every FD. -/
theorem importSurfaces_returns (build : BuildConfig) (psz : ℕ) (s : Impl) (ext : List UInt8) :
    Returns (s.importSurfaces build psz ext) fun s' => ∃ surfaces : List (NvBuf × NvBufCuda),
      (surfaces.length = s.fds.length ∧ ∀ x ∈ surfaces, SurfaceOk build x) ∧
        s' = { s with surfaces := surfaces, devicePtrs := surfaces.map (·.2.devicePtr) } := by
  refine (Returns.mapM s.fds.zipIdx fun x _ => importSurface_returns build x.1 _).bind fun surfaces hs => ?_
  rw [List.length_zipIdx] at hs
  exact .pure ⟨surfaces, hs, rfl⟩

/-- **Importing all buffers** opens what is recorded. -/
theorem importDevice_uses {s : Impl} (hviews : s.views = []) (hsurfaces : s.surfaces = []) :
    Uses (fdsRes s.fds) s.importDevice fun s' => s'.bufferRes + fdsRes s.fds := by
  have hloop := Uses.mapM s.fds fun fd hfd => (importBuffer_uses s.bufferSize fd).borrow (mem_fdsRes hfd)
  refine hloop.bind fun bs => .pure ?_
  simp [bufferRes, hviews, hsurfaces]

/-- **Mapping all buffers** opens what is recorded. -/
theorem mapHost_uses {s : Impl} (haccel : s.accelBufs = []) (hsurfaces : s.surfaces = []) :
    Uses (fdsRes s.fds) s.mapHost fun s' => s'.bufferRes + fdsRes s.fds := by
  have hone : ∀ fd ∈ s.fds, Uses (fdsRes s.fds) (mmap fd s.bufferSize) fun p =>
      viewRes s.bufferSize p + fdsRes s.fds := fun fd hfd =>
    (mmap_uses s.bufferSize (.of_mem (mem_fdsRes hfd))).of_eq rfl fun p => by cases p <;> rfl
  refine (Uses.mapM s.fds hone).bind fun bs => .pure ?_
  simp [bufferRes, haccel, hsurfaces]

/-- **Importing all surfaces** opens what is recorded beside the views. -/
theorem importSurfaces_uses (build : BuildConfig) (psz : ℕ) {s : Impl} (hsurfaces : s.surfaces = [])
    (ext : List UInt8) : Uses (s.bufferRes + fdsRes s.fds) (s.importSurfaces build psz ext)
      fun s' => s'.bufferRes + fdsRes s.fds := by
  have hone : ∀ x ∈ s.fds.zipIdx, Uses (fdsRes s.fds)
      (importSurface build x.1 ((ext.drop (x.2 * psz)).take psz)) fun y =>
        surfaceResources y.1 y.2 + fdsRes s.fds := fun x hx =>
    (importSurface_uses build x.1 _).borrow (mem_fdsRes (List.fst_mem_of_mem_zipIdx hx))
  refine ((Uses.mapM s.fds.zipIdx hone).frame s.bufferRes |>.of_pre_eq (add_comm _ _)).bind fun bs => .pure ?_
  simp only [bufferRes, hsurfaces, List.map_nil, List.sum_nil, add_zero]
  abel

/-- **Attaching the buffers** opens what the subscriber records of them. -/
theorem attach_uses (build : BuildConfig) (psz : ℕ) {s : Impl} (hviews : s.views = []) (haccel : s.accelBufs = [])
    (hsurfaces : s.surfaces = []) (hdr : PoolHandshakeHeader) (ext : List UInt8) :
    Uses (fdsRes s.fds) (s.attach build psz hdr ext) fun s' => s'.bufferRes + fdsRes s.fds := by
  refine .ite (fun _ => importDevice_uses hviews hsurfaces) fun _ => ?_
  refine (mapHost_uses haccel hsurfaces).bind_returns (mapHost_returns s) fun s' hs' => ?_
  obtain ⟨views, -, rfl⟩ := hs'
  refine .ite (fun _ => importSurfaces_uses build psz ?_ ext) fun _ => .pure rfl
  exact hsurfaces

/-- The bundle is one of surfaces that this build can import. -/
def SurfaceBundle (build : BuildConfig) (psz : ℕ) (s : Impl) (hdr : PoolHandshakeHeader) (ext : List UInt8) : Prop :=
  build.jetson = true ∧ hdr.backend = PoolBackend.NvBufSurface.toByte ∧ ext.length = s.fds.length * psz

/-- **What `attach` leaves**: one record for every FD, of a device buffer or of a view, and for surfaces of both. -/
inductive AttachCase (build : BuildConfig) (psz : ℕ) (s : Impl) (hdr : PoolHandshakeHeader) (ext : List UInt8) :
    Impl → Prop
  | device (bufs : List AccelBuffer) (hdev : s.deviceBacked = true) (hlen : bufs.length = s.fds.length)
      (hbufs : ∀ b ∈ bufs, b = .zeroed ∨ b.Covers s.bufferSize) :
      AttachCase build psz s hdr ext { s with accelBufs := bufs, devicePtrs := bufs.map (·.devicePtr) }
  | surfaces (views : List (Option ℕ)) (surfaces : List (NvBuf × NvBufCuda)) (hdev : ¬s.deviceBacked = true)
      (hviews : views.length = s.fds.length) (hbundle : SurfaceBundle build psz s hdr ext)
      (hlen : surfaces.length = s.fds.length) (hsurfaces : ∀ x ∈ surfaces, SurfaceOk build x) :
      AttachCase build psz s hdr ext { s with
        views := views, surfaces := surfaces, devicePtrs := surfaces.map (·.2.devicePtr) }
  | host (views : List (Option ℕ)) (hdev : ¬s.deviceBacked = true) (hviews : views.length = s.fds.length)
      (hbundle : ¬SurfaceBundle build psz s hdr ext) : AttachCase build psz s hdr ext { s with views := views }

/-- **The ways to attach**, as the records show them. -/
theorem attach_returns (build : BuildConfig) (psz : ℕ) (s : Impl) (hdr : PoolHandshakeHeader) (ext : List UInt8) :
    Returns (s.attach build psz hdr ext) (AttachCase build psz s hdr ext) := by
  refine .ite (fun hdev => ?_) fun hdev => ?_
  · refine (importDevice_returns s).mono fun s' hs' => ?_
    obtain ⟨bufs, ⟨hlen, hbufs⟩, rfl⟩ := hs'
    exact .device bufs hdev hlen hbufs
  · refine (mapHost_returns s).bind fun s' hs' => ?_
    obtain ⟨views, hviews, rfl⟩ := hs'
    refine .ite (fun hbundle => ?_) fun hbundle => .pure (.host views hdev hviews hbundle)
    refine (importSurfaces_returns build psz _ ext).mono fun s' hs' => ?_
    obtain ⟨surfaces, ⟨hlen, hsurfaces⟩, rfl⟩ := hs'
    exact .surfaces views surfaces hdev hviews hbundle hlen hsurfaces

/-- Attaching buffers to a subscriber with nothing attached leaves proper records. -/
theorem AttachCase.valid {build : BuildConfig} {psz : ℕ} {s s' : Impl} {hdr : PoolHandshakeHeader}
    {ext : List UInt8} (h : AttachCase build psz s hdr ext s') (hcuda : s.deviceBacked = true → build.cuda = true)
    (haccel : s.accelBufs = []) (hsurfaces : s.surfaces = []) (hptrs : s.devicePtrs = []) : s'.Valid build := by
  -- each case says which of the tables have been filled; the others are empty
  cases h with
  | device bufs hdev hlen hbufs =>
      refine ⟨fun hoff => ?_, fun _ => hsurfaces, hbufs, ?_, ?_⟩
      · exact absurd ((hcuda hdev).symm.trans hoff) (by simp)
      · simp [hsurfaces]
      · simp [hsurfaces]
  | surfaces views surfaces hdev hviews hbundle hlen hok =>
      refine ⟨fun _ => haccel, fun hoff => ?_, ?_, hok, ?_⟩
      · exact absurd (hbundle.1.symm.trans hoff) (by simp)
      · simp [haccel]
      · simp [haccel]
  | host views hdev hviews hbundle =>
      refine ⟨fun _ => haccel, fun _ => hsurfaces, ?_, ?_, ?_⟩
      · simp [haccel]
      · simp [hsurfaces]
      · simp [haccel, hsurfaces, hptrs]

/-- What attaching buffers leaves alone. -/
theorem AttachCase.frame {build : BuildConfig} {psz : ℕ} {s s' : Impl} {hdr : PoolHandshakeHeader}
    {ext : List UInt8} (h : AttachCase build psz s hdr ext s') :
    s'.fds = s.fds ∧ s'.fences = s.fences ∧ s'.sock = s.sock ∧ s'.metadata = s.metadata := by
  cases h <;> exact ⟨rfl, rfl, rfl, rfl⟩

/-! ## The calls of a subscriber -/

/-- A valid record stays valid when the link or the metadata slot changes. -/
theorem Valid.of_eq {build : BuildConfig} {s s' : Impl} (h : s.Valid build) (haccel : s'.accelBufs = s.accelBufs)
    (hsurfaces : s'.surfaces = s.surfaces) (hptrs : s'.devicePtrs = s.devicePtrs)
    (hsize : s'.bufferSize = s.bufferSize) : s'.Valid build := by
  refine ⟨?_, ?_, ?_, ?_, ?_⟩
  · rw [haccel]
    exact h.accel_off
  · rw [hsurfaces]
    exact h.surfaces_off
  · rw [haccel, hsize]
    exact h.accelBufs
  · rw [hsurfaces]
    exact h.surfaces
  · rw [hptrs, haccel, hsurfaces]
    exact h.devicePtrs

/-- **Opening the metadata slot** replaces the mapping of the slot before. -/
theorem openMetadata_uses (s : Impl) (timeoutMs : ℤ) :
    Uses s.resources (s.openMetadata timeoutMs) fun r => r.2.resources := by
  have hrest : s.resources = slotRes s.metadata + (s.bufferRes + fdsRes s.fds + fenceRes s.fences + fdRes s.sock) :=
    add_comm _ _
  rw [hrest]
  refine ((closeMetadata_uses s.metadata).frame _).bind fun _ => ?_
  refine ((createSubscriber_uses timeoutMs).frame _).bind fun m => .pure ?_
  exact add_comm _ _

/-- The FDs of a bundle that is adopted. -/
theorem resources_withBundle (s : Impl) (hdr : PoolHandshakeHeader) (received : List Fd) :
    (s.detached.withBundle hdr received).resources =
      fdsRes received + (fenceRes (clearedFences s.fences) + fdRes s.sock + slotRes s.metadata) := by
  have hnothing : (s.detached.withBundle hdr received).bufferRes = 0 := rfl
  unfold resources
  rw [hnothing]
  show 0 + fdsRes received + fenceRes (clearedFences s.fences) + fdRes s.sock + slotRes s.metadata = _
  abel

/-- **Adopting a bundle** takes its FDs over. -/
theorem adopt_uses {build : BuildConfig} (psz : ℕ) {s : Impl} (hs : s.Valid build) (timeoutMs : ℤ)
    (hdr : PoolHandshakeHeader) (received : List Fd) (ext : List UInt8) :
    Uses (s.resources + fdsRes received) (s.adopt build psz timeoutMs hdr received ext) fun r => r.2.resources := by
  refine ((detach_uses hs).frame (fdsRes received)).bind_returns (detach_returns build s) fun s' hs' => ?_
  subst hs'
  have hbundle := resources_withBundle s hdr received
  -- after `detach` only the socket and the slot are left, and the FDs received come in
  have hpre : fdRes s.sock + slotRes s.metadata + fdsRes received = (s.detached.withBundle hdr received).resources := by
    rw [hbundle, fenceRes_clearedFences, zero_add, add_comm]
  rw [hpre]
  refine .ite (fun _ => .pure rfl) fun _ => ?_
  have hattach := @attach_uses build psz (s.detached.withBundle hdr received) rfl rfl rfl hdr ext
  rw [hbundle]
  -- attaching changes none of what is kept besides the buffers
  refine (hattach.frame _).bind_returns (attach_returns build psz _ hdr ext) fun s₂ hs₂ => ?_
  obtain ⟨hfds, hfences, hsock, hmeta⟩ := hs₂.frame
  refine (openMetadata_uses s₂ timeoutMs).of_pre_eq ?_
  unfold resources
  rw [hfds, hfences, hsock, hmeta]
  show s₂.bufferRes + fdsRes received + (fenceRes (clearedFences s.fences) + fdRes s.sock + slotRes s.metadata) =
    s₂.bufferRes + fdsRes received + fenceRes (clearedFences s.fences) + fdRes s.sock + slotRes s.metadata
  abel

/-- **`wait_handshake`** turns what the subscriber owned, and the FDs it is handed, into what it owns then. -/
theorem waitHandshake_uses {build : BuildConfig} (psz : ℕ) {s : Impl} (hs : s.Valid build) (timeoutMs : ℤ)
    (recv : Except Errno (PoolHandshakeHeader × List Fd × List UInt8)) :
    Uses s.resources (s.waitHandshake build psz timeoutMs recv) fun r => r.2.resources := by
  -- the socket is the part of the state that `connect` works on
  have hconnect : ∀ sock, resources { s with sock := sock } =
      fdRes sock + (s.bufferRes + fdsRes s.fds + fenceRes s.fences + slotRes s.metadata) := by
    intro sock
    show s.bufferRes + fdsRes s.fds + fenceRes s.fences + fdRes sock + slotRes s.metadata = _
    abel
  refine Uses.of_pre_eq ?_ (hconnect s.sock)
  refine ((connect_uses s.sock timeoutMs).frame _).bind fun r => ?_
  cases r with
  | none => exact .pure (hconnect s.sock).symm
  | some sock =>
      show Uses (fdRes (some sock) + _) _ _
      rw [← hconnect (some sock)]
      cases recv with
      | error e => exact .pure rfl
      | ok bundle =>
          obtain ⟨hdr, received, ext⟩ := bundle
          refine (Uses.forM_acquire Resource.fd received _).bind fun _ => .ite (fun _ => ?_) fun _ => ?_
          -- a bundle of another version is closed, one of this version adopted
          · have hclose := Uses.forM_singleton Resource.fd received fun fd _ => close_uses fd 0
            exact (hclose.frame _).bind fun _ => .pure (zero_add _)
          · have hs₁ : Valid build { s with sock := some sock } := hs.of_eq rfl rfl rfl rfl
            exact (adopt_uses psz hs₁ timeoutMs hdr received ext).of_pre_eq (add_comm _ _)

/-- **`wait_handshake`** keeps proper records. -/
theorem waitHandshake_valid {build : BuildConfig} (psz : ℕ) {s : Impl} (hs : s.Valid build) (timeoutMs : ℤ)
    (recv : Except Errno (PoolHandshakeHeader × List Fd × List UInt8)) :
    Returns (s.waitHandshake build psz timeoutMs recv) fun r => r.2.Valid build := by
  refine (Returns.trivial _).bind fun r _ => ?_
  cases r with
  | none => exact .pure hs
  | some sock =>
      have hs₁ : Valid build { s with sock := some sock } := hs.of_eq rfl rfl rfl rfl
      cases recv with
      | error e => exact .pure hs₁
      | ok bundle =>
          obtain ⟨hdr, received, ext⟩ := bundle
          refine (Returns.trivial _).bind fun _ _ => .ite (fun _ => ?_) fun _ => ?_
          · exact (Returns.trivial _).bind fun _ _ => .pure hs₁
          · refine (detach_returns build _).bind fun s' hs' => ?_
            subst hs'
            -- a build without CUDA gives up a device bundle with nothing attached
            refine .ite (fun _ => .pure ?_) fun hbuild => ?_
            · exact ⟨fun _ => rfl, fun _ => rfl, by simp [withBundle, detached], by simp [withBundle, detached], rfl⟩
            · rw [not_and, Bool.not_eq_false] at hbuild
              refine (attach_returns build psz _ hdr ext).bind fun s₂ hs₂ => ?_
              refine (Returns.trivial _).bind fun _ _ => (Returns.trivial _).bind fun m _ => .pure ?_
              exact (hs₂.valid hbuild rfl rfl rfl).of_eq rfl rfl rfl rfl

/-- **`drain_fences`** keeps the fences delivered and closes those they replace. -/
theorem drainFences_uses (s : Impl) (delivered : List (UInt64 × Fd)) :
    Uses s.resources (s.drainFences delivered) resources := by
  induction delivered generalizing s with
  | nil => exact .pure rfl
  | cons x delivered ih =>
      obtain ⟨token, fd⟩ := x
      obtain ⟨rest, hrest⟩ : ∃ rest, ∀ fences, resources { s with fences := fences } = fenceRes fences + rest := by
        refine ⟨s.bufferRes + fdsRes s.fds + fdRes s.sock + slotRes s.metadata, fun fences => ?_⟩
        show s.bufferRes + fdsRes s.fds + fenceRes fences + fdRes s.sock + slotRes s.metadata = _
        abel
      have hstore := (storeFence_uses s.fences token fd).frame rest
      rw [Multiset.cons_add, ← hrest s.fences] at hstore
      refine (Uses.acquire (.fd fd) s.resources).bind fun _ => hstore.bind fun fences => ?_
      rw [← hrest fences]
      exact ih _

/-- Draining fences leaves the rest of the records. -/
theorem drainFences_valid {build : BuildConfig} {s : Impl} (hs : s.Valid build) (delivered : List (UInt64 × Fd)) :
    Returns (s.drainFences delivered) (Valid build) := by
  induction delivered generalizing s with
  | nil => exact .pure hs
  | cons x delivered ih =>
      refine (Returns.trivial _).bind fun _ _ => (Returns.trivial _).bind fun fences _ => ?_
      exact ih (hs.of_eq rfl rfl rfl rfl)

/-- **The destructor** releases everything. -/
theorem destroy_uses {build : BuildConfig} {s : Impl} (hs : s.Valid build) :
    Uses s.resources (s.destroy build) fun _ => 0 := by
  refine (detach_uses hs).bind_returns (detach_returns build s) fun s' hs' => ?_
  subst hs'
  refine ((closeOpt_uses s.sock).frame _).bind fun _ => ?_
  exact (closeMetadata_uses s.metadata).of_pre_eq (zero_add _)

/-- A new subscriber owns nothing. -/
theorem resources_create : Impl.create.resources = 0 := by
  have hfences : fenceRes Impl.create.fences = 0 := by
    simp [fenceRes, Impl.create, OverwriteRing.fill, FenceSlot.blank, fdRes, optRes]
  unfold resources
  rw [hfences]
  rfl

/-- **The memory behind a subscriber's pointers**: every host view is a mapping of the buffer size that the handshake has
told, every device pointer belongs to device memory of at least this size or to a surface's view. -/
structure Backed (s : Impl) (live : Multiset Resource) : Prop where
  views : ∀ p, some p ∈ s.views → .host p s.bufferSize ∈ live
  devicePtrs : ∀ ptr, some ptr ∈ s.devicePtrs →
    (∃ size, s.bufferSize ≤ size ∧ .mapped ptr size ∈ live) ∨
      ∃ surf fd res, .eglImage surf fd ∈ live ∧ .graphics res ∈ live

/-- A part of a sum is in the sum. -/
theorem mem_sum_map {ι : Type} {part : ι → Multiset Resource} {xs : List ι} {x : ι} {r : Resource} (hx : x ∈ xs)
    (hr : r ∈ part x) : r ∈ (xs.map part).sum := by
  induction xs with
  | nil => cases hx
  | cons y ys ih =>
      rw [List.map_cons, List.sum_cons, Multiset.mem_add]
      rcases List.mem_cons.mp hx with rfl | hx
      · exact .inl hr
      · exact .inr (ih hx)

/-- **What a subscriber owns backs its pointers**. -/
theorem Valid.backed {build : BuildConfig} {s : Impl} (hs : s.Valid build) : s.Backed s.bufferRes := by
  refine ⟨fun p hp => ?_, fun ptr hptr => ?_⟩
  · refine Multiset.mem_add.mpr (.inl (Multiset.mem_add.mpr (.inl (mem_sum_map hp ?_))))
    exact Multiset.mem_singleton_self _
  -- a pointer is that of an imported buffer or of a surface
  · rw [hs.devicePtrs, List.mem_append] at hptr
    rcases hptr with hptr | hptr
    · obtain ⟨b, hb, hbptr⟩ := List.mem_map.mp hptr
      rcases hs.accelBufs b hb with rfl | hcovers
      · cases hbptr
      · refine .inl ⟨b.aligned, hcovers.le, Multiset.mem_add.mpr (.inl (Multiset.mem_add.mpr (.inr ?_)))⟩
        refine mem_sum_map hb ?_
        unfold AccelBuffer.resources
        rw [hbptr]
        exact Multiset.mem_cons_self _ _
    · obtain ⟨x, hx, hxptr⟩ := List.mem_map.mp hptr
      obtain ⟨hsurf, hres⟩ := (hs.surfaces x hx).devicePtr (by rw [hxptr]; rfl)
      obtain ⟨surf, hsurf⟩ := Option.isSome_iff_exists.mp hsurf
      obtain ⟨res, hres⟩ := Option.isSome_iff_exists.mp hres
      have hboth : surfaceResources x.1 x.2 = {.graphics res, .eglImage surf x.1.fd} := by
        unfold surfaceResources
        rw [hsurf, hres]
      refine .inr ⟨surf, x.1.fd, res, Multiset.mem_add.mpr (.inr (mem_sum_map hx ?_)),
        Multiset.mem_add.mpr (.inr (mem_sum_map hx ?_))⟩
      · simp [hboth]
      · simp [hboth]

/-- More that is open changes nothing. -/
theorem Backed.mono {s : Impl} {live live' : Multiset Resource} (h : s.Backed live) (hle : live ≤ live') :
    s.Backed live' := by
  refine ⟨fun p hp => Multiset.mem_of_le hle (h.views p hp), fun ptr hptr => ?_⟩
  refine (h.devicePtrs ptr hptr).imp ?_ ?_
  · rintro ⟨size, hsize, hmem⟩
    exact ⟨size, hsize, Multiset.mem_of_le hle hmem⟩
  · rintro ⟨surf, fd, res, hsurf, hres⟩
    exact ⟨surf, fd, res, Multiset.mem_of_le hle hsurf, Multiset.mem_of_le hle hres⟩

end Impl

end Axon.Device
