import Axon.Foundation.OverwriteRing
import Axon.Publisher
import Axon.Sidecar.Client

/-! # The subscriber

`TensorSubscriber` attaches to a publisher (`wait_handshake`), pulls fences off the sidecar
(`drain_fences`) and hands out views of the newest frame (`latest_view`). What the system answers is a
parameter of each function: which mappings succeed, what has arrived on the socket, what the seqlock read
returned and what the clock says. -/

namespace Axon

open Foundation

/-! ## Views -/

/-- A pointer into a region mapped by the subscriber. -/
structure PayloadPtr where
  region : Mapping
  offset : UInt64
  deriving DecidableEq

/-- What `latest_view` hands to the consumer. -/
structure TensorView where
  /-- Host pointer, null for a device-backed frame. -/
  data : Option PayloadPtr
  devicePtr : Option PayloadPtr
  /-- `accel_handle.size`: bytes per buffer. -/
  accelHandleSize : UInt64
  rank : UInt8
  dims : Vector UInt32 kMaxRank
  dtype : DType
  stalenessNs : UInt64
  seqno : SeqNo
  /-- The frame's fence, borrowed from the fence ring. -/
  syncFd : Option Fd
  seqlockRetries : ℕ
  rowPitch : UInt32
  depthScale : BitVec 32
  invalidValue : UInt32
  sampleUnits : SampleUnits
  captureClock : CaptureClock
  layout : TensorLayout
  captureTsNs : UInt64
  intrFx : BitVec 32
  intrFy : BitVec 32
  intrCx : BitVec 32
  intrCy : BitVec 32
  intrRefWidth : UInt32
  intrRefHeight : UInt32
  deriving DecidableEq

/-- One slot of the fence cache. -/
structure FenceSlot where
  token : UInt64
  fd : Option Fd
  deriving DecidableEq

/-- A slot without a fence. -/
def FenceSlot.blank : FenceSlot := ⟨0, none⟩

/-- Size of the fence cache. -/
abbrev kFenceRing : ℕ := 16

/-- The fence cache, with the fences it has closed. -/
structure FenceCache where
  ring : OverwriteRing FenceSlot kFenceRing
  closed : List Fd

/-- The subscriber's end of the metadata plane. -/
structure MetadataChannel where
  /-- The publisher's slot has the notify fields. -/
  hasNotify : Bool
  deriving DecidableEq

/-- **`TensorSubscriber::Impl`**. -/
structure TensorSubscriber where
  client : SidecarClient
  /-- The metadata plane, once opened. -/
  metadata : Option MetadataChannel
  /-- Received dma-buf FDs. -/
  fds : List Fd
  /-- Host mmap of each FD. -/
  views : List (Option Mapping)
  bufferSize : UInt64
  poolGeneration : UInt32
  deviceBacked : Bool
  /-- Imported device memory of each buffer. -/
  devicePtrs : List (Option Mapping)
  fallback : FallbackPolicy
  /-- Last consistent view, reused by the `LastKnownGood` fallback. -/
  lastGood : Option TensorView
  lastGoodPublishTsNs : UInt64
  handshakeCount : ℕ
  fallbackCount : ℕ
  seenNotify : UInt32
  seenSeqno : SeqNo
  fences : FenceCache
  /-- The base of the next region mapped: regions are told apart by their bases. -/
  nextBase : ℕ
  /-- The regions unmapped so far. -/
  unmapped : List Mapping
  /-- The buffers' FDs closed so far. -/
  closed : List Fd

/-- What the system answers in the course of one `wait_handshake`. -/
structure HandshakeAnswers where
  /-- What has arrived on the new connection when it is read; `none` when `connect` fails. -/
  connect : Option (List Segment)
  /-- The `i`-th buffer can be mapped. -/
  mmap : ℕ → Bool
  /-- Allocation granularity of the device. -/
  granularity : UInt64
  /-- The driver imports the `i`-th buffer. -/
  accelImport : ℕ → Bool
  /-- Bytes of the CUDA view of the `i`-th surface, `none` when it cannot be imported or mapped. -/
  nvbufMap : ℕ → Option UInt64
  nvbufImportParamsSize : ℕ
  /-- The metadata slot, `none` when it does not open in time. -/
  metadata : Option MetadataChannel

/-! ## The fence cache -/

namespace FenceCache

/-- **`store_fence`**: the fence that is overwritten is closed. -/
def storeFence (f : FenceCache) (token : UInt64) (fd : Fd) : FenceCache where
  ring := f.ring.store ⟨token, some fd⟩
  closed := f.closed ++ f.ring.oldest.fd.toList

/-- **`lookup_fence`**: the first slot, in array order, that holds a fence with this token. -/
def lookupFence (f : FenceCache) (token : UInt64) : Option Fd :=
  (f.ring.slots.toList.find? fun slot => slot.fd.isSome && slot.token == token).bind (·.fd)

/-- **`close_fences`**. -/
def closeFences (f : FenceCache) : FenceCache where
  ring := ⟨f.ring.slots.map fun slot => { slot with fd := none }, ⟨0, by decide⟩⟩
  closed := f.closed ++ f.ring.slots.toList.filterMap (·.fd)

end FenceCache

namespace TensorSubscriber

/-- A subscriber that has not shaken hands yet. -/
def create : TensorSubscriber where
  client := .onStream [] 0
  metadata := none
  fds := []
  views := []
  bufferSize := 0
  poolGeneration := 0
  deviceBacked := false
  devicePtrs := []
  fallback := .LastKnownGood
  lastGood := none
  lastGoodPublishTsNs := 0
  handshakeCount := 0
  fallbackCount := 0
  seenNotify := 0
  seenSeqno := 0
  fences := ⟨.fill (by decide) .blank, []⟩
  nextBase := 0
  unmapped := []
  closed := []

/-- Close buffers' FDs. -/
def close (s : TensorSubscriber) (fds : List Fd) : TensorSubscriber := { s with closed := s.closed ++ fds }

/-! ## `wait_handshake` -/

/-- The regions the subscriber has mapped. -/
def mapped (s : TensorSubscriber) : List Mapping :=
  s.views.filterMap id ++ s.devicePtrs.filterMap id

/-- **`detach`**: release the mappings, the buffers' FDs and the fences, and forget the last good
frame. -/
def detach (s : TensorSubscriber) : TensorSubscriber :=
  let unmapped := s.unmapped ++ s.mapped
  let s := s.close s.fds
  { s with
    fences := s.fences.closeFences
    unmapped := unmapped
    lastGood := none
    views := []
    devicePtrs := []
    deviceBacked := false
    fds := [] }

/-- Map every FD whose mapping succeeds: a region of `length i` bytes for the `i`-th one, null for the
others. -/
def mapFds (base : ℕ) (fds : List Fd) (length : ℕ → Option UInt64) : List (Option Mapping) :=
  fds.mapIdx fun i fd => (length i).map fun n => ⟨base + i, fd.file, n⟩

/-- Host backends: `mmap` each buffer. A buffer that cannot be mapped keeps a null view. -/
def mapHost (s : TensorSubscriber) (ans : HandshakeAnswers) : TensorSubscriber :=
  { s with
    views := mapFds s.nextBase s.fds fun i => if ans.mmap i then some s.bufferSize else none
    nextBase := s.nextBase + s.fds.length }

/-- Accelerator: import each buffer. A buffer that cannot be imported keeps a null pointer. -/
def importDevice (s : TensorSubscriber) (ans : HandshakeAnswers) : TensorSubscriber :=
  { s with
    devicePtrs := mapFds s.nextBase s.fds fun i =>
      if s.bufferSize ≠ 0 ∧ alignedSize ans.granularity s.bufferSize ≠ 0 ∧ ans.accelImport i then
        some (alignedSize ans.granularity s.bufferSize)
      else none
    nextBase := s.nextBase + s.fds.length }

/-- NvBufSurface: import each surface with its part of the blob and map it for CUDA. The device view is
optional. -/
def importSurfaces (s : TensorSubscriber) (ext : List UInt8) (ans : HandshakeAnswers) :
    TensorSubscriber :=
  if ext.length = s.fds.length * ans.nvbufImportParamsSize then
    { s with
      devicePtrs := mapFds s.nextBase s.fds ans.nvbufMap
      nextBase := s.nextBase + s.fds.length }
  else s

/-- Attach the buffers of the bundle received. -/
def attach (s : TensorSubscriber) (build : BuildConfig) (hdr : PoolHandshakeHeader)
    (ext : List UInt8) (ans : HandshakeAnswers) : TensorSubscriber :=
  if s.deviceBacked then s.importDevice ans
  else
    let s := s.mapHost ans
    if build.jetson ∧ hdr.backend = PoolBackend.NvBufSurface.toByte then s.importSurfaces ext ans else s

/-- Adopt the bundle: everything that comes before its buffers are mapped. -/
def adopt (s : TensorSubscriber) (hdr : PoolHandshakeHeader) (received : List Fd) : TensorSubscriber :=
  { s.detach with
    fds := received
    bufferSize := hdr.bufferSize
    poolGeneration := hdr.poolGeneration
    deviceBacked := decide (hdr.backend = PoolBackend.Accelerator.toByte) }

/-- Open the metadata plane. -/
def openMetadata (s : TensorSubscriber) (ans : HandshakeAnswers) :
    Except Errno Unit × TensorSubscriber :=
  match ans.metadata with
  | none => (.error .other, { s with metadata := none })
  | some ch => (.ok (), { s with metadata := some ch, handshakeCount := s.handshakeCount + 1 })

/-- Start reading from a new connection. -/
def reconnect (s : TensorSubscriber) (stream : List Segment) : TensorSubscriber :=
  { s with client := { s.client with stream := stream, eof := false, shut := false } }

/-- **`wait_handshake`**: connect, receive the bundle, attach its buffers and open the metadata plane. -/
def waitHandshake (s : TensorSubscriber) (build : BuildConfig) (ans : HandshakeAnswers) :
    Except Errno Unit × TensorSubscriber :=
  match ans.connect with
  | none => (.error .other, s)
  | some stream =>
      have s := s.reconnect stream
      match s.client.recvPoolHandshake with
      | (.error e, client) => (.error e, { s with client := client })
      | (.ok (hdr, received, ext), client) =>
          have s := { s with client := client }
          if hdr.wireVersion ≠ kWireVersion then (.error .EPROTO, s.close received)
          else
            have s := s.adopt hdr received
            if s.deviceBacked = true ∧ build.cuda = false then (.error .ENOTSUP, s)
            else (s.attach build hdr ext ans).openMetadata ans

section

variable {s : TensorSubscriber} {build : BuildConfig} {ans : HandshakeAnswers} {stream : List Segment}
  {hdr : PoolHandshakeHeader} {received : List Fd} {ext : List UInt8} {client : SidecarClient}

/-- Without a bundle the handshake fails. -/
theorem waitHandshake_of_error (hconnect : ans.connect = some stream) {e : Errno}
    (hrecv : (s.reconnect stream).client.recvPoolHandshake = (.error e, client)) :
    s.waitHandshake build ans = (.error e, { s.reconnect stream with client := client }) := by
  unfold waitHandshake
  simp only [hconnect, hrecv]

/-- A bundle of another wire version is refused, and its FDs are closed. -/
theorem waitHandshake_of_ne (hconnect : ans.connect = some stream)
    (hrecv : (s.reconnect stream).client.recvPoolHandshake = (.ok (hdr, received, ext), client))
    (hversion : hdr.wireVersion ≠ kWireVersion) :
    s.waitHandshake build ans =
      (.error .EPROTO, TensorSubscriber.close { s.reconnect stream with client := client } received) := by
  unfold waitHandshake
  simp only [hconnect, hrecv]
  rw [if_pos hversion]

/-- A bundle of this wire version is adopted. -/
theorem waitHandshake_of_eq (hconnect : ans.connect = some stream)
    (hrecv : (s.reconnect stream).client.recvPoolHandshake = (.ok (hdr, received, ext), client))
    (hversion : hdr.wireVersion = kWireVersion) :
    s.waitHandshake build ans =
      let s := adopt { s.reconnect stream with client := client } hdr received
      if s.deviceBacked = true ∧ build.cuda = false then (.error .ENOTSUP, s)
      else (s.attach build hdr ext ans).openMetadata ans := by
  unfold waitHandshake
  simp only [hconnect, hrecv]
  rw [if_neg (not_not.mpr hversion)]

end

/-! ### The parts of `wait_handshake` -/

/-- Receive a bundle on a new connection, and refuse one of another wire version. -/
def receive (s : TensorSubscriber) (stream : List Segment) :
    Except Errno (PoolHandshakeHeader × List Fd × List UInt8) × TensorSubscriber :=
  let s := s.reconnect stream
  match s.client.recvPoolHandshake with
  | (.error e, client) => (.error e, { s with client := client })
  | (.ok (hdr, received, ext), client) =>
      let s := { s with client := client }
      if hdr.wireVersion ≠ kWireVersion then (.error .EPROTO, s.close received)
      else (.ok (hdr, received, ext), s)

/-- Adopt the bundle received and attach its buffers. -/
def mapBuffers (s : TensorSubscriber) (build : BuildConfig) (hdr : PoolHandshakeHeader)
    (received : List Fd) (ext : List UInt8) (ans : HandshakeAnswers) : Except Errno Unit × TensorSubscriber :=
  let s := s.adopt hdr received
  if s.deviceBacked = true ∧ build.cuda = false then (.error .ENOTSUP, s)
  else (.ok (), s.attach build hdr ext ans)

/-- **`wait_handshake` is its parts, one after the other**. -/
theorem waitHandshake_parts (s : TensorSubscriber) (build : BuildConfig) (ans : HandshakeAnswers) :
    s.waitHandshake build ans =
      match ans.connect with
      | none => (.error .other, s)
      | some stream =>
          match s.receive stream with
          | (.error e, s) => (.error e, s)
          | (.ok (hdr, received, ext), s) =>
              match s.mapBuffers build hdr received ext ans with
              | (.error e, s) => (.error e, s)
              | (.ok (), s) => s.openMetadata ans := by
  unfold waitHandshake receive mapBuffers
  -- connect, receive, map and open, each of which may fail
  cases ans.connect with
  | none => rfl
  | some stream =>
      dsimp only
      obtain ⟨r, client⟩ := (s.reconnect stream).client.recvPoolHandshake
      cases r with
      | error e => rfl
      | ok bundle =>
          dsimp only
          split_ifs with hversion hdevice
          · rfl
          · dsimp only
            rw [if_pos hdevice]
          · dsimp only
            rw [if_neg hdevice]

/-! ## `drain_fences` -/

/-- **`drain_fences`**: poll the sidecar without waiting and store what it delivers. The result counts the
fences; `ready` is how often the socket is found readable. -/
def drainFences (s : TensorSubscriber) (ready : ℕ) : ℕ × TensorSubscriber :=
  let r := s.client.pollSyncFences (some FenceCache.storeFence) ready s.fences
  (r.count, { s with client := r.client, fences := r.ctx })

/-! ## `latest_view` -/

/-- The fence a descriptor waits for: whether it is there, and its FD. -/
def fenceOf (s : TensorSubscriber) (desc : TensorDescriptor) : Bool × Option Fd :=
  if desc.syncFenceKind = .SyncFileViaSidecar then
    let fenceFd := s.fences.lookupFence desc.syncFenceToken
    (fenceFd.isSome, fenceFd)
  else (true, none)

/-- How many buffers the index check allows. -/
def nbufs (s : TensorSubscriber) : ℕ :=
  if s.deviceBacked then s.devicePtrs.length else s.views.length

/-- A frame is handed out if it belongs to the attached generation, its fence has been drained and its
buffer index is in range. -/
def Accepts (s : TensorSubscriber) (desc : TensorDescriptor) : Prop :=
  desc.poolGeneration = s.poolGeneration.toNat ∧ (s.fenceOf desc).1 = true ∧ desc.boHandle < s.nbufs

/-- Whether a descriptor is accepted can be read off the attachment. -/
instance (s : TensorSubscriber) (desc : TensorDescriptor) : Decidable (s.Accepts desc) :=
  inferInstanceAs (Decidable (_ ∧ _ ∧ _))

/-- Host mapping of a buffer; a device-backed frame has none. -/
def hostRegion (s : TensorSubscriber) (idx : ℕ) : Option Mapping :=
  if s.deviceBacked then none else s.views.getD idx none

/-- Device mapping of a buffer. -/
def deviceRegion (s : TensorSubscriber) (idx : ℕ) : Option Mapping := s.devicePtrs.getD idx none

/-- The view of a frame. -/
def viewOf (s : TensorSubscriber) (desc : TensorDescriptor) (retries : ℕ) (now : UInt64) : TensorView where
  data := (s.hostRegion desc.boHandle).map (⟨·, desc.offset⟩)
  devicePtr := (s.deviceRegion desc.boHandle).map (⟨·, desc.offset⟩)
  accelHandleSize := s.bufferSize
  rank := desc.rank
  dims := desc.shape
  dtype := desc.dtype
  stalenessNs := now - desc.producerPublishTsNs
  seqno := desc.seqno
  syncFd := (s.fenceOf desc).2
  seqlockRetries := retries
  rowPitch := desc.rowPitch
  depthScale := desc.depthScale
  invalidValue := desc.invalidValue
  sampleUnits := desc.sampleUnits
  captureClock := desc.captureClock
  layout := desc.layout
  captureTsNs := desc.captureTsNs
  intrFx := desc.intrFx
  intrFy := desc.intrFy
  intrCx := desc.intrCx
  intrCy := desc.intrCy
  intrRefWidth := desc.intrRefWidth
  intrRefHeight := desc.intrRefHeight

/-- Remember the frame handed out; the stored copy owns no fence. -/
def remember (s : TensorSubscriber) (desc : TensorDescriptor) (v : TensorView) (notify_now : UInt32) :
    TensorSubscriber :=
  { s with
    lastGood := some { v with syncFd := none }
    lastGoodPublishTsNs := desc.producerPublishTsNs
    seenNotify := notify_now
    seenSeqno := desc.seqno }

/-- The view of the fallback path. -/
def fallbackView (s : TensorSubscriber) (retries : ℕ) (now : UInt64) : Option TensorView :=
  match s.fallback with
  | .LastKnownGood => s.lastGood.map fun v =>
      { v with
        stalenessNs := now - s.lastGoodPublishTsNs
        seqlockRetries := retries }
  | _ => none

/-- The fallback path. -/
def fallBack (s : TensorSubscriber) (retries : ℕ) (now : UInt64) : Option TensorView × TensorSubscriber :=
  (s.fallbackView retries now, { s with fallbackCount := s.fallbackCount + 1 })

/-- Hand out the frame read, or take the fallback path. -/
def handOut (s : TensorSubscriber) (notify_now : UInt32) (read : Option TensorDescriptor)
    (retries : ℕ) (now : UInt64) : Option TensorView × TensorSubscriber :=
  match read with
  | none => s.fallBack retries now
  | some desc =>
      if s.Accepts desc then
        let v := s.viewOf desc retries now
        (some v, s.remember desc v notify_now)
      else s.fallBack retries now

/-- **`latest_view`**: `notify` is the value of the notify word when the call begins, `read` what
`read_latest` returns after `retries` retries, and `now` the clock when the view is made. -/
def latestView (s : TensorSubscriber) (notify : UInt32) (read : Option TensorDescriptor)
    (retries : ℕ) (now : UInt64) : Option TensorView × TensorSubscriber :=
  match s.metadata with
  | none => (none, s)
  | some ch => s.handOut (if ch.hasNotify then notify else 0) read retries now

/-- `set_fallback_policy`. -/
def setFallbackPolicy (s : TensorSubscriber) (p : FallbackPolicy) : TensorSubscriber :=
  { s with fallback := p }

/-! ## What a call of `latest_view` does -/

/-- The three ways through `latest_view`. -/
inductive ViewCase (s : TensorSubscriber) (read : Option TensorDescriptor) (retries : ℕ)
    (now : UInt64) : Option TensorView × TensorSubscriber → Prop
  | detached (h : s.metadata = none) : ViewCase s read retries now (none, s)
  | fresh (hmeta : s.metadata ≠ none) (desc : TensorDescriptor) (hread : read = some desc)
      (hacc : s.Accepts desc) (notify_now : UInt32) : ViewCase s read retries now
        (some (s.viewOf desc retries now), s.remember desc (s.viewOf desc retries now) notify_now)
  | fallback (h : ∀ desc, read = some desc → ¬ s.Accepts desc) :
      ViewCase s read retries now (s.fallBack retries now)

/-- **The ways through `latest_view`.** -/
theorem latestView_cases (s : TensorSubscriber) (notify : UInt32) (read : Option TensorDescriptor)
    (retries : ℕ) (now : UInt64) :
    ViewCase s read retries now (s.latestView notify read retries now) := by
  unfold latestView
  split
  · case h_1 h => exact .detached h
  · rename_i ch hch
    have hmeta : s.metadata ≠ none := by simp [hch]
    generalize (if ch.hasNotify then notify else 0) = notify_now
    -- fresh if a frame was read and passes the checks, else the fallback
    cases read with
    | none => exact .fallback nofun
    | some desc =>
        unfold handOut
        dsimp only
        split_ifs with hacc
        · exact .fresh hmeta desc rfl hacc notify_now
        · refine .fallback fun desc' hread => ?_
          rwa [← Option.some.inj hread]

/-- A frame that is accepted is handed out. -/
theorem latestView_of_accepts {s : TensorSubscriber} {desc : TensorDescriptor}
    (hmeta : s.metadata ≠ none) (hacc : s.Accepts desc) (notify : UInt32) (retries : ℕ) (now : UInt64) :
    ∃ notify_now, s.latestView notify (some desc) retries now =
      (some (s.viewOf desc retries now), s.remember desc (s.viewOf desc retries now) notify_now) := by
  obtain ⟨ch, hch⟩ := Option.ne_none_iff_exists'.mp hmeta
  refine ⟨if ch.hasNotify then notify else 0, ?_⟩
  rw [latestView, hch]
  simp only [handOut, if_pos hacc]

/-- A frame that is not accepted is replaced by the fallback. -/
theorem latestView_of_not_accepts {s : TensorSubscriber} {desc : TensorDescriptor}
    (hmeta : s.metadata ≠ none) (hacc : ¬ s.Accepts desc) (notify : UInt32) (retries : ℕ)
    (now : UInt64) : s.latestView notify (some desc) retries now = s.fallBack retries now := by
  obtain ⟨ch, hch⟩ := Option.ne_none_iff_exists'.mp hmeta
  rw [latestView, hch]
  simp only [handOut, if_neg hacc]

/-- The fallback hands out the last good frame with a new staleness. -/
theorem fallbackView_spec {s : TensorSubscriber} {retries : ℕ} {now : UInt64} {v : TensorView}
    (h : s.fallbackView retries now = some v) : ∃ v₀, s.lastGood = some v₀ ∧ v = { v₀ with
      stalenessNs := now - s.lastGoodPublishTsNs, seqlockRetries := retries } := by
  unfold fallbackView at h
  split at h
  · obtain ⟨v₀, hv₀, rfl⟩ := Option.map_eq_some_iff.mp h
    exact ⟨v₀, hv₀, rfl⟩
  · cases h

/-! ## What a call of `wait_handshake` does -/

/-- A region the subscriber has mapped for buffer `i`. -/
def HasRegion (s : TensorSubscriber) (i : ℕ) (m : Mapping) : Prop :=
  s.views[i]? = some (some m) ∨ s.devicePtrs[i]? = some (some m)

/-- Two subscribers with the same buffers attached. -/
structure SameAttachment (s s' : TensorSubscriber) : Prop where
  fds : s'.fds = s.fds
  views : s'.views = s.views
  devicePtrs : s'.devicePtrs = s.devicePtrs
  bufferSize : s'.bufferSize = s.bufferSize
  poolGeneration : s'.poolGeneration = s.poolGeneration
  deviceBacked : s'.deviceBacked = s.deviceBacked
  nextBase : s'.nextBase = s.nextBase
  unmapped : s'.unmapped = s.unmapped

/-- A region found by the index check is the buffer's. -/
theorem getElem?_of_getD_none {regions : List (Option Mapping)} {i : ℕ} {m : Mapping}
    (h : regions.getD i none = some m) : regions[i]? = some (some m) := by
  rw [List.getD_eq_getElem?_getD] at h
  cases hi : regions[i]? with
  | none => simp [hi] at h
  | some o => simpa [hi] using h

/-- The pointers of a view lie in regions of the frame's buffer, at the frame's offset. -/
theorem viewOf_ptr {s : TensorSubscriber} {desc : TensorDescriptor} {retries : ℕ} {now : UInt64}
    {p : PayloadPtr} (h : (s.viewOf desc retries now).data = some p ∨
      (s.viewOf desc retries now).devicePtr = some p) :
    p.offset = desc.offset ∧ s.HasRegion desc.boHandle p.region := by
  rcases h with h | h
  · obtain ⟨m, hm, rfl⟩ := Option.map_eq_some_iff.mp h
    refine ⟨rfl, .inl ?_⟩
    unfold hostRegion at hm
    split_ifs at hm
    exact getElem?_of_getD_none hm
  · obtain ⟨m, hm, rfl⟩ := Option.map_eq_some_iff.mp h
    exact ⟨rfl, .inr (getElem?_of_getD_none hm)⟩

/-- The same attachment has the same regions. -/
theorem SameAttachment.hasRegion {s s' : TensorSubscriber} (h : s.SameAttachment s') {i : ℕ}
    {m : Mapping} : s'.HasRegion i m ↔ s.HasRegion i m := by
  rw [HasRegion, h.views, h.devicePtrs, HasRegion]

/-- The same attachment has as many buffers. -/
theorem SameAttachment.nbufs {s s' : TensorSubscriber} (h : s.SameAttachment s') : s'.nbufs = s.nbufs := by
  unfold TensorSubscriber.nbufs
  rw [h.deviceBacked, h.devicePtrs, h.views]

/-- Nothing has been attached anew. -/
theorem SameAttachment.refl (s : TensorSubscriber) : s.SameAttachment s :=
  ⟨rfl, rfl, rfl, rfl, rfl, rfl, rfl, rfl⟩

/-- `latest_view` leaves the attachment alone. -/
theorem latestView_sameAttachment (s : TensorSubscriber) (notify : UInt32) (read : Option TensorDescriptor)
    (retries : ℕ) (now : UInt64) : s.SameAttachment (s.latestView notify read retries now).2 ∧
      (s.latestView notify read retries now).2.metadata = s.metadata := by
  have hcase := s.latestView_cases notify read retries now
  generalize s.latestView notify read retries now = r at hcase
  cases hcase <;> exact ⟨⟨rfl, rfl, rfl, rfl, rfl, rfl, rfl, rfl⟩, rfl⟩

/-- **What `wait_handshake` leaves**: the attachment there was, or that of the bundle received with as many
of its buffers mapped as could be. -/
inductive HandshakeCase (s : TensorSubscriber) (build : BuildConfig) (ans : HandshakeAnswers) :
    TensorSubscriber → Prop
  | kept (s' : TensorSubscriber) (h : s.SameAttachment s') (hgood : s'.lastGood = s.lastGood) :
      HandshakeCase s build ans s'
  | adopted (stream : List Segment) (hstream : ans.connect = some stream)
      (hdr : PoolHandshakeHeader) (received : List Fd) (ext : List UInt8) (client : SidecarClient)
      (hrecv : (s.reconnect stream).client.recvPoolHandshake = (.ok (hdr, received, ext), client))
      (s₁ s' : TensorSubscriber) (hs₁ : s₁ = adopt { s.reconnect stream with client := client } hdr received)
      (h : s₁.SameAttachment s' ∨ (s₁.attach build hdr ext ans).SameAttachment s')
      (hgood : s'.lastGood = none) : HandshakeCase s build ans s'

/-- **Opening the slot** leaves the attachment and the last good view. -/
theorem openMetadata_spec (s : TensorSubscriber) (ans : HandshakeAnswers) :
    s.SameAttachment (s.openMetadata ans).2 ∧ (s.openMetadata ans).2.lastGood = s.lastGood := by
  unfold openMetadata
  split <;> exact ⟨⟨rfl, rfl, rfl, rfl, rfl, rfl, rfl, rfl⟩, rfl⟩

/-- Attaching buffers hands out no frame. -/
theorem attach_lastGood (s : TensorSubscriber) (build : BuildConfig) (hdr : PoolHandshakeHeader)
    (ext : List UInt8) (ans : HandshakeAnswers) :
    (s.attach build hdr ext ans).lastGood = s.lastGood := by
  unfold attach
  split_ifs
  · rfl
  · unfold importSurfaces
    dsimp only
    split_ifs <;> rfl
  · rfl

/-- What attaching buffers leaves alone, and how many it attaches. -/
theorem attach_frame (s : TensorSubscriber) (build : BuildConfig) (hdr : PoolHandshakeHeader)
    (ext : List UInt8) (ans : HandshakeAnswers) :
    (s.attach build hdr ext ans).client = s.client ∧ (s.attach build hdr ext ans).fences = s.fences ∧
      (s.attach build hdr ext ans).closed = s.closed ∧ (s.attach build hdr ext ans).fds = s.fds ∧
      (s.attach build hdr ext ans).poolGeneration = s.poolGeneration ∧
      (s.attach build hdr ext ans).nbufs = s.fds.length := by
  unfold attach
  split_ifs with hdev hsurf
  · refine ⟨rfl, rfl, rfl, rfl, rfl, ?_⟩
    simp [nbufs, importDevice, hdev, mapFds]
  · unfold importSurfaces
    dsimp only
    split_ifs <;> exact ⟨rfl, rfl, rfl, rfl, rfl, by simp [nbufs, mapHost, hdev, mapFds]⟩
  · exact ⟨rfl, rfl, rfl, rfl, rfl, by simp [nbufs, mapHost, hdev, mapFds]⟩

/-- Opening the metadata plane concerns no FD. -/
theorem openMetadata_frame (s : TensorSubscriber) (ans : HandshakeAnswers) :
    (s.openMetadata ans).2.client = s.client ∧ (s.openMetadata ans).2.fds = s.fds ∧
      (s.openMetadata ans).2.closed = s.closed := by
  unfold openMetadata
  split <;> exact ⟨rfl, rfl, rfl⟩

/-- `wait_handshake` leaves the client where the handshake on the new connection left it. -/
theorem client_waitHandshake (s : TensorSubscriber) (build : BuildConfig) (ans : HandshakeAnswers)
    {stream : List Segment} (hstream : ans.connect = some stream) :
    (s.waitHandshake build ans).2.client = (s.reconnect stream).client.recvPoolHandshake.2 := by
  unfold waitHandshake
  rw [hstream]
  dsimp only
  -- the client is not touched once the bundle is there
  split
  · rename_i e client heq
    rw [heq]
  · rename_i hdr received ext client heq
    rw [heq]
    dsimp only
    split_ifs
    · rfl
    · rfl
    · rw [(openMetadata_frame _ ans).1, (attach_frame _ build hdr ext ans).1]
      rfl

/-- **The ways through `wait_handshake`.** -/
theorem waitHandshake_cases (s : TensorSubscriber) (build : BuildConfig) (ans : HandshakeAnswers) :
    HandshakeCase s build ans (s.waitHandshake build ans).2 := by
  unfold waitHandshake
  -- kept up to the version check, adopted from there on
  split
  · exact .kept _ ⟨rfl, rfl, rfl, rfl, rfl, rfl, rfl, rfl⟩ rfl
  · rename_i stream hstream
    dsimp only
    split
    · exact .kept _ ⟨rfl, rfl, rfl, rfl, rfl, rfl, rfl, rfl⟩ rfl
    · rename_i hdr received ext client hrecv
      split_ifs
      · exact .kept _ ⟨rfl, rfl, rfl, rfl, rfl, rfl, rfl, rfl⟩ rfl
      · exact .adopted stream hstream hdr received ext client hrecv _ _ rfl
          (.inl ⟨rfl, rfl, rfl, rfl, rfl, rfl, rfl, rfl⟩) rfl
      · obtain ⟨hsame, hgood⟩ := openMetadata_spec
          ((adopt { s.reconnect stream with client := client } hdr received).attach build hdr ext ans) ans
        exact .adopted stream hstream hdr received ext client hrecv _ _ rfl (.inr hsame)
          (hgood.trans (attach_lastGood _ build hdr ext ans))

/-- **A handshake that succeeds** received a bundle, attached its buffers and opened the metadata plane. -/
theorem waitHandshake_ok {s s' : TensorSubscriber} {build : BuildConfig} {ans : HandshakeAnswers}
    (h : s.waitHandshake build ans = (.ok (), s')) :
    ∃ stream hdr received ext client s₁, ans.connect = some stream ∧
      (s.reconnect stream).client.recvPoolHandshake = (.ok (hdr, received, ext), client) ∧
      s₁ = (adopt { s.reconnect stream with client := client } hdr received).attach build hdr ext ans ∧
      s₁.openMetadata ans = (.ok (), s') := by
  unfold waitHandshake at h
  split at h
  -- a call that succeeds has passed all of them
  · cases h
  · rename_i stream hstream
    dsimp only at h
    split at h
    · cases h
    · rename_i hdr received ext client hrecv
      split_ifs at h
      · cases h
      · cases h
      · exact ⟨stream, hdr, received, ext, client, _, hstream, hrecv, rfl, h⟩

/-- A region made by `mapFds` maps the file of its FD, at a base of its own. -/
theorem getElem?_mapFds {base : ℕ} {fds : List Fd} {length : ℕ → Option UInt64} {i : ℕ} {m : Mapping}
    (h : (mapFds base fds length)[i]? = some (some m)) :
    ∃ fd n, fds[i]? = some fd ∧ length i = some n ∧ m = ⟨base + i, fd.file, n⟩ := by
  rw [mapFds, List.getElem?_mapIdx] at h
  obtain ⟨fd, hfd, hm⟩ := Option.map_eq_some_iff.mp h
  obtain ⟨n, hn, rfl⟩ := Option.map_eq_some_iff.mp hm
  exact ⟨fd, n, hfd, hn, rfl⟩

/-- **The buffers attached**: every region maps the file of its FD, over at least the buffer size. Surfaces
decide on the size of their regions themselves. -/
theorem attach_spec {s : TensorSubscriber} (hviews : s.views = []) (hptrs : s.devicePtrs = [])
    (build : BuildConfig) {hdr : PoolHandshakeHeader}
    (hbackend : hdr.backend ≠ PoolBackend.NvBufSurface.toByte) (ext : List UInt8)
    (ans : HandshakeAnswers) :
    (∀ i m, (s.attach build hdr ext ans).HasRegion i m → ∃ fd, s.fds[i]? = some fd ∧
      m.file = fd.file ∧ m.base = s.nextBase + i ∧ s.bufferSize ≤ m.length) ∧
    (s.attach build hdr ext ans).nextBase = s.nextBase + s.fds.length ∧
    (s.attach build hdr ext ans).fds = s.fds ∧
    (s.attach build hdr ext ans).poolGeneration = s.poolGeneration ∧
    (s.attach build hdr ext ans).unmapped = s.unmapped := by
  unfold attach
  -- by backend; the tables that it does not fill stay empty
  split_ifs with hdev hsurf
  · refine ⟨?_, rfl, rfl, rfl, rfl⟩
    rintro i m (h | h)
    · simp [importDevice, hviews] at h
    · obtain ⟨fd, n, hfd, hn, rfl⟩ := getElem?_mapFds h
      split_ifs at hn with hok
      obtain rfl := Option.some.inj hn
      exact ⟨fd, hfd, rfl, rfl, le_alignedSize hok.2.1⟩
  · exact absurd hsurf.2 hbackend
  · refine ⟨?_, rfl, rfl, rfl, rfl⟩
    rintro i m (h | h)
    · obtain ⟨fd, n, hfd, hn, rfl⟩ := getElem?_mapFds h
      split_ifs at hn
      obtain rfl := Option.some.inj hn
      exact ⟨fd, hfd, rfl, rfl, UInt64.le_refl _⟩
    · simp [mapHost, hptrs] at h

/-- **The files attached**: every region maps the file of its FD, whatever the backend. -/
theorem attach_files {s : TensorSubscriber} (hviews : s.views = []) (hptrs : s.devicePtrs = [])
    (build : BuildConfig) (hdr : PoolHandshakeHeader) (ext : List UInt8) (ans : HandshakeAnswers) {i : ℕ}
    {m : Mapping} (h : (s.attach build hdr ext ans).HasRegion i m) :
    ∃ fd, s.fds[i]? = some fd ∧ m.file = fd.file := by
  -- every table is filled over the FDs in their order
  have hfile : ∀ {base : ℕ} {length : ℕ → Option UInt64}, (mapFds base s.fds length)[i]? = some (some m) →
      ∃ fd, s.fds[i]? = some fd ∧ m.file = fd.file := by
    intro base length hm
    obtain ⟨fd, n, hfd, -, rfl⟩ := getElem?_mapFds hm
    exact ⟨fd, hfd, rfl⟩
  unfold attach at h
  split_ifs at h
  · rcases h with h | h
    · simp [importDevice, hviews] at h
    · exact hfile h
  · unfold importSurfaces at h
    dsimp only at h
    split_ifs at h
    · rcases h with h | h
      · exact hfile h
      · exact hfile h
    · rcases h with h | h
      · exact hfile h
      · simp [mapHost, hptrs] at h
  · rcases h with h | h
    · exact hfile h
    · simp [mapHost, hptrs] at h

end TensorSubscriber

/-- A system in which every step of a handshake succeeds, but perhaps some of the mappings. -/
def HandshakeAnswers.obliging (mmap : ℕ → Bool) : HandshakeAnswers where
  connect := none
  mmap := mmap
  granularity := 4096
  accelImport _ := true
  nvbufMap _ := none
  nvbufImportParamsSize := 0
  metadata := some ⟨true⟩

end Axon
