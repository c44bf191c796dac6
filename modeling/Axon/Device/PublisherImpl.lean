import Axon.Descriptor
import Axon.Device.Impl
import Axon.Device.PoolImpl

/-! # The resources of a publisher

`TensorPublisher::Impl` with everything it holds: its mappings of the pool's buffers, the metadata slot, the listening
socket of the sidecar server and the connections of its clients. The server keeps the numbers of the pool's FDs, which
are the pool's: they have to be open whenever a bundle is sent. -/

namespace Axon.Device

open Foundation Prog

/-- An FD that may be -1, in use. -/
def useOpt : Option Fd → Call Unit
  | some fd => useFd fd
  | none => return ()

/-! ## `SidecarServer` -/

/-- **`SidecarServer::Impl`**. -/
structure Server where
  listenFd : Fd
  clients : List Fd
  /-- The cached bundle. -/
  poolFds : List (Option Fd)
  ext : List ℕ

namespace Server

/-- `SidecarServer::create`. -/
def create : Call (Option Server) := do
  match ← opening fun n => .fd (newFd n 0) with
  | none => return none
  | some n =>
      -- bind and listen
      if ← allSucceed 2 then return some ⟨newFd n 0, [], [], []⟩
      else
        close (newFd n 0)
        return none

/-- `send_pool_to`: the header with the FDs, which must not be too many for one message, then the blob. -/
def sendPoolTo (s : Server) (client : Fd) : Call Bool := do
  if kMaxSidecarFds < s.poolFds.length then return false
  else
    access (.fd client)
    s.poolFds.forM useOpt
    if ← succeeds then
      if s.ext = [] then return true else succeeds
    else return false

/-- **`accept_and_handshake`**, with so many connections pending. A client that cannot be sent the bundle ends it. -/
def acceptAndHandshake : ℕ → Server → Call Server
  | 0, s => return s
  | pending + 1, s => do
      access (.fd s.listenFd)
      match ← opening fun n => .fd (newFd n 0) with
      | none => return s
      | some n =>
          if ← s.sendPoolTo (newFd n 0) then
            acceptAndHandshake pending { s with clients := s.clients ++ [newFd n 0] }
          else
            close (newFd n 0)
            return s

/-- `broadcast_pool`. -/
def broadcastPool (s : Server) : Call Unit :=
  s.clients.forM fun client => do
    let _ ← s.sendPoolTo client

/-- `broadcast_sync_fence`, of an FD of the caller's. -/
def broadcastSyncFence (s : Server) : Call Unit :=
  s.clients.forM fun client => do
    access (.fd client)
    let _ ← succeeds

/-- `~SidecarServer`. -/
def destroy (s : Server) : Call Unit := do
  s.clients.forM close
  close s.listenFd

end Server

/-- `SeqlockMetadataChannel::create_publisher`: a new slot. -/
def createPublisher : Call (Option SlotMapping) := do
  match ← opening fun n => .fd (socketFd n) with
  | none => return none
  | some n =>
      -- ftruncate
      if ← succeeds then
        let p ← mmap (socketFd n) (.ofNat MetadataSlot.size)
        close (socketFd n)
        match p with
        | none => return none
        | some slot => return some ⟨slot, .ofNat MetadataSlot.size⟩
      else
        close (socketFd n)
        return none

/-! ## `TensorPublisher` -/

/-- **`TensorPublisher::Impl`**. -/
structure PublisherImpl where
  bufferSize : UInt64
  server : Server
  metadata : SlotMapping
  /-- Producer-side mmap of each buffer. -/
  hostViews : List (Option ℕ)
  /-- `pool_cached` and `cached_gen`. -/
  cachedGen : Option ℕ

namespace PublisherImpl

/-- **`cache_pool`**: hand the server the pool bundle, unless it has the one of this generation. -/
def cachePool (psz : ℕ) (p : PublisherImpl) (pool : PoolImpl) (force : Bool) : PublisherImpl :=
  if force = false ∧ p.cachedGen = some pool.gen then p
  else
    { p with
      server := { p.server with
        poolFds := pool.shareFds
        ext := if pool.importBlob.length * psz ≤ kMaxHandshakeExt then pool.importBlob else [] }
      cachedGen := some pool.gen }

/-- Map one buffer. -/
def mapFd (bufferSize : UInt64) : Option Fd → Call (Option ℕ)
  | some fd => mmap fd bufferSize
  | none => return none

/-- **`map_views`**: replace the mappings. -/
def mapViews (p : PublisherImpl) (pool : PoolImpl) : Call PublisherImpl := do
  p.hostViews.forM (Impl.unmapView p.bufferSize)
  let hostViews ← pool.shareFds.mapM (mapFd p.bufferSize)
  return { p with hostViews := hostViews }

/-- The pool's buffer size, or what `lseek` says of its first FD. -/
def initialBufferSize (pool : PoolImpl) : Call UInt64 := do
  if pool.bufferSize ≠ 0 then return pool.bufferSize
  else
    match pool.shareFds.head? with
    | none => return 0
    | some fd =>
        useOpt fd
        return .ofNat ((← ask).getD 0)

/-- Code for what may not be there. -/
def ifSome {α : Type} (o : Option α) (f : α → Call Unit) : Call Unit :=
  match o with
  | some a => f a
  | none => return ()

/-- **`TensorPublisher::create`**: server and slot are made before either is looked at. -/
def create (psz : ℕ) (pool : PoolImpl) : Call (Option PublisherImpl) := do
  let bufferSize ← initialBufferSize pool
  if bufferSize = 0 then return none
  else if kMaxHandshakeExt < pool.importBlob.length * psz then return none
  else
    let server ← Server.create
    let metadata ← createPublisher
    match server, metadata with
    | some server, some metadata => return some (← mapViews ⟨bufferSize, server, metadata, [], none⟩ pool)
    | server, metadata =>
        ifSome server Server.destroy
        closeMetadata metadata
        return none

/-- **`handshake_pool`**. -/
def handshakePool (psz : ℕ) (p : PublisherImpl) (pool : PoolImpl) (pending : ℕ) : Call PublisherImpl := do
  let server ← (p.cachePool psz pool false).server.acceptAndHandshake pending
  return { p.cachePool psz pool false with server := server }

/-- Send the frame's fence, when it has one. -/
def sendFence (p : PublisherImpl) (desc : TensorDescriptor) (fence : Bool) : Call Unit :=
  if fence = true ∧ desc.syncFenceKind = .SyncFileViaSidecar then p.server.broadcastSyncFence else return ()

/-- **`publish`**: a frame that is not refused is announced, with its fence before it, and then the consumers that
have connected meanwhile are picked up. -/
def publish (psz : ℕ) (p : PublisherImpl) (pool : PoolImpl) (desc : TensorDescriptor) (fence : Bool) (pending : ℕ) :
    Call PublisherImpl := do
  if (descriptorError desc p.bufferSize).isSome then return p
  else
    p.sendFence desc fence
    access (.host p.metadata.slot p.metadata.mapLen)
    p.handshakePool psz pool pending

/-- **`reannounce_pool`**. -/
def reannouncePool (psz : ℕ) (p : PublisherImpl) (pool : PoolImpl) (pending : ℕ) : Call PublisherImpl := do
  let p ← p.mapViews pool
  (p.cachePool psz pool true).server.broadcastPool
  let server ← (p.cachePool psz pool true).server.acceptAndHandshake pending
  return { p.cachePool psz pool true with server := server }

/-- `~TensorPublisher`. -/
def destroy (p : PublisherImpl) : Call Unit := do
  p.hostViews.forM (Impl.unmapView p.bufferSize)
  p.server.destroy
  munmap p.metadata.slot p.metadata.mapLen

end PublisherImpl

end Axon.Device
