import Axon.Descriptor
import Axon.Pool
import Axon.Sidecar.Server

/-! # The publisher

`TensorPublisher` owns the sidecar server and the writer of the metadata plane. It works on a pool that
its owner may reallocate at any time, so every function takes the pool as it stands. What the metadata
plane is given to publish is recorded in `published`. -/

namespace Axon

/-- A region of the process's address space that maps a file. -/
structure Mapping where
  base : ℕ
  file : File
  length : UInt64
  deriving DecidableEq

/-- **`TensorPublisher::Impl`**. -/
structure TensorPublisher where
  /-- Bytes per buffer, as the pool had it when the publisher was created. -/
  bufferSize : UInt64
  /-- `publish` calls refused. -/
  rejected : ℕ
  server : SidecarServer
  /-- Everything handed to the metadata channel so far, oldest first. -/
  published : List TensorDescriptor
  /-- Producer-side mmap of each buffer. -/
  hostViews : List (Option Mapping)
  nextIndex : ℕ
  seqno : SeqNo
  poolCached : Bool
  cachedGen : PoolGeneration

/-- What `acquire_descriptor` hands to the caller, who fills in the descriptor. -/
structure AcquiredDescriptor where
  desc : TensorDescriptor
  bufferIndex : ℤ
  hostView : Option Mapping

namespace TensorPublisher

/-- **`cache_pool`**: hand the server the pool bundle, unless it has the one of this generation. -/
def cachePool (p : TensorPublisher) (pool : TensorPool) (force : Bool) : TensorPublisher :=
  if force = false ∧ p.poolCached = true ∧ p.cachedGen = pool.generation then p
  else
    { p with
      server := (p.server.setPool pool.dmaBufFds (.ofNat pool.generation) p.bufferSize
        kWireVersion pool.backend.toByte pool.importParams).2
      poolCached := true
      cachedGen := pool.generation }

/-- Map every buffer; a failed mmap leaves the view null. -/
def mapBuffers (length : UInt64) : List Fd → Sys → List (Option Mapping) × Sys
  | [], sys => ([], sys)
  | fd :: fds, sys =>
      let (r, sys) := sys.ask
      let view : Option Mapping := match r with
        | .ok base => some ⟨base, fd.file, length⟩
        | .error _ => none
      let (views, sys) := mapBuffers length fds sys
      (view :: views, sys)

/-- `map_views`: replace the producer-side mappings. -/
def mapViews (p : TensorPublisher) (pool : TensorPool) (sys : Sys) : TensorPublisher × Sys :=
  let (views, sys) := mapBuffers p.bufferSize pool.dmaBufFds sys
  ({ p with hostViews := views }, sys)

/-- The per-buffer size a new publisher works with: the pool's, or the size of the first buffer's file
when the pool has none. -/
def initialBufferSize (pool : TensorPool) (sys : Sys) : UInt64 × Sys :=
  if pool.bufferSize ≠ 0 then (pool.bufferSize, sys)
  else if pool.dmaBufFds = [] then (0, sys)
  else
    match sys.ask with  -- lseek(SEEK_END)
    | (.error _, sys) => (0, sys)
    | (.ok sz, sys) => (.ofNat sz, sys)

/-- **`create`**. The last two of its system calls stand for the creation of the sidecar's socket and of
the metadata segment. -/
def create (pool : TensorPool) (sys : Sys) : Except Errno TensorPublisher × Sys :=
  let (bufferSize, sys) := initialBufferSize pool sys
  if bufferSize = 0 then (.error .EINVAL, sys)
  else if kMaxHandshakeExt < pool.importParams.length then (.error .E2BIG, sys)
  else
    match sys.ask with
    | (.error e, sys) => (.error e, sys)
    | (.ok _, sys) =>
        match sys.ask with
        | (.error e, sys) => (.error e, sys)
        | (.ok _, sys) =>
            let p : TensorPublisher :=
              { bufferSize := bufferSize
                rejected := 0
                server := .create
                published := []
                hostViews := []
                nextIndex := 0
                seqno := 0
                poolCached := false
                cachedGen := 0 }
            let (p, sys) := p.mapViews pool sys
            (.ok p, sys)

/-- **`handshake_pool`**: accept the consumers that connect and hand each the pool bundle. -/
def handshakePool (p : TensorPublisher) (pool : TensorPool) : Option (ℤ × TensorPublisher) :=
  let p := p.cachePool pool false
  p.server.acceptAndHandshake.map fun r => (r.1, { p with server := r.2 })

/-- **`acquire_descriptor`**: round-robin over the pool. -/
def acquireDescriptor (p : TensorPublisher) (pool : TensorPool) :
    AcquiredDescriptor × TensorPublisher :=
  if pool.dmaBufFds = [] then (⟨default, -1, none⟩, p)
  else
    let idx := p.nextIndex % pool.dmaBufFds.length
    (⟨{ (default : TensorDescriptor) with boHandle := idx, poolGeneration := pool.generation }, idx,
        p.hostViews.getD idx none⟩,
      { p with nextIndex := p.nextIndex + 1 })

/-! ## `publish`, in the order of its effects -/

/-- The check at the head of `publish`: a malformed descriptor, or one that does not fit the buffer, is
counted and refused. -/
def check (p : TensorPublisher) (d : AcquiredDescriptor) : Option Errno :=
  descriptorError d.desc p.bufferSize

/-- The producer-stamped fields of the next frame. -/
def stamp (p : TensorPublisher) (pool : TensorPool) (now : UInt64) (d : AcquiredDescriptor) :
    TensorDescriptor :=
  { d.desc with
    seqno := p.seqno + 1
    poolGeneration := pool.generation
    boHandle := if 0 ≤ d.bufferIndex then d.bufferIndex.toNat else 0
    producerPublishTsNs := now }

/-- Send the frame's fence, when it has one, before the metadata that refers to it. -/
def sendFence (p : TensorPublisher) (desc : TensorDescriptor) (syncFd : Option Fd) :
    Option TensorPublisher :=
  match syncFd with
  | some fd =>
      if desc.syncFenceKind = .SyncFileViaSidecar then
        (p.server.broadcastSyncFence desc.syncFenceToken fd).map fun r => { p with server := r.2 }
      else some p
  | none => some p

/-- Hand the descriptor to the metadata channel. -/
def writeMeta (p : TensorPublisher) (desc : TensorDescriptor) : TensorPublisher :=
  { p with published := p.published ++ [desc] }

/-- Pick up the consumers that have connected meanwhile. -/
def pickUpConsumers (p : TensorPublisher) (pool : TensorPool) : Option TensorPublisher :=
  let p := p.cachePool pool false
  p.server.acceptAndHandshake.map fun r => { p with server := r.2 }

/-- **`publish`**: refuse the frame, or stamp it, send its fence, publish its metadata and pick up new
consumers. The result is `none` when a send has to wait for a consumer. -/
def publish (p : TensorPublisher) (pool : TensorPool) (now : UInt64) (d : AcquiredDescriptor)
    (syncFd : Option Fd) : Option (Except Errno Unit × TensorPublisher) :=
  match p.check d with
  | some e => some (.error e, { p with rejected := p.rejected + 1 })
  | none =>
      let desc := p.stamp pool now d
      let p := { p with seqno := p.seqno + 1 }
      match p.sendFence desc syncFd with
      | none => none
      | some p => ((p.writeMeta desc).pickUpConsumers pool).map fun p => (.ok (), p)

/-- **`reannounce_pool`**: map the pool's new buffers and resend the bundle to every consumer. -/
def reannouncePool (p : TensorPublisher) (pool : TensorPool) (sys : Sys) :
    Option (ℤ × TensorPublisher × Sys) :=
  let (p, sys) := p.mapViews pool sys
  let p := p.cachePool pool true
  match p.server.broadcastPool with
  | none => none
  | some (n, server) =>
      match server.acceptAndHandshake with
      | none => none
      | some (k, server) => some (n + k, { p with server := server }, sys)

/-! ## What the operations do -/

/-- **What `acquire_descriptor` does** on a pool that has buffers: it hands out the next one, and goes on. -/
theorem acquireDescriptor_spec (p : TensorPublisher) {pool : TensorPool}
    (hpool : pool.dmaBufFds ≠ []) :
    (p.acquireDescriptor pool).1.bufferIndex = (p.nextIndex % pool.dmaBufFds.length : ℕ) ∧
      (p.acquireDescriptor pool).1.hostView =
        p.hostViews.getD (p.nextIndex % pool.dmaBufFds.length) none ∧
      (p.acquireDescriptor pool).2 = { p with nextIndex := p.nextIndex + 1 } := by
  rw [acquireDescriptor, if_neg hpool]
  exact ⟨rfl, rfl, rfl⟩

/-- The publisher once `publish` has handed the stamped descriptor over and renewed the cache. -/
def afterPublish (p : TensorPublisher) (pool : TensorPool) (desc : TensorDescriptor) : TensorPublisher :=
  (p.writeMeta desc).cachePool pool false

/-- **The two ways through `publish`**: the frame is refused, or it is stamped, its fence is sent, its
metadata is published and the pending consumers are accepted. -/
theorem publish_cases {p p' : TensorPublisher} {pool : TensorPool} {now : UInt64} {d : AcquiredDescriptor}
    {syncFd : Option Fd} {res : Except Errno Unit} (h : p.publish pool now d syncFd = some (res, p')) :
    (∃ e, p.check d = some e ∧ res = .error e ∧ p' = { p with rejected := p.rejected + 1 }) ∨
    (p.check d = none ∧ res = .ok () ∧ ∃ p₁ r,
      sendFence { p with seqno := p.seqno + 1 } (p.stamp pool now d) syncFd = some p₁ ∧
      (p₁.afterPublish pool (p.stamp pool now d)).server.acceptAndHandshake = some r ∧
      p' = { p₁.afterPublish pool (p.stamp pool now d) with server := r.2 }) := by
  unfold publish at h
  -- refused by the checks, or sent
  split at h
  · rename_i e hcheck
    cases h
    exact .inl ⟨e, hcheck, rfl, rfl⟩
  · rename_i hcheck
    dsimp only at h
    -- a publish that waits in a send does not return
    split at h
    · cases h
    · rename_i p₁ hsend
      obtain ⟨p₂, hpick, heq⟩ := Option.map_eq_some_iff.mp h
      cases heq
      obtain ⟨r, hacc, rfl⟩ := Option.map_eq_some_iff.mp hpick
      exact .inr ⟨hcheck, rfl, p₁, r, hsend, hacc, rfl⟩

/-- The publisher once `reannounce_pool` has mapped the new buffers and renewed the cache. -/
def remapped (p : TensorPublisher) (pool : TensorPool) (sys : Sys) : TensorPublisher :=
  (p.mapViews pool sys).1.cachePool pool true

/-- **What `reannounce_pool` does**: the bundle goes to every client, and then to the pending consumers. -/
theorem reannounce_cases {p : TensorPublisher} {pool : TensorPool} {sys : Sys}
    {r : ℤ × TensorPublisher × Sys} (h : p.reannouncePool pool sys = some r) :
    ∃ rb ra, SidecarServer.sendAll (p.remapped pool sys).server.bundle (p.remapped pool sys).server.clients =
        some rb ∧
      SidecarServer.acceptAndHandshake { (p.remapped pool sys).server with clients := rb.2 } = some ra ∧
      r.2 = ({ p.remapped pool sys with server := ra.2 }, (p.mapViews pool sys).2) := by
  unfold reannouncePool at h
  dsimp only at h
  split at h
  -- the bundle is sent to the old clients before new ones are taken in
  · cases h
  · rename_i k server hb
    obtain ⟨rb, hrb, heq⟩ := Option.map_eq_some_iff.mp hb
    cases heq
    split at h
    · cases h
    · rename_i k' server' hacc
      cases h
      exact ⟨rb, (k', server'), hrb, hacc, rfl⟩

/-! ## What the operations leave alone -/

/-- A new publisher has announced, sent and published nothing. -/
structure Unused (p : TensorPublisher) : Prop where
  server : p.server = .create
  published : p.published = []
  seqno : p.seqno = 0
  rejected : p.rejected = 0
  nextIndex : p.nextIndex = 0
  poolCached : p.poolCached = false

/-- What `create` makes is unused. -/
theorem unused_of_create {pool : TensorPool} {sys sys' : Sys} {p : TensorPublisher}
    (h : create pool sys = (.ok p, sys')) : p.Unused := by
  unfold create at h
  simp only at h
  split_ifs at h
  · cases h
  · cases h
  · split at h
    · cases h
    · split at h
      · cases h
      · cases h
        exact ⟨rfl, rfl, rfl, rfl, rfl, rfl⟩

/-- **The record of the calls of `publish`** is the same: what was accepted, refused and published. -/
structure SameRecord (p p' : TensorPublisher) : Prop where
  seqno : p'.seqno = p.seqno
  rejected : p'.rejected = p.rejected
  published : p'.published = p.published

/-- Caching the bundle is not on record. -/
theorem cachePool_sameRecord (p : TensorPublisher) (pool : TensorPool) (force : Bool) :
    p.SameRecord (p.cachePool pool force) := by
  unfold cachePool
  split_ifs <;> exact ⟨rfl, rfl, rfl⟩

/-- Picking up consumers is not on record. -/
theorem pickUpConsumers_sameRecord {p p' : TensorPublisher} {pool : TensorPool}
    (h : p.pickUpConsumers pool = some p') : p.SameRecord p' := by
  obtain ⟨r, -, rfl⟩ := Option.map_eq_some_iff.mp h
  obtain ⟨hseqno, hrejected, hpublished⟩ := p.cachePool_sameRecord pool false
  exact ⟨hseqno, hrejected, hpublished⟩

/-- Caching the bundle leaves the connections alone. -/
theorem cachePool_conns (p : TensorPublisher) (pool : TensorPool) (force : Bool) :
    (p.cachePool pool force).server.clients = p.server.clients ∧
      (p.cachePool pool force).server.backlog = p.server.backlog := by
  unfold cachePool SidecarServer.setPool
  dsimp only
  split_ifs <;> exact ⟨rfl, rfl⟩

/-- Sending a fence touches nothing but the clients' FIFOs, and there only adds the fence. -/
theorem sendFence_spec {p p' : TensorPublisher} {desc : TensorDescriptor} {syncFd : Option Fd}
    (h : p.sendFence desc syncFd = some p') :
    ∃ clients, p' = { p with server := { p.server with clients := clients } } ∧
      ((clients = p.server.clients ∧ (syncFd = none ∨ desc.syncFenceKind ≠ .SyncFileViaSidecar)) ∨
        ∃ fd n, syncFd = some fd ∧ desc.syncFenceKind = .SyncFileViaSidecar ∧
          SidecarServer.sendAll (SidecarServer.fenceMessage desc.syncFenceToken fd) p.server.clients =
            some (n, clients)) := by
  unfold sendFence at h
  split at h
  -- the fence is sent only if it goes over the sidecar
  · rename_i fd
    split_ifs at h with hkind
    · obtain ⟨⟨n, server⟩, hb, rfl⟩ := Option.map_eq_some_iff.mp h
      obtain ⟨r, hsend, hr⟩ := Option.map_eq_some_iff.mp hb
      cases hr
      exact ⟨r.2, rfl, .inr ⟨fd, r.1, rfl, hkind, hsend⟩⟩
    · cases h
      exact ⟨p.server.clients, rfl, .inl ⟨rfl, .inr hkind⟩⟩
  · cases h
    exact ⟨p.server.clients, rfl, .inl ⟨rfl, .inl rfl⟩⟩

/-- What `publish` accepts has passed its check. -/
theorem check_of_publish_ok {p p' : TensorPublisher} {pool : TensorPool} {now : UInt64}
    {d : AcquiredDescriptor} {syncFd : Option Fd}
    (h : p.publish pool now d syncFd = some (.ok (), p')) : p.check d = none := by
  unfold publish at h
  split at h
  · cases h
  · assumption

/-- Caching the bundle does not go on in the ring. -/
@[simp] theorem cachePool_nextIndex (p : TensorPublisher) (pool : TensorPool)
    (force : Bool) : (p.cachePool pool force).nextIndex = p.nextIndex := by
  unfold cachePool
  split_ifs <;> rfl

/-- What an accepted frame is published as. -/
theorem published_of_publish {p p' : TensorPublisher} {pool : TensorPool} {now : UInt64}
    {d : AcquiredDescriptor} {syncFd : Option Fd}
    (h : p.publish pool now d syncFd = some (.ok (), p')) :
    p'.published = p.published ++ [p.stamp pool now d] := by
  obtain ⟨e, -, hres, -⟩ | ⟨-, -, p₁, r, hsend, -, rfl⟩ := publish_cases h
  · cases hres
  · obtain ⟨clients, rfl, -⟩ := sendFence_spec hsend
    exact (cachePool_sameRecord _ pool false).published

/-- A publish leaves the ring where it stands. -/
theorem nextIndex_of_publish {p p' : TensorPublisher} {pool : TensorPool} {now : UInt64}
    {d : AcquiredDescriptor} {syncFd : Option Fd} {res : Except Errno Unit}
    (h : p.publish pool now d syncFd = some (res, p')) : p'.nextIndex = p.nextIndex := by
  obtain ⟨e, -, -, rfl⟩ | ⟨-, -, p₁, r, hsend, -, rfl⟩ := publish_cases h
  · rfl
  · obtain ⟨clients, rfl, -⟩ := sendFence_spec hsend
    exact cachePool_nextIndex _ pool false

/-- **What has been sent and published stays**, on the way from `p` to `p'`, and the messages added satisfy
`P`. -/
structure Grows (P : Message → Prop) (p p' : TensorPublisher) : Prop where
  server : p.server.Extends P p'.server
  published : p.published <+: p'.published
  backlog : p.server.BacklogSent P → p'.server.BacklogSent P

namespace Grows

variable {P : Message → Prop} {p p' p'' : TensorPublisher} {pool : TensorPool}

/-- Nothing has been sent. -/
theorem refl (p : TensorPublisher) : Grows P p p := ⟨.refl _, List.prefix_rfl, id⟩

/-- What is sent adds up. -/
theorem trans (h : Grows P p p') (h' : Grows P p' p'') : Grows P p p'' :=
  ⟨h.server.trans h'.server, h.published.trans h'.published, h'.backlog ∘ h.backlog⟩

/-- Caching the bundle sends nothing. -/
theorem cachePool (p : TensorPublisher) (pool : TensorPool) (force : Bool) :
    Grows P p (p.cachePool pool force) := by
  obtain ⟨hclients, hbacklog⟩ := p.cachePool_conns pool force
  refine ⟨.of_sentTo fun i => ?_, ?_, fun h c hc => h c (hbacklog ▸ hc)⟩
  · rw [SidecarServer.sentTo, hclients, SidecarServer.sentTo]
  · unfold TensorPublisher.cachePool
    split_ifs <;> exact List.prefix_rfl

/-- **A fence** is sent to the clients. -/
theorem sendFence (hfence : ∀ token fd, P (SidecarServer.fenceMessage token fd))
    {desc : TensorDescriptor} {syncFd : Option Fd} (h : p.sendFence desc syncFd = some p') :
    Grows P p p' := by
  obtain ⟨clients, rfl, ⟨rfl, -⟩ | ⟨fd, n, -, -, hsend⟩⟩ := sendFence_spec h
  · exact .refl p
  · exact ⟨.sendAll (hfence _ _) hsend, List.prefix_rfl, id⟩

section Pool

variable (hpool : ∀ header files ext, P (.pool header files ext))

include hpool

/-- Accepting the pending consumers sends them bundles. -/
theorem accept (hbacklog : p.server.BacklogSent P) {r : ℤ × SidecarServer}
    (h : p.server.acceptAndHandshake = some r) : Grows P p { p with server := r.2 } := by
  exact ⟨.acceptLoop (hpool _ _ _) hbacklog h, List.prefix_rfl,
    fun hb c hc => hb c (SidecarServer.mem_backlog_acceptLoop h hc)⟩

/-- **Consumers picked up** are sent the bundle. -/
theorem pickUpConsumers (hbacklog : p.server.BacklogSent P) (h : p.pickUpConsumers pool = some p') :
    Grows P p p' := by
  obtain ⟨r, hr, rfl⟩ := Option.map_eq_some_iff.mp h
  have hcache : Grows P p (p.cachePool pool false) := cachePool p pool false
  exact hcache.trans (accept hpool (hcache.backlog hbacklog) hr)

/-- **`publish`** sends a fence to the clients and the bundle to new ones. -/
theorem publish (hfence : ∀ token fd, P (SidecarServer.fenceMessage token fd))
    (hbacklog : p.server.BacklogSent P) {now : UInt64} {d : AcquiredDescriptor} {syncFd : Option Fd}
    {res : Except Errno Unit} (h : p.publish pool now d syncFd = some (res, p')) : Grows P p p' := by
  obtain ⟨e, -, -, rfl⟩ | ⟨-, -, p₁, r, hsend, hacc, rfl⟩ := publish_cases h
  · exact ⟨.refl _, List.prefix_rfl, id⟩
  · have h₀ : Grows P p { p with seqno := p.seqno + 1 } := ⟨.refl _, List.prefix_rfl, id⟩
    have h₁ : Grows P { p with seqno := p.seqno + 1 } p₁ := sendFence hfence hsend
    have h₂ : Grows P p₁ (p₁.writeMeta (p.stamp pool now d)) := ⟨.refl _, List.prefix_append _ _, id⟩
    have h₃ : Grows P p (p₁.afterPublish pool (p.stamp pool now d)) :=
      ((h₀.trans h₁).trans h₂).trans (cachePool (p₁.writeMeta (p.stamp pool now d)) pool false)
    exact h₃.trans (accept hpool (h₃.backlog hbacklog) hacc)

/-- **`reannounce_pool`** sends the bundle to all of them. -/
theorem reannounce (hbacklog : p.server.BacklogSent P) {sys : Sys} {r : ℤ × TensorPublisher × Sys}
    (h : p.reannouncePool pool sys = some r) : Grows P p r.2.1 := by
  obtain ⟨rb, ra, hrb, hacc, heq⟩ := reannounce_cases h
  have hviews : Grows P p (p.mapViews pool sys).1 := ⟨.refl _, List.prefix_rfl, id⟩
  have hcache : Grows P p (p.remapped pool sys) := hviews.trans (cachePool (p.mapViews pool sys).1 pool true)
  have hsent : Grows P (p.remapped pool sys)
      { p.remapped pool sys with server := { (p.remapped pool sys).server with clients := rb.2 } } :=
    ⟨.sendAll (hpool _ _ _) hrb, List.prefix_rfl, id⟩
  have hboth := hcache.trans hsent
  rw [heq]
  exact hboth.trans (accept hpool (hboth.backlog hbacklog) hacc)

end Pool

end Grows

end TensorPublisher

end Axon
