import Axon.PoolFds

/-! # The cached bundle

The server sends the bundle it has cached, and `cache_pool` renews it only when the pool's generation has
moved. `Producer.transmitter` is the server as it is when an operation comes to send bundles; by
`transmits_of_step` no other bundles are sent. `cached_bundle_current` shows that what it has cached is what
the pool has, so that renewing it every time would send the same. -/

namespace Axon

open Foundation

namespace SidecarServer

/-- Two servers with the same bundle cached. -/
structure SameBundle (s s' : SidecarServer) : Prop where
  poolFds : s'.poolFds = s.poolFds
  header : s'.header = s.header
  ext : s'.ext = s.ext

namespace SameBundle

variable {s s' s'' : SidecarServer}

/-- A server announces the bundle that it announces. -/
theorem refl (s : SidecarServer) : s.SameBundle s := ⟨rfl, rfl, rfl⟩

/-- Announcing the same bundle is symmetric. -/
theorem symm (h : s.SameBundle s') : s'.SameBundle s := ⟨h.poolFds.symm, h.header.symm, h.ext.symm⟩

/-- Announcing the same bundle is transitive. -/
theorem trans (h : s.SameBundle s') (h' : s'.SameBundle s'') : s.SameBundle s'' :=
  ⟨h'.poolFds.trans h.poolFds, h'.header.trans h.header, h'.ext.trans h.ext⟩

end SameBundle

/-- What is cached does not depend on what was. -/
theorem sameBundle_setPool (s s' : SidecarServer) (fds : List Fd) (poolGeneration : UInt32)
    (bufferSize : UInt64) (wireVersion : UInt32) (backend : UInt8) (ext : List UInt8) :
    (s.setPool fds poolGeneration bufferSize wireVersion backend ext).2.SameBundle
      (s'.setPool fds poolGeneration bufferSize wireVersion backend ext).2 := by
  unfold setPool
  dsimp only
  split_ifs <;> exact ⟨rfl, rfl, rfl⟩

/-- Accepting consumers leaves the bundle alone. -/
theorem acceptLoop_sameBundle {s : SidecarServer} {k : ℕ} {pending : List (Except Errno Conn)}
    {r : ℤ × SidecarServer} (h : s.acceptLoop k pending = some r) : s.SameBundle r.2 := by
  obtain ⟨hheader, hfds, hext, -⟩ := acceptLoop_spec (P := fun _ => True) (fun _ => trivial)
    (fun _ _ _ _ => trivial) (fun _ _ _ _ => trivial) h
  exact ⟨hfds, hheader, hext⟩

end SidecarServer

namespace TensorPublisher

/-- The bundle that `cache_pool` makes of a pool, in a server of its own. -/
def bundleOf (bufferSize : UInt64) (pool : TensorPool) : SidecarServer :=
  (SidecarServer.create.setPool pool.dmaBufFds (.ofNat pool.generation) bufferSize kWireVersion
    pool.backend.toByte pool.importParams).2

/-- The bundle has the pool's FDs, generation, backend and, when they fit, its import parameters. -/
theorem bundleOf_spec (bufferSize : UInt64) (pool : TensorPool)
    (h : pool.importParams.length ≤ kMaxHandshakeExt) :
    (bundleOf bufferSize pool).poolFds = pool.dmaBufFds ∧
      (bundleOf bufferSize pool).header.poolGeneration = .ofNat pool.generation ∧
      (bundleOf bufferSize pool).header.backend = pool.backend.toByte ∧
      (bundleOf bufferSize pool).ext = pool.importParams := by
  unfold bundleOf SidecarServer.setPool
  dsimp only
  split_ifs with hext
  · exact ⟨rfl, rfl, rfl, rfl⟩
  · have hempty : pool.importParams = [] := by
      rw [← List.length_eq_zero_iff]
      omega
    exact ⟨rfl, rfl, rfl, hempty.symm⟩

/-- The publisher's server has the bundle of the pool as it stands. -/
def Caches (p : TensorPublisher) (pool : TensorPool) : Prop :=
  (bundleOf p.bufferSize pool).SameBundle p.server

/-- **The cache is current**: what is marked with the pool's generation is the pool's bundle, and no mark is
ahead of the pool. -/
structure CacheCurrent (p : TensorPublisher) (pool : TensorPool) : Prop where
  gen_le : p.poolCached = true → p.cachedGen ≤ pool.generation
  caches : p.poolCached = true → p.cachedGen = pool.generation → p.Caches pool

/-- Two publishers with the same cache. -/
structure SameCache (p p' : TensorPublisher) : Prop where
  bufferSize : p'.bufferSize = p.bufferSize
  poolCached : p'.poolCached = p.poolCached
  cachedGen : p'.cachedGen = p.cachedGen
  bundle : p.server.SameBundle p'.server

variable {p p' p'' : TensorPublisher} {pool : TensorPool}

/-- Caches that stay the same, one step after the other. -/
theorem SameCache.trans (h : p.SameCache p') (h' : p'.SameCache p'') : p.SameCache p'' :=
  ⟨h'.bufferSize.trans h.bufferSize, h'.poolCached.trans h.poolCached,
    h'.cachedGen.trans h.cachedGen, h.bundle.trans h'.bundle⟩

/-- Sending a fence leaves the cache. -/
theorem sendFence_sameCache {desc : TensorDescriptor} {syncFd : Option Fd}
    (h : p.sendFence desc syncFd = some p') : p.SameCache p' := by
  obtain ⟨clients, rfl, -⟩ := sendFence_spec h
  exact ⟨rfl, rfl, rfl, ⟨rfl, rfl, rfl⟩⟩

/-- Accepting consumers leaves the cache alone. -/
theorem accept_sameCache {r : ℤ × SidecarServer} (h : p.server.acceptAndHandshake = some r) :
    p.SameCache { p with server := r.2 } :=
  ⟨rfl, rfl, rfl, SidecarServer.acceptLoop_sameBundle h⟩

namespace CacheCurrent

/-- A cache that stays the same stays current. -/
theorem congr (h : p.CacheCurrent pool) (hsame : p.SameCache p') : p'.CacheCurrent pool := by
  refine ⟨fun hc => ?_, fun hc hgen => ?_⟩
  · rw [hsame.cachedGen]
    exact h.gen_le (hsame.poolCached ▸ hc)
  · rw [hsame.cachedGen] at hgen
    rw [hsame.poolCached] at hc
    unfold Caches
    rw [hsame.bufferSize]
    exact (h.caches hc hgen).trans hsame.bundle

/-- **`cache_pool` leaves the pool's bundle in the cache**, whether it renews it or not. -/
theorem cachePool (h : p.CacheCurrent pool) (force : Bool) :
    (p.cachePool pool force).CacheCurrent pool ∧ (p.cachePool pool force).Caches pool ∧
      (p.cachePool pool force).bufferSize = p.bufferSize := by
  unfold TensorPublisher.cachePool
  split_ifs with hskip
  · exact ⟨h, h.caches hskip.2.1 hskip.2.2, rfl⟩
  · have hcaches := SidecarServer.sameBundle_setPool SidecarServer.create p.server pool.dmaBufFds
      (.ofNat pool.generation) p.bufferSize kWireVersion pool.backend.toByte pool.importParams
    exact ⟨⟨fun _ => le_rfl, fun _ _ => hcaches⟩, hcaches, rfl⟩

/-- **Renewing the bundle when it is current changes nothing that is sent.** -/
theorem skip_eq_force (h : p.CacheCurrent pool) :
    (p.cachePool pool true).server.SameBundle (p.cachePool pool false).server := by
  obtain ⟨-, hforced, hsize⟩ := h.cachePool true
  obtain ⟨-, hskipped, hsize'⟩ := h.cachePool false
  unfold Caches at hforced hskipped
  rw [hsize] at hforced
  rw [hsize'] at hskipped
  exact hforced.symm.trans hskipped

end CacheCurrent

/-- A publisher that has cached nothing has no stale bundle. -/
theorem Unused.cacheCurrent {p : TensorPublisher} (h : p.Unused) (pool : TensorPool) : p.CacheCurrent pool := by
  refine ⟨?_, ?_⟩ <;> rw [h.poolCached] <;> exact nofun

end TensorPublisher

/-! ## The import parameters -/

namespace TensorPool

/-- As many bytes for every surface. -/
theorem nvbufImportBlob_length {size : ℕ} {bs : List PoolBuffer} {s : Sys}
    (hsize : ∀ surf, (s.mapParams surf).length = size) {blob : List UInt8}
    (h : (nvbufImportBlob bs s).1 = some blob) : blob.length = bs.length * size := by
  induction bs generalizing s blob with
  | nil =>
      cases h
      exact (Nat.zero_mul size).symm
  | cons b bs ih =>
      unfold nvbufImportBlob at h
      split at h
      · cases h
      · rename_i n sys heq
        obtain rfl := Sys.of_ask_eq heq
        split at h
        · cases h
        · rename_i blob' sys' heq'
          cases h
          -- reading the other surfaces leaves the parameters' size as it is
          have hparams : sys'.mapParams = s.mapParams := by
            have := (nvbufImportBlob_later bs s.ask.2).mapParams
            rw [heq'] at this
            exact this
          rw [List.length_append, hparams, hsize, ih (s := s.ask.2) hsize (congrArg Prod.fst heq'),
            List.length_cons, Nat.succ_mul, Nat.add_comm]

/-- The backends other than NvBufSurface leave the blob empty. -/
theorem allocateBackend_blob_other {p : TensorPool} (hblob : p.importBlob = [])
    (hne : p.cfg.backend ≠ .NvBufSurface) (s : Sys) : (p.allocateBackend s).2.1.importBlob = [] := by
  unfold allocateBackend
  -- no other backend writes the blob
  split
  · exact hblob
  · unfold allocateUdmabuf
    split <;> exact hblob
  · unfold allocateV4l2
    split_ifs
    · exact hblob
    · split
      · exact hblob
      · dsimp only
        split
        · exact hblob
        · split_ifs <;> exact hblob
  · unfold allocateAccelerator
    split_ifs <;> exact hblob
  · exact absurd ‹_› hne

/-- An NvBufSurface pool has one record of parameters for each surface. -/
theorem allocateBackend_blob_surfaces {p : TensorPool} {s : Sys} (hs : s.Sound) (hbuffers : p.buffers = [])
    {size : ℕ} (hsize : ∀ surf, (s.mapParams surf).length = size) (hb : p.cfg.backend = .NvBufSurface)
    (hok : (p.allocateBackend s).1 = true) :
    (p.allocateBackend s).2.1.importBlob.length = p.cfg.nBuffers * size := by
  -- the pool was empty, so its buffers are those of the loop
  obtain ⟨hlater, new, hnew, -, hlen⟩ :=
    allocLoop_spec allocNvbufsurface_sound p.cfg.nBuffers p.buffers 0 s hs
  rw [hbuffers, List.nil_append] at hnew
  rw [hbuffers] at hlater hlen
  unfold allocateBackend at hok ⊢
  simp only [hb, allocateNvbufsurface, hbuffers] at hok ⊢
  split_ifs at hok ⊢
  · split at hok
    · cases hok
    · rename_i bs maxSize sys heq
      rw [heq] at hnew hlen hlater
      obtain rfl : bs = new := hnew
      split at hok
      · cases hok
      -- the blob has the parameters of all of them
      · rename_i blob sys' heq'
        have hblob := nvbufImportBlob_length (s := sys) (fun surf => by rw [hlater.mapParams, hsize])
          (congrArg Prod.fst heq')
        rw [hlen rfl] at hblob
        exact hblob

/-- **The blob of a pool** has as many bytes as its surfaces have parameters; a pool of another backend, or
one whose allocation failed, has none. -/
theorem allocate_blob {p : TensorPool} {s : Sys} (hs : s.Sound) (hbuffers : p.buffers = [])
    (hblob : p.importBlob = []) {size : ℕ} (hsize : ∀ surf, (s.mapParams surf).length = size) :
    ((p.allocate s).2.1.importBlob = [] ∨ p.cfg.backend = .NvBufSurface ∧
      (p.allocate s).2.1.importBlob.length = p.cfg.nBuffers * size) ∧
    ((p.allocate s).1 = true → p.cfg.backend = .NvBufSurface →
      (p.allocate s).2.1.importBlob.length = p.cfg.nBuffers * size) := by
  have hsurfaces := allocateBackend_blob_surfaces hs hbuffers hsize
  have hother := fun hne => allocateBackend_blob_other hblob hne s
  unfold allocate
  split
  · -- `free_all` drops the blob
    exact ⟨.inl rfl, nofun⟩
  · rename_i q sys heq
    rw [heq] at hother hsurfaces
    refine ⟨?_, fun _ hb => hsurfaces hb rfl⟩
    by_cases hb : p.cfg.backend = .NvBufSurface
    · exact .inr ⟨hb, hsurfaces hb rfl⟩
    · exact .inl (hother hb)

/-- **The import parameters fit the handshake's extension**, now and after every reallocation. -/
structure BlobFits (p : TensorPool) (s : Sys) (size : ℕ) : Prop where
  size_eq : ∀ surf, (s.mapParams surf).length = size
  fits : p.cfg.backend = .NvBufSurface → p.cfg.nBuffers * size ≤ kMaxHandshakeExt
  blob : p.importParams = [] ∨
    p.cfg.backend = .NvBufSurface ∧ p.importParams.length = p.cfg.nBuffers * size

/-- A blob that fits is short enough to be carried. -/
theorem BlobFits.le {p : TensorPool} {s : Sys} {size : ℕ} (h : p.BlobFits s size) :
    p.importParams.length ≤ kMaxHandshakeExt := by
  rcases h.blob with hnil | ⟨hb, hlen⟩
  · rw [hnil]
    exact Nat.zero_le _
  · rw [hlen]
    exact h.fits hb

/-- It fits in every later state. -/
theorem BlobFits.later {p : TensorPool} {s s' : Sys} {size : ℕ} (h : p.BlobFits s size)
    (h' : s.Later s') : p.BlobFits s' size :=
  ⟨fun surf => by rw [h'.mapParams, h.size_eq], h.fits, h.blob⟩

/-- **A reallocation** leaves a blob that fits. -/
theorem BlobFits.retireAndReallocate {p : TensorPool} {s : Sys} {size : ℕ} (h : p.BlobFits s size)
    (hholds : p.Holds s) (n : UInt64) :
    (p.retireAndReallocate n s).1.BlobFits (p.retireAndReallocate n s).2 size := by
  obtain ⟨hnext, hparams, -⟩ := p.freeAll_spec s
  have hsound := freeAll_sound hholds
  have hsize : ∀ surf, ((p.freeAll s).2.mapParams surf).length = size := fun surf => by
    rw [hparams, h.size_eq]
  obtain ⟨hlater, -⟩ := retireAndReallocate_spec hholds n
  have hcfg : (p.retireAndReallocate n s).1.cfg = p.cfg := (p.sameConfig_retireAndReallocate n s).cfg
  -- backend and number of buffers are those of the configuration, which is kept
  refine ⟨fun surf => ?_, ?_, ?_⟩
  · rw [hlater.mapParams]
    exact hsize surf
  · rw [hcfg]
    exact h.fits
  · rw [hcfg]
    exact (allocate_blob (p := p.retired n s) hsound rfl rfl hsize).1

/-- The blob of a new pool. -/
theorem create_blob {build : BuildConfig} {cfg : TensorPoolConfig} {s s' : Sys} {p : TensorPool}
    (hs : s.Sound) {size : ℕ} (hsize : ∀ surf, (s.mapParams surf).length = size)
    (h : create build cfg s = (some p, s')) :
    (∀ surf, (s'.mapParams surf).length = size) ∧
    (p.importParams = [] ∨ p.cfg.backend = .NvBufSurface ∧ p.importParams.length = p.cfg.nBuffers * size) ∧
    (p.cfg.backend = .NvBufSurface → p.importParams.length = p.cfg.nBuffers * size) := by
  obtain ⟨-, heq⟩ := allocate_of_create h
  obtain ⟨hlater, -⟩ := allocate_spec (p := unallocated build cfg s) hs rfl rfl
  have hsame := sameConfig_allocate (unallocated build cfg s) s
  obtain ⟨hblob, hfull⟩ := allocate_blob (p := unallocated build cfg s) hs rfl rfl hsize
  rw [heq] at hlater hsame hblob hfull
  -- creating keeps the configuration
  have hcfg : p.cfg = cfg := hsame.cfg
  refine ⟨fun surf => ?_, ?_, ?_⟩
  · rw [hlater.mapParams]
    exact hsize surf
  · rw [hcfg]
    exact hblob
  · rw [hcfg]
    exact hfull rfl

end TensorPool

/-- A publisher is created only on a pool whose blob fits the handshake's extension. -/
theorem TensorPublisher.blob_le_of_create {pool : TensorPool} {s s' : Sys} {p : TensorPublisher}
    (h : create pool s = (.ok p, s')) : pool.importParams.length ≤ kMaxHandshakeExt := by
  unfold create at h
  dsimp only at h
  split_ifs at h with hzero hbig
  · cases h
  · cases h
  · exact not_lt.mp hbig

namespace Producer

/-- The server as it is when the operation comes to send bundles. -/
def transmitter (s : Producer) : ProducerEv → Option SidecarServer
  | .handshake => some (s.pub.cachePool s.pool false).server
  | .publish now d syncFd =>
      match s.pub.check d with
      | some _ => none
      | none =>
          (TensorPublisher.sendFence { s.pub with seqno := s.pub.seqno + 1 } (s.pub.stamp s.pool now d)
            syncFd).map fun p => (p.afterPublish s.pool (s.pub.stamp s.pool now d)).server
  | .reannounce => some (s.pub.remapped s.pool s.sys).server
  | _ => none

/-- The messages that the operation may send: fences, and the bundle of its transmitter. -/
def MaySend (s : Producer) (e : ProducerEv) (m : Message) : Prop :=
  (∃ header file, m = .fence header file) ∨ ∃ srv, s.transmitter e = some srv ∧ m = srv.bundle

/-- Caching a bundle sends nothing. -/
theorem extends_cachePool (P : Message → Prop) (p : TensorPublisher) (pool : TensorPool) (force : Bool) :
    p.server.Extends P (p.cachePool pool force).server :=
  .of_sentTo fun i => by
    rw [SidecarServer.sentTo, (p.cachePool_conns pool force).1, SidecarServer.sentTo]

/-- Accepting consumers sends them the bundle cached. -/
theorem extends_accept {s : Producer} {e : ProducerEv}
    (hbacklog : ∀ c, .ok c ∈ s.pub.server.backlog → c.sent = []) (srv : SidecarServer)
    (hsame : srv.backlog = s.pub.server.backlog) (hbundle : s.MaySend e srv.bundle) {r : ℤ × SidecarServer}
    (h : srv.acceptAndHandshake = some r) : srv.Extends (s.MaySend e) r.2 := by
  refine .acceptLoop hbundle (fun c hc m hm => ?_) h
  rw [hbacklog c (hsame ▸ hc)] at hm
  cases hm

/-- The pending connections when `publish` comes to accept them. -/
theorem afterPublish_backlog {p p₁ : TensorPublisher} {desc : TensorDescriptor} {syncFd : Option Fd}
    (h : p.sendFence desc syncFd = some p₁) (pool : TensorPool) (desc' : TensorDescriptor) :
    (p₁.afterPublish pool desc').server.backlog = p.server.backlog := by
  obtain ⟨clients, rfl, -⟩ := TensorPublisher.sendFence_spec h
  exact (TensorPublisher.cachePool_conns _ pool false).2

/-- **No other bundles are sent** by an operation than that of its transmitter. -/
theorem transmits_of_step {s s' : Producer} {e : ProducerEv}
    (hbacklog : ∀ c, .ok c ∈ s.pub.server.backlog → c.sent = []) (hs : s.step e = some s') :
    s.pub.server.Extends (s.MaySend e) s'.pub.server := by
  cases e with
  | handshake =>
      obtain ⟨r, hr, rfl⟩ := Option.map_eq_some_iff.mp hs
      obtain ⟨r', hacc, rfl⟩ := Option.map_eq_some_iff.mp hr
      exact (extends_cachePool _ s.pub s.pool false).trans
        (extends_accept hbacklog _ (s.pub.cachePool_conns s.pool false).2 (.inr ⟨_, rfl, rfl⟩) hacc)
  | publish now d syncFd =>
      obtain ⟨⟨res, pub⟩, hr, rfl⟩ := Option.map_eq_some_iff.mp hs
      obtain ⟨e, -, -, rfl⟩ | ⟨hcheck, -, p₁, r, hsend, hacc, rfl⟩ := TensorPublisher.publish_cases hr
      · exact .refl _
      · -- the bundle is cached after the fence has been sent
        have htrans : s.transmitter (.publish now d syncFd) =
            some (p₁.afterPublish s.pool (s.pub.stamp s.pool now d)).server := by
          unfold transmitter
          dsimp only
          rw [hcheck, hsend]
          rfl
        have hfenced : s.pub.server.Extends (s.MaySend (.publish now d syncFd)) p₁.server := by
          obtain ⟨clients, rfl, ⟨rfl, -⟩ | ⟨fd, n, -, -, hall⟩⟩ := TensorPublisher.sendFence_spec hsend
          · exact .refl _
          · exact .sendAll (.inl ⟨_, _, rfl⟩) hall
        have hsame := afterPublish_backlog hsend s.pool (s.pub.stamp s.pool now d)
        exact (hfenced.trans (extends_cachePool _ (p₁.writeMeta _) s.pool false)).trans
          (extends_accept hbacklog _ hsame (.inr ⟨_, htrans, rfl⟩) hacc)
  | reannounce =>
      obtain ⟨⟨k, r⟩, hr, rfl⟩ := Option.map_eq_some_iff.mp hs
      obtain ⟨rb, ra, hsent, hacc, rfl⟩ := TensorPublisher.reannounce_cases hr
      -- it goes to the clients, and then to whoever is accepted
      have hbundle : s.MaySend .reannounce (s.pub.remapped s.pool s.sys).server.bundle :=
        .inr ⟨_, rfl, rfl⟩
      have hcached : s.pub.server.Extends (s.MaySend .reannounce) (s.pub.remapped s.pool s.sys).server :=
        extends_cachePool _ (s.pub.mapViews s.pool s.sys).1 s.pool true
      have hsame : (s.pub.remapped s.pool s.sys).server.backlog = s.pub.server.backlog :=
        ((s.pub.mapViews s.pool s.sys).1.cachePool_conns s.pool true).2
      exact (hcached.trans (.sendAll hbundle hsent)).trans
        (extends_accept hbacklog { (s.pub.remapped s.pool s.sys).server with clients := rb.2 } hsame hbundle hacc)
  | acquire =>
      cases hs
      unfold TensorPublisher.acquireDescriptor
      split_ifs <;> exact .refl _
  | reallocate n =>
      cases hs
      exact .refl _
  | connect id capacity alive =>
      cases hs
      exact .of_sentTo fun _ => rfl
  | acceptFails e =>
      cases hs
      exact .of_sentTo fun _ => rfl
  | read i k =>
      cases hs
      exact .of_sentTo (SidecarServer.sentTo_modifyClient _ i fun _ => rfl)
  | hangup i =>
      cases hs
      exact .of_sentTo (SidecarServer.sentTo_modifyClient _ i fun _ => rfl)

/-- Connections that are still pending have been sent nothing. -/
theorem backlog_of_step {s s' : Producer} {e : ProducerEv}
    (h : ∀ c, .ok c ∈ s.pub.server.backlog → c.sent = []) (hs : s.step e = some s') :
    ∀ c, .ok c ∈ s'.pub.server.backlog → c.sent = [] := by
  -- accepting takes connections out of the backlog
  have haccept : ∀ (srv : SidecarServer) (r : ℤ × SidecarServer), srv.backlog = s.pub.server.backlog →
      srv.acceptAndHandshake = some r → ∀ c, .ok c ∈ r.2.backlog → c.sent = [] := by
    intro srv r hsame hr c hc
    exact h c (hsame ▸ SidecarServer.mem_backlog_acceptLoop hr hc)
  cases e with
  | handshake =>
      obtain ⟨r, hr, rfl⟩ := Option.map_eq_some_iff.mp hs
      obtain ⟨r', hacc, rfl⟩ := Option.map_eq_some_iff.mp hr
      exact haccept _ _ (s.pub.cachePool_conns s.pool false).2 hacc
  | publish now d syncFd =>
      obtain ⟨⟨res, pub⟩, hr, rfl⟩ := Option.map_eq_some_iff.mp hs
      obtain ⟨e, -, -, rfl⟩ | ⟨-, -, p₁, r, hsend, hacc, rfl⟩ := TensorPublisher.publish_cases hr
      · exact h
      · have hsame := afterPublish_backlog hsend s.pool (s.pub.stamp s.pool now d)
        exact haccept _ _ hsame hacc
  | reannounce =>
      obtain ⟨⟨k, r⟩, hr, rfl⟩ := Option.map_eq_some_iff.mp hs
      obtain ⟨rb, ra, -, hacc, rfl⟩ := TensorPublisher.reannounce_cases hr
      exact haccept { (s.pub.remapped s.pool s.sys).server with clients := rb.2 } _
        ((s.pub.mapViews s.pool s.sys).1.cachePool_conns s.pool true).2 hacc
  | acquire =>
      cases hs
      unfold TensorPublisher.acquireDescriptor
      split_ifs <;> exact h
  | connect id capacity alive =>
      cases hs
      intro c hc
      rcases List.mem_append.mp hc with hc | hc
      · exact h c hc
      · cases List.mem_singleton.mp hc
        rfl
  | acceptFails e =>
      cases hs
      intro c hc
      rcases List.mem_append.mp hc with hc | hc
      · exact h c hc
      · cases List.mem_singleton.mp hc
  | reallocate | read | hangup =>
      cases hs
      exact h

/-- **The invariant of the cache**: it is current, the blob fits, nothing has been sent to a connection that
is still pending, and the pool's FDs are in order. -/
structure CacheInv (s : Producer) (size : ℕ) : Prop where
  cache : s.pub.CacheCurrent s.pool
  blob : s.pool.BlobFits s.sys size
  backlog : ∀ c, .ok c ∈ s.pub.server.backlog → c.sent = []
  holds : s.pool.Holds s.sys

namespace CacheInv

variable {s s' : Producer} {size : ℕ}

/-- A new producer has cached nothing yet. -/
theorem of_create {build : BuildConfig} {cfg : TensorPoolConfig} {sys : Sys} (hsys : sys.Sound)
    (hsize : ∀ surf, (sys.mapParams surf).length = size) (h : create build cfg sys = some s) :
    s.CacheInv size := by
  have hholds := holds_of_create hsys h
  have hunused := (create_spec h).1
  refine ⟨hunused.cacheCurrent s.pool, ?_, ?_, hholds⟩
  · obtain ⟨sys₁, hpool, hpub⟩ := create_parts h
    obtain ⟨hsize₁, hblob, hfull⟩ := TensorPool.create_blob hsys hsize hpool
    have hlater := TensorPublisher.create_later s.pool sys₁
    have hfits := TensorPublisher.blob_le_of_create hpub
    rw [hpub] at hlater
    refine TensorPool.BlobFits.later ⟨hsize₁, fun hb => ?_, hblob⟩ hlater
    rw [← hfull hb]
    exact hfits
  · rw [hunused.server]
    exact fun c hc => absurd hc List.not_mem_nil

/-- The publisher's cache after a step. -/
theorem cache_of_step {e : ProducerEv} (h : s.pub.CacheCurrent s.pool) (hs : s.step e = some s') :
    s'.pub.CacheCurrent s'.pool := by
  cases e with
  | handshake =>
      obtain ⟨r, hr, rfl⟩ := Option.map_eq_some_iff.mp hs
      obtain ⟨r', hacc, rfl⟩ := Option.map_eq_some_iff.mp hr
      exact (h.cachePool false).1.congr (TensorPublisher.accept_sameCache hacc)
  | publish now d syncFd =>
      obtain ⟨⟨res, pub⟩, hr, rfl⟩ := Option.map_eq_some_iff.mp hs
      obtain ⟨e, -, -, rfl⟩ | ⟨-, -, p₁, r, hsend, hacc, rfl⟩ := TensorPublisher.publish_cases hr
      · exact h.congr ⟨rfl, rfl, rfl, .refl _⟩
      · have hseqno : s.pub.SameCache { s.pub with seqno := s.pub.seqno + 1 } := ⟨rfl, rfl, rfl, .refl _⟩
        have hwritten : p₁.SameCache (p₁.writeMeta (s.pub.stamp s.pool now d)) := ⟨rfl, rfl, rfl, .refl _⟩
        have h₁ := h.congr ((hseqno.trans (TensorPublisher.sendFence_sameCache hsend)).trans hwritten)
        exact (h₁.cachePool false).1.congr (TensorPublisher.accept_sameCache hacc)
  | reannounce =>
      obtain ⟨⟨k, r⟩, hr, rfl⟩ := Option.map_eq_some_iff.mp hs
      obtain ⟨rb, ra, -, hacc, rfl⟩ := TensorPublisher.reannounce_cases hr
      have hmapped : s.pub.SameCache (s.pub.mapViews s.pool s.sys).1 := ⟨rfl, rfl, rfl, .refl _⟩
      have hsent : (s.pub.remapped s.pool s.sys).server.SameBundle
          { (s.pub.remapped s.pool s.sys).server with clients := rb.2 } := ⟨rfl, rfl, rfl⟩
      have hbundle : (s.pub.remapped s.pool s.sys).server.SameBundle ra.2 :=
        hsent.trans (SidecarServer.acceptLoop_sameBundle hacc)
      exact ((h.congr hmapped).cachePool true).1.congr ⟨rfl, rfl, rfl, hbundle⟩
  | acquire =>
      cases hs
      unfold TensorPublisher.acquireDescriptor
      split_ifs
      · exact h
      · exact h.congr ⟨rfl, rfl, rfl, .refl _⟩
  | reallocate n =>
      obtain rfl : { s with
          pool := (s.pool.retireAndReallocate n s.sys).1
          sys := (s.pool.retireAndReallocate n s.sys).2 } = s' := Option.some.inj hs
      have hgen : (s.pool.retireAndReallocate n s.sys).1.generation = s.pool.generation + 1 :=
        s.pool.retireAndReallocate_gen n s.sys
      -- the generation moves past the mark
      refine ⟨fun hc => ?_, fun hc hsame => ?_⟩
      · show s.pub.cachedGen ≤ _
        rw [hgen]
        exact (h.gen_le hc).trans (Nat.le_succ _)
      · have hmark : s.pub.cachedGen = s.pool.generation + 1 := hsame.trans hgen
        exact absurd hmark (Nat.lt_succ_of_le (h.gen_le hc)).ne
  | connect | acceptFails | read | hangup =>
      cases hs
      exact h.congr ⟨rfl, rfl, rfl, ⟨rfl, rfl, rfl⟩⟩

/-- **The invariant is kept by everything a producer does.** -/
theorem step {e : ProducerEv} (h : s.CacheInv size) (hs : s.step e = some s') : s'.CacheInv size := by
  refine ⟨cache_of_step h.cache hs, ?_, backlog_of_step h.backlog hs, holds_of_step h.holds hs⟩
  -- only `reallocate` and `reannounce` reach the system
  cases e with
  | handshake =>
      obtain ⟨r, -, rfl⟩ := Option.map_eq_some_iff.mp hs
      exact h.blob
  | publish now d syncFd =>
      obtain ⟨r, -, rfl⟩ := Option.map_eq_some_iff.mp hs
      exact h.blob
  | reannounce =>
      obtain ⟨⟨k, r⟩, hr, rfl⟩ := Option.map_eq_some_iff.mp hs
      obtain ⟨rb, ra, -, -, rfl⟩ := TensorPublisher.reannounce_cases hr
      exact h.blob.later (TensorPublisher.mapBuffers_later _ _ _)
  | reallocate n =>
      cases hs
      exact h.blob.retireAndReallocate h.holds n
  | acquire | connect | acceptFails | read | hangup =>
      cases hs
      exact h.blob

/-- **In every run** the cache is current. -/
theorem of_exec {tr : List ProducerEv} (h : s.CacheInv size)
    (hexec : producerMachine.exec s tr = some s') : s'.CacheInv size :=
  Machine.exec_invariant (P := fun s => s.CacheInv size) hexec h fun _ _ _ _ h hs _ => h.step hs

end CacheInv

/-- What the transmitter of an operation has cached. -/
theorem transmitter_caches {s : Producer} {e : ProducerEv} {srv : SidecarServer}
    (h : s.pub.CacheCurrent s.pool) (hsrv : s.transmitter e = some srv) :
    (TensorPublisher.bundleOf s.pub.bufferSize s.pool).SameBundle srv := by
  -- caching brings the bundle up to date, whatever was cached before
  have hcaches : ∀ {p : TensorPublisher} (force : Bool), s.pub.SameCache p →
      (TensorPublisher.bundleOf s.pub.bufferSize s.pool).SameBundle (p.cachePool s.pool force).server := by
    intro p force hsame
    obtain ⟨-, hcaches, hsize⟩ := (h.congr hsame).cachePool force
    unfold TensorPublisher.Caches at hcaches
    rwa [hsize, hsame.bufferSize] at hcaches
  unfold transmitter at hsrv
  split at hsrv
  · cases hsrv
    exact hcaches false ⟨rfl, rfl, rfl, .refl _⟩
  · rename_i now d syncFd
    split at hsrv
    · cases hsrv
    · obtain ⟨p₁, hsend, rfl⟩ := Option.map_eq_some_iff.mp hsrv
      have hseqno : s.pub.SameCache { s.pub with seqno := s.pub.seqno + 1 } := ⟨rfl, rfl, rfl, .refl _⟩
      -- neither the fence nor the descriptor changes the cache
      have hwritten : p₁.SameCache (p₁.writeMeta (s.pub.stamp s.pool now d)) := ⟨rfl, rfl, rfl, .refl _⟩
      exact hcaches false ((hseqno.trans (TensorPublisher.sendFence_sameCache hsend)).trans hwritten)
  · cases hsrv
    exact hcaches true ⟨rfl, rfl, rfl, .refl _⟩
  · cases hsrv

end Producer

/-- **The cached bundle is never stale when it is sent**: whatever a producer and its consumers have done,
the bundles that an operation sends are those of its `transmitter`, which has cached the pool's FDs, all of
them open, its generation, its backend and its import parameters, the same as when the bundle is renewed
before every send. The parameters of a surface have a fixed size, and the generation has not wrapped. -/
theorem cached_bundle_current {build : BuildConfig} {cfg : TensorPoolConfig} {sys : Sys} {s₀ s : Producer}
    {tr : List ProducerEv} (hcreate : Producer.create build cfg sys = some s₀) (hsound : sys.Sound)
    (hsize : ∀ i j, (sys.mapParams i).length = (sys.mapParams j).length)
    (hexec : producerMachine.exec s₀ tr = some s) (hgen : s.pool.generation < 2 ^ 32) {e : ProducerEv}
    {s' : Producer} (hs : s.step e = some s') :
    s.pub.server.Extends (s.MaySend e) s'.pub.server ∧
    ∀ srv, s.transmitter e = some srv →
      srv.poolFds = s.pool.dmaBufFds ∧ srv.header.poolGeneration.toNat = s.pool.generation ∧
      srv.header.backend = s.pool.backend.toByte ∧ srv.ext = s.pool.importParams ∧
      (∀ fd ∈ srv.poolFds, fd ∉ s.sys.closed) ∧
      (s.pub.cachePool s.pool true).server.SameBundle srv := by
  have hinv : s.CacheInv (sys.mapParams 0).length :=
    (Producer.CacheInv.of_create hsound (fun surf => hsize surf 0) hcreate).of_exec hexec
  refine ⟨Producer.transmits_of_step hinv.backlog hs, fun srv hsrv => ?_⟩
  -- what is sent is what has been cached, and the cache is current
  have hcaches := Producer.transmitter_caches hinv.cache hsrv
  have ⟨hfds, hheader, hext⟩ := hcaches
  obtain ⟨-, hforced, hforcedsize⟩ := hinv.cache.cachePool true
  unfold TensorPublisher.Caches at hforced
  rw [hforcedsize] at hforced
  obtain ⟨hfds₀, hgen₀, hbackend₀, hext₀⟩ := TensorPublisher.bundleOf_spec s.pub.bufferSize s.pool hinv.blob.le
  refine ⟨hfds.trans hfds₀, ?_, ?_, hext.trans hext₀, ?_, hforced.symm.trans hcaches⟩
  -- the header has the low 32 bits of the generation
  · rw [hheader, hgen₀]
    exact UInt32.toNat_ofNat_of_lt' hgen
  · rw [hheader, hbackend₀]
  · rw [hfds, hfds₀]
    exact hinv.holds.open_fds

/-- A frame published after a reallocation: the bundle of the new generation is sent to the consumer that has
connected meanwhile. -/
theorem cached_bundle_current_reallocated : ∃ (s s' : Producer) (srv : SidecarServer),
    s.step (.publish 0 (.bytesFrame 16 .None) none) = some s' ∧
    s.transmitter (.publish 0 (.bytesFrame 16 .None) none) = some srv ∧
    srv.header.poolGeneration.toNat = 2 ∧ s.pub.cachedGen = 1 ∧
    (∀ fd ∈ srv.poolFds, fd ∉ s.sys.closed) ∧ srv.poolFds.length = 1 := by
  have hcreate : ∃ s₀, Producer.create ⟨false, false⟩ (.oneBuffer 4096) .obliging = some s₀ := ⟨_, rfl⟩
  obtain ⟨s₀, hcreate⟩ := hcreate
  have hexec : ((producerMachine.exec s₀ [.handshake, .reallocate 8192, .connect 0 4096 true]).bind fun s =>
      (s.step (.publish 0 (.bytesFrame 16 .None) none)).map fun _ =>
        (s.pool.generation, s.pub.cachedGen, s.pool.dmaBufFds.length,
          (s.transmitter (.publish 0 (.bytesFrame 16 .None) none)).isSome)) = some (2, 1, 1, true) := by
    -- the pool is at generation 2, the cache still at 1
    cases hcreate
    decide +kernel
  obtain ⟨s, hs, hres⟩ := Option.bind_eq_some_iff.mp hexec
  obtain ⟨s', hs', hres⟩ := Option.map_eq_some_iff.mp hres
  simp only [Prod.mk.injEq] at hres
  obtain ⟨hgen, hcached, hlen, hsome⟩ := hres
  have h := (cached_bundle_current hcreate Sys.sound_obliging (fun _ _ => rfl) hs (by rw [hgen]; decide) hs').2
  obtain ⟨srv, hsrv⟩ := Option.isSome_iff_exists.mp hsome
  obtain ⟨hfds, hgen', -, -, hopen, -⟩ := h srv hsrv
  exact ⟨s, s', srv, hs', hsrv, hgen'.trans hgen, hcached, hopen, (congrArg List.length hfds).trans hlen⟩

end Axon
