import Axon.Producer

/-! # What a producer announces

The bundles a publisher sends name a generation of its pool, the buffers of that generation, their size
and the backend. `announces_of_create` and `announces_step` say that from its creation on a producer keeps all of
these in agreement: a generation has the same buffers in every bundle, all bundles tell the publisher's buffer size,
and every frame published fits it. -/

namespace Axon

open Foundation

/-- **What a producer has had to announce so far**: the buffers of each generation up to the current one,
their size and their backend. -/
structure Announcement where
  size : UInt64
  backend : PoolBackend
  /-- The generation there was at first. -/
  first : PoolGeneration
  /-- The current generation. -/
  upTo : PoolGeneration
  buffers : PoolGeneration → List File

/-- A message that announces a pool announces one of the generations. -/
def Message.Announced (a : Announcement) : Message → Prop
  | .pool header files _ => header.bufferSize = a.size ∧ header.backend = a.backend.toByte ∧
      ∃ g, a.first ≤ g ∧ g ≤ a.upTo ∧ header.poolGeneration = .ofNat g ∧ files = a.buffers g
  | .fence _ _ => True

/-- A message as the publisher's server sends it. -/
structure Message.Genuine (a : Announcement) (m : Message) : Prop where
  announced : m.Announced a
  deliverable : m.Deliverable

namespace Announcement

/-- The announcement's current generation is the pool as it stands. -/
structure Describes (a : Announcement) (pool : TensorPool) : Prop where
  first : a.first ≤ a.upTo
  upTo : a.upTo = pool.generation
  backend : a.backend = pool.backend
  buffers : a.buffers pool.generation = pool.dmaBufFds.map (·.file)

/-- The announcement with one more generation. -/
def next (a : Announcement) (files : List File) : Announcement where
  size := a.size
  backend := a.backend
  first := a.first
  upTo := a.upTo + 1
  buffers := Function.update a.buffers (a.upTo + 1) files

/-- Earlier generations keep their buffers. -/
theorem next_buffers {a : Announcement} {g : PoolGeneration} (hg : g ≤ a.upTo) (files : List File) :
    (a.next files).buffers g = a.buffers g :=
  Function.update_of_ne (Nat.lt_succ_of_le hg).ne _ _

/-- What was announced stays so when the pool is replaced. -/
theorem announced_next {a : Announcement} {m : Message} (h : m.Announced a) (files : List File) :
    m.Announced (a.next files) := by
  cases m with
  | pool header fs ext =>
      obtain ⟨hsize, hbackend, g, hfirst, hg, hgen, hfs⟩ := h
      exact ⟨hsize, hbackend, g, hfirst, Nat.le_succ_of_le hg, hgen,
        hfs.trans (next_buffers hg files).symm⟩
  | fence header file => trivial

end Announcement

namespace TensorPublisher

/-- **The publisher announces `a`** and nothing else: in the cached bundle, which is the one of the cached
generation, in every message sent, and in every frame published. -/
structure Announces (p : TensorPublisher) (a : Announcement) : Prop where
  size : p.bufferSize = a.size
  cached : p.poolCached = true → (p.server.bundle.Announced a ∧ p.server.bundle.WellFormed) ∧
    p.server.header.poolGeneration = .ofNat p.cachedGen
  sent : p.server.AllSent (Message.Genuine a)
  published : ∀ d ∈ p.published, d.FitsIn a.size ∧ d.poolGeneration ≤ a.upTo

variable {p p' : TensorPublisher} {pool : TensorPool} {a : Announcement}

namespace Announces

/-- Once the bundle is cached, it announces the pool's generation. -/
theorem cachePool (h : p.Announces a) (hd : a.Describes pool) (force : Bool) :
    (p.cachePool pool force).Announces a ∧
      ((p.cachePool pool force).server.bundle.Announced a ∧
        (p.cachePool pool force).server.bundle.WellFormed) ∧
      (p.cachePool pool force).server.header.poolGeneration = .ofNat pool.generation := by
  unfold TensorPublisher.cachePool
  split_ifs with hskip
  · obtain ⟨-, hcached, hgen⟩ := hskip
    exact ⟨h, (h.cached hcached).1, hgen ▸ (h.cached hcached).2⟩
  · -- whether the blob can be carried or not, the header and the FDs are the pool's
    have hnew : ∀ header ext, header.bufferSize = p.bufferSize →
        header.backend = pool.backend.toByte → header.poolGeneration = .ofNat pool.generation →
        (Message.pool header (pool.dmaBufFds.map (·.file)) ext).Announced a := by
      intro header ext hsize hbackend hgen
      exact ⟨hsize.trans h.size, by rw [hbackend, hd.backend], pool.generation,
        hd.first.trans hd.upTo.le, hd.upTo.ge, hgen, hd.buffers.symm⟩
    unfold SidecarServer.setPool
    dsimp only
    split_ifs with hext
    · have hlen : (UInt16.ofNat pool.importParams.length).toNat = pool.importParams.length :=
        UInt16.toNat_ofNat_of_lt' (Nat.lt_succ_of_le hext.2)
      exact ⟨⟨h.size, fun _ => ⟨⟨hnew _ _ rfl rfl rfl, rfl, hlen⟩, rfl⟩, h.sent, h.published⟩,
        ⟨hnew _ _ rfl rfl rfl, rfl, hlen⟩, rfl⟩
    · exact ⟨⟨h.size, fun _ => ⟨⟨hnew _ _ rfl rfl rfl, rfl, rfl⟩, rfl⟩, h.sent, h.published⟩,
        ⟨hnew _ _ rfl rfl rfl, rfl, rfl⟩, rfl⟩

/-- Accepting consumers keeps what is announced. -/
theorem accept (h : p.Announces a)
    (hbundle : p.server.bundle.Announced a ∧ p.server.bundle.WellFormed) {r : ℤ × SidecarServer}
    (hr : p.server.acceptAndHandshake = some r) :
    Announces { p with server := r.2 } a ∧ r.2.bundle = p.server.bundle ∧
      r.2.header = p.server.header := by
  obtain ⟨hheader, hfds, hext, hsent⟩ := SidecarServer.acceptLoop_spec (P := Message.Genuine a)
    (s := p.server) (fun hfds => ⟨hbundle.1, hbundle.2, hfds⟩) h.sent.1 h.sent.2 hr
  have hsame : r.2.bundle = p.server.bundle := by
    rw [SidecarServer.bundle, hheader, hfds, hext, SidecarServer.bundle]
  refine ⟨⟨h.size, fun hc => ?_, hsent, h.published⟩, hsame, hheader⟩
  show (r.2.bundle.Announced a ∧ r.2.bundle.WellFormed) ∧ r.2.header.poolGeneration = _
  rw [hsame, hheader]
  exact h.cached hc

/-- Counters are not announced. -/
theorem setCounters (h : p.Announces a) (rejected seqno : ℕ) :
    Announces { p with rejected := rejected, seqno := seqno } a :=
  ⟨h.size, h.cached, h.sent, h.published⟩

/-- **Sending a fence** announces nothing new. -/
theorem sendFence (h : p.Announces a) {desc : TensorDescriptor} {syncFd : Option Fd}
    (hp : p.sendFence desc syncFd = some p') : p'.Announces a := by
  unfold TensorPublisher.sendFence at hp
  split at hp
  · split_ifs at hp
    · obtain ⟨⟨k, server⟩, hb, rfl⟩ := Option.map_eq_some_iff.mp hp
      obtain ⟨r, hr, heq⟩ := Option.map_eq_some_iff.mp hb
      cases heq
      exact ⟨h.size, h.cached, h.sent.sendAll (m := SidecarServer.fenceMessage _ _)
        (fun hfds => ⟨trivial, rfl, hfds⟩) hr,
        h.published⟩
    · cases hp
      exact h
  · cases hp
    exact h

/-- **Publishing a frame** that fits the announced size keeps what is announced. -/
theorem writeMeta (h : p.Announces a) {desc : TensorDescriptor} (hfit : desc.FitsIn a.size)
    (hgen : desc.poolGeneration ≤ a.upTo) : (p.writeMeta desc).Announces a := by
  refine ⟨h.size, h.cached, h.sent, fun d hd => ?_⟩
  rcases List.mem_append.mp hd with hd | hd
  · exact h.published d hd
  · rw [List.mem_singleton.mp hd]
    exact ⟨hfit, hgen⟩

/-- **Picking up consumers** announces the pool as it stands. -/
theorem pickUpConsumers (h : p.Announces a) (hd : a.Describes pool)
    (hp : p.pickUpConsumers pool = some p') :
    p'.Announces a ∧ p'.server.bundle.Announced a ∧
      p'.server.header.poolGeneration = .ofNat pool.generation := by
  obtain ⟨hcached, hbundle, hgen⟩ := h.cachePool hd false
  obtain ⟨r, hr, rfl⟩ := Option.map_eq_some_iff.mp hp
  obtain ⟨hann, hsame, hheader⟩ := hcached.accept hbundle hr
  exact ⟨hann, hsame ▸ hbundle.1, hheader ▸ hgen⟩

/-- **What an accepted `publish` does**: the stamped descriptor is published, and the bundle of the pool's
generation is the cached one. -/
theorem publish_ok (h : p.Announces a) (hd : a.Describes pool) {now : UInt64}
    {d : AcquiredDescriptor} {syncFd : Option Fd}
    (hp : p.publish pool now d syncFd = some (.ok (), p')) :
    p'.Announces a ∧ p.check d = none ∧ p.stamp pool now d ∈ p'.published ∧
      p'.server.bundle.Announced a ∧ p'.server.header.poolGeneration = .ofNat pool.generation := by
  obtain ⟨e, -, hres, -⟩ | ⟨hcheck, -, p₁, r, hsend, hacc, rfl⟩ := publish_cases hp
  · cases hres
  · have hfit : (p.stamp pool now d).FitsIn a.size := h.size ▸ fitsIn_of_descriptorError hcheck
    have h₁ := (h.setCounters p.rejected (p.seqno + 1)).sendFence hsend
    have h₂ : (p₁.writeMeta (p.stamp pool now d)).Announces a := h₁.writeMeta hfit hd.upTo.ge
    obtain ⟨hcached, hbundle, hgen⟩ := h₂.cachePool hd false
    obtain ⟨hann, hsame, hheader⟩ := hcached.accept hbundle hacc
    refine ⟨hann, hcheck, ?_, hsame ▸ hbundle.1, hheader ▸ hgen⟩
    -- renewing the cache publishes nothing and loses nothing
    have hpublished := ((p₁.writeMeta (p.stamp pool now d)).cachePool_sameRecord pool false).published
    show p.stamp pool now d ∈ ((p₁.writeMeta (p.stamp pool now d)).cachePool pool false).published
    rw [hpublished]
    exact List.mem_append_right _ (List.mem_singleton_self _)

/-- A refused `publish` announces nothing. -/
theorem publish_error (h : p.Announces a) {now : UInt64} {d : AcquiredDescriptor}
    {syncFd : Option Fd} {e : Errno} (hp : p.publish pool now d syncFd = some (.error e, p')) :
    p'.Announces a ∧ p.check d = some e := by
  obtain ⟨e', hcheck, hres, rfl⟩ | ⟨-, hres, -⟩ := publish_cases hp
  · cases hres
    exact ⟨h.setCounters _ p.seqno, hcheck⟩
  · cases hres

/-- **`reannounce_pool`** announces the pool as it stands. -/
theorem reannounce (h : p.Announces a) (hd : a.Describes pool) {sys : Sys}
    {r : ℤ × TensorPublisher × Sys} (hp : p.reannouncePool pool sys = some r) :
    r.2.1.Announces a := by
  obtain ⟨rb, ra, hrb, hacc, heq⟩ := reannounce_cases hp
  have hmap : (p.mapViews pool sys).1.Announces a := ⟨h.size, h.cached, h.sent, h.published⟩
  obtain ⟨hcached, hbundle, hgen⟩ := hmap.cachePool hd true
  have hsent : Announces
      { p.remapped pool sys with server := { (p.remapped pool sys).server with clients := rb.2 } } a :=
    ⟨hcached.size, hcached.cached,
      hcached.sent.sendAll (m := SidecarServer.bundle _) (fun hfds => ⟨hbundle.1, hbundle.2, hfds⟩) hrb,
      hcached.published⟩
  rw [heq]
  exact (hsent.accept hbundle hacc).1

/-- A new generation of the pool keeps what was announced before. -/
theorem next (h : p.Announces a) (files : List File) : p.Announces (a.next files) where
  size := h.size
  cached hc := ⟨⟨Announcement.announced_next (h.cached hc).1.1 files, (h.cached hc).1.2⟩, (h.cached hc).2⟩
  sent := h.sent.mono fun _ hm => ⟨Announcement.announced_next hm.announced files, hm.deliverable⟩
  published d hd := ⟨(h.published d hd).1, Nat.le_succ_of_le (h.published d hd).2⟩

end Announces

end TensorPublisher

namespace Producer

/-- **The announcement of a producer**: what its publisher announces, its pool is the current generation
of. -/
structure Announces (s : Producer) (a : Announcement) : Prop where
  pub : s.pub.Announces a
  pool : a.Describes s.pool

variable {s s' : Producer} {a : Announcement}

/-- A new publisher has announced nothing. -/
theorem announces_of_create (h : producerMachine.init s) :
    s.Announces ⟨s.pub.bufferSize, s.pool.backend, s.pool.generation, s.pool.generation,
      fun _ => s.pool.dmaBufFds.map (·.file)⟩ := by
  obtain ⟨build, cfg, sys, h⟩ := h
  obtain ⟨hserver, hpublished, -, -, -, hcached⟩ := (create_spec h).1
  refine ⟨⟨rfl, ?_, ?_, ?_⟩, le_rfl, rfl, rfl, rfl⟩
  · rw [hcached]
    exact nofun
  · rw [hserver]
    exact ⟨fun c hc => absurd hc List.not_mem_nil, fun c hc => absurd hc List.not_mem_nil⟩
  · rw [hpublished]
    exact fun d hd => absurd hd List.not_mem_nil

/-- The server's connections do not matter to what is announced on them. -/
theorem Announces.setServer (h : s.Announces a) {server : SidecarServer}
    (hbundle : server.bundle = s.pub.server.bundle) (hheader : server.header = s.pub.server.header)
    (hsent : server.AllSent (Message.Genuine a)) : (s.setServer server).Announces a where
  pub := by
    refine ⟨h.pub.size, fun hc => ?_, hsent, h.pub.published⟩
    show (server.bundle.Announced a ∧ server.bundle.WellFormed) ∧ server.header.poolGeneration = _
    rw [hbundle, hheader]
    exact h.pub.cached hc
  pool := h.pool

/-- A step that does not replace the pool adds nothing to what there is to announce. -/
theorem announces_step_of_kept {e : ProducerEv} (h : s.Announces a) (he : ∀ n, e ≠ .reallocate n)
    (hs : s.step e = some s') : s'.Announces a := by
  cases e with
  | handshake =>
      obtain ⟨r, hr, rfl⟩ := Option.map_eq_some_iff.mp hs
      obtain ⟨hcached, hbundle, -⟩ := h.pub.cachePool h.pool false
      obtain ⟨r', hacc, rfl⟩ := Option.map_eq_some_iff.mp hr
      exact ⟨(hcached.accept hbundle hacc).1, h.pool⟩
  | acquire =>
      cases hs
      refine ⟨?_, h.pool⟩
      unfold TensorPublisher.acquireDescriptor
      split_ifs
      · exact h.pub
      · -- only the ring index moves
        exact ⟨h.pub.size, h.pub.cached, h.pub.sent, h.pub.published⟩
  | publish now d syncFd =>
      obtain ⟨⟨res, p'⟩, hr, rfl⟩ := Option.map_eq_some_iff.mp hs
      cases res with
      | ok u => exact ⟨(h.pub.publish_ok h.pool hr).1, h.pool⟩
      | error e => exact ⟨(h.pub.publish_error hr).1, h.pool⟩
  | reallocate n => exact absurd rfl (he n)
  | reannounce =>
      obtain ⟨r, hr, rfl⟩ := Option.map_eq_some_iff.mp hs
      exact ⟨h.pub.reannounce h.pool hr, h.pool⟩
  -- events of the consumers concern the connections alone
  | connect id capacity alive =>
      cases hs
      refine h.setServer rfl rfl ⟨h.pub.sent.1, fun c hc m hm => ?_⟩
      rcases List.mem_append.mp hc with hc | hc
      · exact h.pub.sent.2 c hc m hm
      · cases List.mem_singleton.mp hc
        cases hm
  | acceptFails e =>
      cases hs
      refine h.setServer rfl rfl ⟨h.pub.sent.1, fun c hc m hm => ?_⟩
      rcases List.mem_append.mp hc with hc | hc
      · exact h.pub.sent.2 c hc m hm
      · cases List.mem_singleton.mp hc
  | read i k =>
      cases hs
      exact h.setServer rfl rfl (h.pub.sent.modifyClient i fun _ => rfl)
  | hangup i =>
      cases hs
      exact h.setServer rfl rfl (h.pub.sent.modifyClient i fun _ => rfl)

/-- A reallocation adds the new generation. -/
theorem announces_reallocate {n : UInt64} (h : s.Announces a) (hs : s.step (.reallocate n) = some s') :
    ∃ a', s'.Announces a' ∧ a'.size = a.size ∧ a'.backend = a.backend := by
  obtain rfl : { s with
      pool := (s.pool.retireAndReallocate n s.sys).1
      sys := (s.pool.retireAndReallocate n s.sys).2 } = s' := Option.some.inj hs
  have hbackend := s.pool.retireAndReallocate_backend n s.sys
  have hupTo : a.upTo + 1 = (s.pool.retireAndReallocate n s.sys).1.generation :=
    (congrArg (· + 1) h.pool.upTo).trans (s.pool.retireAndReallocate_gen n s.sys).symm
  refine ⟨a.next ((s.pool.retireAndReallocate n s.sys).1.dmaBufFds.map (·.file)),
    ⟨h.pub.next _, Nat.le_succ_of_le h.pool.first, hupTo, h.pool.backend.trans hbackend.symm, ?_⟩,
    rfl, rfl⟩
  show Function.update a.buffers (a.upTo + 1) _ (s.pool.retireAndReallocate n s.sys).1.generation = _
  rw [← hupTo, Function.update_self]

/-- **One step keeps what is announced consistent.** -/
theorem announces_step {e : ProducerEv} (h : s.Announces a) (hs : s.step e = some s') :
    ∃ a', s'.Announces a' ∧ a'.size = a.size ∧ a'.backend = a.backend := by
  by_cases he : ∃ n, e = .reallocate n
  · obtain ⟨n, rfl⟩ := he
    exact announces_reallocate h hs
  · push Not at he
    exact ⟨a, announces_step_of_kept h he hs, rfl, rfl⟩

end Producer

end Axon
