import Axon.Attachment

/-! # Where the pointers of a view point

`views_point_into_attachment`: whatever handshakes, publishes and reallocations came before, a pointer in a
view returned by `latest_view` lies in a live mapping of the buffer that the frame's descriptor names. -/

namespace Axon

open Foundation

namespace Attachment

/-- The view shows a published frame of the attached generation, in a mapping of the frame's buffer. -/
def ShowsFrame (s : Attachment) (v : TensorView) : Prop :=
  ∃ d ∈ s.prod.pub.published, v.seqno = d.seqno ∧
    d.poolGeneration = s.sub.poolGeneration.toNat ∧
    ∀ p, v.data = some p ∨ v.devicePtr = some p →
      p.offset = d.offset ∧ s.sub.HasRegion d.boHandle p.region

/-- **The invariant of an attachment** to a publisher with buffers of `n` bytes. -/
structure Inv (n : UInt64) (s : Attachment) : Prop where
  released : ∀ m ∈ s.sub.unmapped, m.base < s.sub.nextBase
  live : ∀ i m, s.sub.HasRegion i m → m.base < s.sub.nextBase ∧ m ∉ s.sub.unmapped
  backed : ∀ i m, s.sub.HasRegion i m → n ≤ m.length ∧
    (s.sub.fds.map (·.file))[i]? = some m.file ∧
    ∃ header ext, s.prod.pub.server.Sent (.pool header (s.sub.fds.map (·.file)) ext) ∧
      header.poolGeneration = s.sub.poolGeneration
  lastGood : ∀ v, s.sub.lastGood = some v → s.ShowsFrame v

namespace Inv

variable {n : UInt64} {s : Attachment}

/-- A new subscriber has no views. -/
theorem create {s : Attachment} (h : s.sub = .create) : s.Inv n where
  released m hm := by
    rw [h] at hm
    cases hm
  live i m hm := by
    rw [h] at hm
    rcases hm with hm | hm <;> cases hm
  backed i m hm := by
    rw [h] at hm
    rcases hm with hm | hm <;> cases hm
  lastGood v hv := by
    rw [h] at hv
    cases hv

/-- What the producer does leaves the subscriber's side alone and loses no history. -/
theorem prod (h : s.Inv n) {prod : Producer}
    (hg : TensorPublisher.Grows (fun _ => True) s.prod.pub prod.pub) :
    Inv n { s with prod := prod } where
  released := h.released
  live := h.live
  backed i m hm := by
    obtain ⟨hsize, hfile, header, ext, hsent, hgen⟩ := h.backed i m hm
    exact ⟨hsize, hfile, header, ext, hsent.mono hg.server, hgen⟩
  lastGood v hv := by
    obtain ⟨d, hd, hv⟩ := h.lastGood v hv
    exact ⟨d, hg.published.subset hd, hv⟩

/-- Calls that keep the buffers attached keep the invariant, if the last good frame is a good one. -/
theorem same (h : s.Inv n) {sub : TensorSubscriber} (hsame : s.sub.SameAttachment sub)
    (hgood : ∀ v, sub.lastGood = some v → s.ShowsFrame v) : Inv n { s with sub := sub } where
  released m hm := by
    rw [hsame.unmapped] at hm
    exact hsame.nextBase ▸ h.released m hm
  live i m hm := by
    rw [hsame.unmapped, hsame.nextBase]
    exact h.live i m (hsame.hasRegion.mp hm)
  backed i m hm := by
    rw [hsame.fds, hsame.poolGeneration]
    exact h.backed i m (hsame.hasRegion.mp hm)
  lastGood v hv := by
    obtain ⟨d, hd, hseq, hgen, hptr⟩ := hgood v hv
    refine ⟨d, hd, hseq, by rw [hgen, hsame.poolGeneration], fun p hp => ?_⟩
    exact ⟨(hptr p hp).1, hsame.hasRegion.mpr (hptr p hp).2⟩

/-- A region that was mapped is one that `detach` releases. -/
theorem base_of_mem_mapped (h : s.Inv n) {m : Mapping} (hm : m ∈ s.sub.mapped) :
    m.base < s.sub.nextBase := by
  have hregion : ∃ i, s.sub.HasRegion i m := by
    rcases List.mem_append.mp hm with hm | hm
    · obtain ⟨i, hi⟩ := List.mem_iff_getElem?.mp ((List.mem_filterMap.mp hm).elim fun o ho => by
        obtain ⟨ho, rfl⟩ := ho
        exact ho)
      exact ⟨i, .inl hi⟩
    · obtain ⟨i, hi⟩ := List.mem_iff_getElem?.mp ((List.mem_filterMap.mp hm).elim fun o ho => by
        obtain ⟨ho, rfl⟩ := ho
        exact ho)
      exact ⟨i, .inr hi⟩
  obtain ⟨i, hi⟩ := hregion
  exact (h.live i m hi).1

/-- Adopting a bundle that was sent, with regions of its buffers at new bases. -/
theorem adopt (h : s.Inv n) {sub : TensorSubscriber} {hdr : PoolHandshakeHeader} {received : List Fd}
    {ext : List UInt8} (hsent : s.prod.pub.server.Sent (.pool hdr (received.map (·.file)) ext))
    (hfds : sub.fds = received) (hgen : sub.poolGeneration = hdr.poolGeneration)
    (hunmapped : sub.unmapped = s.sub.unmapped ++ s.sub.mapped) (hgood : sub.lastGood = none)
    (hbase : s.sub.nextBase ≤ sub.nextBase)
    (hregion : ∀ i m, sub.HasRegion i m → ∃ fd, received[i]? = some fd ∧ m.file = fd.file ∧
      s.sub.nextBase ≤ m.base ∧ m.base < sub.nextBase ∧ n ≤ m.length) :
    Inv n { s with sub := sub } := by
  -- what was mapped before has just been released, and lies below the new mappings
  have hold : ∀ m ∈ sub.unmapped, m.base < s.sub.nextBase := by
    intro m hm
    rw [hunmapped] at hm
    rcases List.mem_append.mp hm with hm | hm
    · exact h.released m hm
    · exact h.base_of_mem_mapped hm
  refine ⟨fun m hm => (hold m hm).trans_le hbase, fun i m hm => ?_, fun i m hm => ?_, fun v hv => ?_⟩
  · obtain ⟨fd, -, -, hge, hlt, -⟩ := hregion i m hm
    exact ⟨hlt, fun hmem => absurd (hold m hmem) (not_lt.mpr hge)⟩
  · obtain ⟨fd, hfd, hfile, -, -, hsize⟩ := hregion i m hm
    refine ⟨hsize, ?_, hdr, ext, ?_, hgen.symm⟩
    · rw [hfds, List.getElem?_map, hfd, hfile]
      rfl
    · rw [hfds]
      exact hsent
  -- `detach` has forgotten the last good frame
  · rw [hgood] at hv
    cases hv

/-- **A handshake keeps the invariant**, however far it gets. -/
theorem waitHandshake {a : Announcement} (h : s.Inv a.size) (ha : s.prod.Announces a)
    (hbackend : a.backend ≠ .NvBufSurface) {build : BuildConfig} (ans : HandshakeAnswers) {link : Link}
    (hlink : s.received link = some ans.connect) :
    Inv a.size { s with sub := (s.sub.waitHandshake build ans).2 } := by
  generalize hs' : (s.sub.waitHandshake build ans).2 = s'
  have hc := s.sub.waitHandshake_cases build ans
  rw [hs'] at hc
  cases hc with
  | kept _ hsame hgood => exact h.same hsame fun v hv => h.lastGood v (hgood ▸ hv)
  | adopted stream hstream hdr received ext client hrecv s₁ _ hs₁ hor hgood =>
      obtain ⟨ext', hsent⟩ := received_ok (hlink.trans (congrArg some hstream)) rfl hrecv
      obtain ⟨hsize, hback, -⟩ := (ha.pub.sent.of_sent hsent).announced
      have hnone : ∀ v, s'.lastGood = some v → ∀ s₂ : Attachment, s₂.ShowsFrame v := by
        intro v hv
        rw [hgood] at hv
        cases hv
      rcases hor with hsame | hsame
      · -- the backend is not supported: no buffer was mapped
        have hinv : Inv a.size { s with sub := s₁ } := by
          subst hs₁
          refine h.adopt hsent rfl rfl rfl rfl le_rfl fun i m hm => ?_
          rcases hm with hm | hm <;> cases hm
        exact hinv.same hsame fun v hv => hnone v hv _
      · have hinv : Inv a.size { s with sub := s₁.attach build hdr ext ans } := by
          have hsurf : hdr.backend ≠ PoolBackend.NvBufSurface.toByte := by
            rw [hback]
            exact fun heq => hbackend (PoolBackend.toByte_injective heq)
          obtain ⟨hregion, hnext, hfds, hgen, hunmapped⟩ := TensorSubscriber.attach_spec
            (s := s₁) (by rw [hs₁]; rfl) (by rw [hs₁]; rfl) build hsurf ext ans
          subst hs₁
          refine h.adopt hsent hfds hgen hunmapped (TensorSubscriber.attach_lastGood _ _ _ _ _)
            (hnext ▸ Nat.le_add_right _ _) fun i m hm => ?_
          obtain ⟨fd, hfd, hfile, hbase, hlen⟩ := hregion i m hm
          have hi : i < received.length := (List.getElem?_eq_some_iff.mp hfd).1
          refine ⟨fd, hfd, hfile, ?_, ?_, hsize ▸ hlen⟩
          · rw [hbase]
            exact Nat.le_add_right _ _
          · rw [hbase, hnext]
            exact Nat.add_lt_add_left hi _
        exact hinv.same hsame fun v hv => hnone v hv _

/-- **What a view shows**: a view that `latest_view` returns is of a published frame of the attached
generation, and so is the one it remembers. -/
theorem latestView (h : s.Inv n) {notify : UInt32} {read : Option TensorDescriptor} {retries : ℕ}
    {now : UInt64} (hread : ∀ d ∈ read, d ∈ s.prod.pub.published) :
    (∀ v, (s.sub.latestView notify read retries now).1 = some v → s.ShowsFrame v) ∧
      Inv n { s with sub := (s.sub.latestView notify read retries now).2 } := by
  have hc := s.sub.latestView_cases notify read retries now
  generalize s.sub.latestView notify read retries now = r at hc ⊢
  cases hc with
  | detached _ => exact ⟨nofun, h⟩
  | fresh _ desc hdesc hacc notify_now =>
      have hshow : s.ShowsFrame (s.sub.viewOf desc retries now) :=
        ⟨desc, hread desc hdesc, rfl, hacc.1, fun p hp => TensorSubscriber.viewOf_ptr hp⟩
      -- a fresh view is remembered, so it is shown twice
      refine ⟨fun v hv => Option.some.inj hv ▸ hshow, h.same ⟨rfl, rfl, rfl, rfl, rfl, rfl, rfl, rfl⟩ ?_⟩
      intro v hv
      obtain rfl := Option.some.inj hv
      exact hshow
  | fallback _ =>
      -- a fallback view is the one remembered, with another staleness
      refine ⟨fun v hv => ?_, h.same ⟨rfl, rfl, rfl, rfl, rfl, rfl, rfl, rfl⟩ h.lastGood⟩
      obtain ⟨v₀, hv₀, rfl⟩ := TensorSubscriber.fallbackView_spec hv
      exact h.lastGood v₀ hv₀

/-- Every event keeps the invariant. -/
theorem step {a : Announcement} {build : BuildConfig} {e : AttachmentEv} {s' : Attachment}
    (h : s.Inv a.size) (ha : s.prod.Announces a) (hbackend : a.backend ≠ .NvBufSurface)
    (hs : s.step build e = some s') : s'.Inv a.size := by
  cases e with
  | prod e =>
      obtain ⟨prod, hprod, rfl⟩ := Option.map_eq_some_iff.mp hs
      exact h.prod (Producer.grows_step (fun _ _ _ => trivial) (fun _ _ _ _ _ _ => trivial)
        (fun _ _ _ _ => trivial) hprod)
  | waitHandshake link ans =>
      obtain ⟨connect, hlink, rfl⟩ := Option.map_eq_some_iff.mp hs
      exact h.waitHandshake ha hbackend { ans with connect := connect } hlink
  | latestView notify read retries now =>
      simp only [Attachment.step] at hs
      split_ifs at hs with hread
      cases hs
      exact (h.latestView hread).2
  | arrive | drainFences | setFallbackPolicy =>
      cases hs
      exact h.same ⟨rfl, rfl, rfl, rfl, rfl, rfl, rfl, rfl⟩ h.lastGood

end Inv

/-- **In every run** the producer announces consistently and, unless its buffers are surfaces, the
attachment's invariant holds. -/
theorem inv_of_run {build : BuildConfig} {tr : List AttachmentEv} {s : Attachment}
    (h : (attachmentMachine build).Run tr s) :
    ∃ a, s.prod.Announces a ∧ (a.backend ≠ .NvBufSurface → s.Inv a.size) := by
  refine h.invariant (P := fun _ s => ∃ a, s.prod.Announces a ∧
    (a.backend ≠ .NvBufSurface → Attachment.Inv a.size s)) ?_ ?_
  · intro s (hs : producerMachine.init s.prod ∧ s.sub = .create)
    exact ⟨_, Producer.announces_of_create hs.1, fun _ => .create hs.2⟩
  -- the announcement may change with the producer, but neither its size nor its backend
  · intro _ s e s' _ ⟨a, ha, hinv⟩ hs
    obtain ⟨a', ha', hsize, hback⟩ : ∃ a', s'.prod.Announces a' ∧ a'.size = a.size ∧
        a'.backend = a.backend := by
      rcases Attachment.prod_of_step hs with ⟨pe, hpe⟩ | hsame
      · exact Producer.announces_step ha hpe
      · exact ⟨a, hsame ▸ ha, rfl, rfl⟩
    refine ⟨a', ha', fun hb => ?_⟩
    rw [hback] at hb
    rw [hsize]
    exact (hinv hb).step ha hb hs

/-- **The pointer points into the buffer that the descriptor names**: at the frame's offset of a live
mapping of this buffer, with the frame's range inside it. -/
structure PointsInto (s : Attachment) (d : TensorDescriptor) (p : PayloadPtr) : Prop where
  offset : p.offset = d.offset
  inside : d.offset.toNat + d.size.toNat ≤ p.region.length.toNat
  live : s.sub.HasRegion d.boHandle p.region
  not_released : p.region ∉ s.sub.unmapped
  /-- A bundle of the frame's generation has been sent. -/
  announced : ∃ header files ext, s.prod.pub.server.Sent (.pool header files ext) ∧
    header.poolGeneration.toNat = d.poolGeneration
  /-- Every bundle of the frame's generation names the mapped file as the frame's buffer. -/
  buffer : ∀ header files ext, s.prod.pub.server.Sent (.pool header files ext) →
    header.poolGeneration.toNat = d.poolGeneration → files[d.boHandle]? = some p.region.file

end Attachment

/-- **No view dangles or reaches outside its buffer**: whatever handshakes, fence drains, publishes and
reallocations came before, a pointer in the view that the next `latest_view` returns points into the
subscriber's live mapping of the buffer its frame names. -/
theorem views_point_into_attachment {build : BuildConfig} {tr : List AttachmentEv} {s s' : Attachment}
    (hrun : (attachmentMachine build).Run tr s) (hbackend : s.prod.pool.backend ≠ .NvBufSurface)
    (hgen : s.prod.pool.generation < 2 ^ 32) {notify : UInt32} {read : Option TensorDescriptor}
    {retries : ℕ} {now : UInt64}
    (hcall : s.step build (.latestView notify read retries now) = some s')
    {v : TensorView} (hv : (s.sub.latestView notify read retries now).1 = some v) :
    ∃ d ∈ s.prod.pub.published, v.seqno = d.seqno ∧
      ∀ p, v.data = some p ∨ v.devicePtr = some p → s.PointsInto d p := by
  have hread := Attachment.published_of_step hcall
  obtain ⟨a, ha, hinv⟩ := Attachment.inv_of_run hrun
  have hinv := hinv (ha.pool.backend ▸ hbackend)
  obtain ⟨d, hd, hseq, hdgen, hptr⟩ := (hinv.latestView hread).1 v hv
  refine ⟨d, hd, hseq, fun p hp => ?_⟩
  obtain ⟨hoffset, hregion⟩ := hptr p hp
  obtain ⟨hsize, hfile, header, ext, hsent, hhgen⟩ := hinv.backed _ _ hregion
  refine ⟨hoffset, ?_, hregion, (hinv.live _ _ hregion).2, ⟨header, _, ext, hsent, ?_⟩, ?_⟩
  · have hfit := (ha.pub.published d hd).1
    exact hfit.trans (UInt64.le_iff_toNat_le.mp hsize)
  · rw [hhgen, hdgen]
  · intro header' files' ext' hsent' hgen'
    obtain ⟨-, -, g, -, hg, hofNat, hfiles⟩ := (ha.pub.sent.of_sent hsent).announced
    obtain ⟨-, -, g', -, hg', hofNat', hfiles'⟩ := (ha.pub.sent.of_sent hsent').announced
    -- no generation up to the current one wraps in the header's 32 bits
    have hup : a.upTo < 2 ^ 32 := ha.pool.upTo ▸ hgen
    have hgg : g = g' := by
      have hg32 : header.poolGeneration.toNat = g := by
        rw [hofNat]
        exact UInt32.toNat_ofNat_of_lt' (hg.trans_lt hup)
      have hg32' : header'.poolGeneration.toNat = g' := by
        rw [hofNat']
        exact UInt32.toNat_ofNat_of_lt' (hg'.trans_lt hup)
      rw [← hg32, ← hg32', hgen', hhgen, hdgen]
    rw [hfiles', ← hgg, ← hfiles]
    exact hfile

/-- A subscriber attaches to a pool of one page and reads the first frame published. -/
theorem views_point_into_attachment_firstFrame : ∃ (s : Attachment) (v : TensorView) (d : TensorDescriptor)
    (p : PayloadPtr), s.prod.pub.published = [d] ∧
      (s.sub.latestView 1 (some d) 0 9).1 = some v ∧ v.data = some p ∧ s.PointsInto d p := by
  obtain ⟨prod, hprod⟩ : ∃ prod, Producer.create ⟨false, false⟩ (.oneBuffer 4096) .obliging = some prod :=
    ⟨_, rfl⟩
  obtain ⟨s, hs⟩ : ∃ s, (attachmentMachine ⟨false, false⟩).exec ⟨prod, .create⟩
      [.prod (.connect 0 64 true), .prod .handshake, .waitHandshake (.bundle 0 [] 1) (.obliging fun _ => true),
        .prod (.publish 7 (.bytesFrame 16 .None) none)] = some s := by
    cases hprod
    exact ⟨_, rfl⟩
  -- the frame is read, and its view has a host pointer
  have hrun := Machine.Run.of_exec (M := attachmentMachine ⟨false, false⟩)
    ⟨⟨_, _, _, hprod⟩, rfl⟩ hs
  obtain ⟨d, hd⟩ : ∃ d, s.prod.pub.published = [d] := by
    cases hprod
    cases hs
    exact ⟨_, rfl⟩
  obtain ⟨s', hcall⟩ : ∃ s', s.step ⟨false, false⟩ (.latestView 1 (some d) 0 9) = some s' := by
    cases hprod
    cases hs
    cases hd
    exact ⟨_, rfl⟩
  obtain ⟨v, p, hv, hp⟩ : ∃ v p, (s.sub.latestView 1 (some d) 0 9).1 = some v ∧ v.data = some p := by
    cases hprod
    cases hs
    cases hd
    exact ⟨_, _, rfl, rfl⟩
  obtain ⟨d', hd', -, hpoints⟩ := views_point_into_attachment hrun (by cases hprod; cases hs; decide)
    (by cases hprod; cases hs; decide) hcall hv
  rw [hd, List.mem_singleton] at hd'
  exact ⟨s, v, d, p, hd, hv, hp, hd' ▸ hpoints p (.inl hp)⟩

end Axon
