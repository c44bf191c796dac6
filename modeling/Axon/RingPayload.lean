import Axon.RingBuffers

/-! # What ring depth buys

`ring_depth_buys_untorn_payloads`: the bytes that a consumer reads through a fresh view are those that the
owner wrote for its frame, as long as the ring has not come round to the frame's buffer.

Two arguments meet in `Ring.Inv`. The ring of buffers refines the ring of cells of `LapRing`, which says how
long a buffer keeps what it held when its frame was published; and the views point into the buffers of the
descriptors they were made from, whichever bundle a consumer has attached to. The seqlock gives the third:
the descriptors read are those of frames. -/

namespace Axon

open Foundation

namespace Publication

variable {R : Type} [DecidableEq R] {s s' : Publication R} {e : PublicationEv R}

/-- The frames accepted so far, oldest first. -/
def accepted (s : Publication R) : List TensorDescriptor :=
  s.prod.pub.published ++ s.phase.pending.toList

/-- **Only a descriptor that passes the check of `publish` is accepted.** -/
theorem accepted_of_step (hs : s.step e = some s') :
    (s'.accepted = s.accepted ∧ ∀ now d syncFd, e = .publish now d syncFd → s.prod.pub.check d ≠ none) ∨
      ∃ now d syncFd, e = .publish now d syncFd ∧ s.prod.pub.check d = none ∧
        s'.accepted = s.accepted ++ [s.prod.pub.stamp s.prod.pool now d] := by
  cases step_cases hs with
  | prod e prod hno hprod =>
      refine .inl ⟨?_, nofun⟩
      rw [accepted, accepted, (Producer.sameRecord_of_step hno hprod).published]
  | refuse now d syncFd err hphase hcheck =>
      refine .inl ⟨rfl, ?_⟩
      rintro now' d' syncFd' ⟨⟩ hnone
      cases hcheck.symm.trans hnone
  | stamp now d syncFd hphase hcheck =>
      -- the frame is pending until it has been stored and recorded
      refine .inr ⟨now, d, syncFd, rfl, hcheck, ?_⟩
      show s.prod.pub.published ++ [s.prod.pub.stamp s.prod.pool now d] = _
      rw [accepted, hphase]
      simp [PublishPhase.pending]
  | sendFence desc syncFd pub hphase hsend =>
      refine .inl ⟨?_, nofun⟩
      obtain ⟨clients, rfl, -⟩ := TensorPublisher.sendFence_spec hsend
      rw [accepted, accepted, hphase]
      rfl
  | call desc slot hphase hslot =>
      refine .inl ⟨?_, nofun⟩
      rw [accepted, accepted, hphase]
      exact List.append_nil _
  | ret desc slot hphase hslot =>
      refine .inl ⟨?_, nofun⟩
      rw [accepted, accepted, hphase]
      rfl
  | access a slot hcall hret hslot => exact .inl ⟨rfl, nofun⟩
  | pickUp pub hphase hpick =>
      refine .inl ⟨?_, nofun⟩
      rw [accepted, accepted, hphase]
      show pub.published ++ [] = s.prod.pub.published ++ []
      rw [(TensorPublisher.pickUpConsumers_sameRecord hpick).published]

end Publication

/-! ## What a consumer has mapped -/

namespace TensorSubscriber

/-- Buffer `i`, where it is mapped, is the file `files[i]`. -/
def Maps (s : TensorSubscriber) (files : List File) : Prop :=
  ∀ i m, s.HasRegion i m → files[i]? = some m.file

variable {s s' : TensorSubscriber} {files : List File}

/-- The same attachment maps the same files. -/
theorem Maps.same (h : s.Maps files) (hsame : s.SameAttachment s') : s'.Maps files :=
  fun i m hm => h i m (hsame.hasRegion.mp hm)

/-- A handshake with a publisher all of whose bundles are of these files. -/
theorem Maps.waitHandshake (h : s.Maps files) {prod : Producer}
    (hall : ∀ header fs ext, prod.pub.server.Sent (.pool header fs ext) → fs = files) {link : Link}
    {connect : Option (List Segment)} (hlink : Attachment.received ⟨prod, s⟩ link = some connect)
    (build : BuildConfig) (ans : HandshakeAnswers) :
    (s.waitHandshake build { ans with connect := connect }).2.Maps files := by
  have hc := s.waitHandshake_cases build { ans with connect := connect }
  generalize (s.waitHandshake build { ans with connect := connect }).2 = s' at hc
  cases hc with
  | kept _ hsame hgood => exact h.same hsame
  | adopted stream hstream hdr received ext client hrecv s₁ _ hs₁ hor hgood =>
      obtain ⟨ext', hsent⟩ := Attachment.received_ok (hlink.trans (congrArg some hstream)) rfl hrecv
      have hfiles := hall hdr _ ext' hsent
      subst hs₁
      rcases hor with hsame | hsame
      · -- the backend is not supported: no buffer was mapped
        refine Maps.same (fun i m hm => ?_) hsame
        rcases hm with hm | hm <;> cases hm
      · refine Maps.same (fun i m hm => ?_) hsame
        obtain ⟨fd, hfd, hfile⟩ := attach_files rfl rfl build hdr ext _ hm
        have hfd : received[i]? = some fd := hfd
        rw [← hfiles, List.getElem?_map, hfd, hfile]
        rfl

/-- The pointers of a view lie in the buffer that its descriptor names, at the descriptor's offset. -/
theorem Maps.viewOf (h : s.Maps files) {d : TensorDescriptor} {retries : ℕ} {now : UInt64} {p : PayloadPtr}
    (hp : p ∈ (s.viewOf d retries now).ptrs) :
    p.offset = d.offset ∧ files[d.boHandle]? = some p.region.file := by
  have hptr : (s.viewOf d retries now).data = some p ∨ (s.viewOf d retries now).devicePtr = some p := by
    rcases List.mem_append.mp hp with hp | hp
    · exact .inl (Option.mem_toList.mp hp)
    · exact .inr (Option.mem_toList.mp hp)
  obtain ⟨hoffset, hregion⟩ := viewOf_ptr hptr
  exact ⟨hoffset, h _ _ hregion⟩

end TensorSubscriber

namespace Ring

variable {R : Type} [DecidableEq R] {build : BuildConfig} {files : List File} {s s' : Ring R}

/-! ## The invariant -/

/-- The ring of buffers, as a ring of cells. -/
def lap (files : List File) (s : Ring R) : LapRing (ℕ → UInt8) where
  cells := bufferOf files s.mem
  turns := s.pub.prod.pub.nextIndex
  filling := s.turn.isSome
  kept := s.frames.map fun f => (f.turn, f.payload)

/-- The descriptor acquired last: its buffer is the next one of the ring, and holds what has been written. -/
structure TurnInv (files : List File) (s : Ring R) (t : Turn) : Prop where
  number : s.pub.prod.pub.nextIndex = t.number + 1
  index : t.acquired.bufferIndex = (t.number % files.length : ℕ)
  view : ∀ m, t.acquired.hostView = some m → files[t.number % files.length]? = some m.file
  written : ∀ x b, t.written x = some b → bufferOf files s.mem (t.number % files.length) x = b

/-- A frame names the buffer of its turn, which held what had been written for it. -/
structure FrameInv (files : List File) (f : RingFrame) : Prop where
  handle : f.desc.boHandle = f.turn % files.length
  written : ∀ x b, f.written x = some b → f.payload x = b

/-- **The invariant of the ring.** -/
structure Inv (files : List File) (s : Ring R) : Prop where
  pool : s.pub.FixedPool files
  pos : 0 < files.length
  lap : ∃ tr, (lapMachine (ℕ → UInt8) files.length).Run tr (s.lap files)
  turn : ∀ t, s.turn = some t → s.TurnInv files t
  frames : ∀ f ∈ s.frames, FrameInv files f
  accepted : s.frames.map (·.desc) = s.pub.accepted
  mapped : ∀ r, ((s.consumers r).subs ()).Maps files
  held : ∀ r, ∀ h ∈ s.held r, ∀ p ∈ h.view.ptrs,
    p.offset = h.desc.offset ∧ files[h.desc.boHandle]? = some p.region.file

namespace Inv

/-- At the beginning nothing is mapped or held. -/
theorem of_init (h : (ringMachine R build).init s) : s.Inv s.files := by
  obtain ⟨⟨build, cfg, sys, hsound, hcreate⟩, hphase, hslot, hturn, hframes, hconsumers⟩ := h
  obtain ⟨hpool, hpos⟩ := Publication.fixedPool_of_create hsound hcreate hphase
  obtain ⟨-, hpublished, -, -, hnext, -⟩ := (Producer.create_spec hcreate).1
  -- an empty ring: no turn is under way, and no consumer has a view
  refine ⟨hpool, ?_, ⟨[], .nil ⟨hnext, ?_, ?_⟩⟩, fun t ht => ?_, fun f hf => ?_, ?_, fun r i m hm => ?_,
    fun r h hh => ?_⟩
  · rw [files, List.length_map]
    exact hpos
  · show s.turn.isSome = false
    rw [hturn]
    rfl
  · show s.frames.map _ = []
    rw [hframes]
    rfl
  · cases hturn.symm.trans ht
  · rw [hframes] at hf
    cases hf
  · rw [hframes, Publication.accepted, hphase, hpublished]
    rfl
  · rw [(hconsumers r).1] at hm
    rcases hm with hm | hm <;> cases hm
  · rw [(hconsumers r).2] at hh
    cases hh

omit [DecidableEq R] in
/-- What leaves the ring of buffers alone, and publishes nothing that has not been accepted. -/
theorem besides (h : s.Inv files) {pub : Publication R} {consumers : R → Waiter Unit}
    {held : R → List HeldView} (hpool : pub.FixedPool files)
    (hnext : pub.prod.pub.nextIndex = s.pub.prod.pub.nextIndex) (haccepted : pub.accepted = s.pub.accepted)
    (hmapped : ∀ r, ((consumers r).subs ()).Maps files)
    (hheld : ∀ r, ∀ h ∈ held r, ∀ p ∈ h.view.ptrs,
      p.offset = h.desc.offset ∧ files[h.desc.boHandle]? = some p.region.file) :
    Inv files { s with pub := pub, consumers := consumers, held := held } := by
  refine ⟨hpool, h.pos, ?_, fun t ht => ?_, h.frames, h.accepted.trans haccepted.symm, hmapped, hheld⟩
  · obtain ⟨tr, hrun⟩ := h.lap
    refine ⟨tr, ?_⟩
    -- the lap ring looks at the frames, the turn and the index, which are all as before
    have hlap : Ring.lap files { s with pub := pub, consumers := consumers, held := held } = s.lap files := by
      unfold Ring.lap
      rw [hnext]
    rw [hlap]
    exact hrun
  · obtain ⟨hnumber, hindex, hview, hwritten⟩ := h.turn t ht
    exact ⟨hnext.trans hnumber, hindex, hview, hwritten⟩

/-- A descriptor is acquired: the next turn begins. -/
theorem acquire (h : s.Inv files) {pub : Publication R} (hs : s.pub.step (.prod .acquire) = some pub) :
    Inv files { s with
      pub := pub
      turn := some ⟨(s.pub.prod.pub.acquireDescriptor s.pub.prod.pool).1, s.pub.prod.pub.nextIndex,
        fun _ => none⟩ } := by
  have hlen := h.pool.length_eq
  have hne : s.pub.prod.pool.dmaBufFds ≠ [] := by
    rw [← List.length_pos_iff, hlen]
    exact h.pos
  obtain ⟨hindex, hview, hpub⟩ := s.pub.prod.pub.acquireDescriptor_spec hne
  obtain rfl : ({ s.pub with prod := { s.pub.prod with
      pub := (s.pub.prod.pub.acquireDescriptor s.pub.prod.pool).2 } } : Publication R) = pub :=
    Option.some.inj hs
  rw [hlen] at hindex hview
  refine ⟨h.pool.congr rfl rfl ?_ hs nofun, h.pos, ?_, ?_, h.frames, ?_, h.mapped, h.held⟩
  · show (s.pub.prod.pub.acquireDescriptor s.pub.prod.pool).2.hostViews = _
    rw [hpub]
  · -- the ring of cells begins its next turn
    obtain ⟨tr, hrun⟩ := h.lap
    refine ⟨tr ++ [.begin], hrun.snoc ?_⟩
    dsimp only [lapMachine]
    rw [LapRing.step]
    unfold Ring.lap
    dsimp only
    rw [hpub]
    rfl
  · rintro t ⟨⟩
    refine ⟨?_, hindex, fun m hm => ?_, nofun⟩
    · show (s.pub.prod.pub.acquireDescriptor s.pub.prod.pool).2.nextIndex = _
      rw [hpub]
    · exact h.pool.view (TensorSubscriber.getElem?_of_getD_none (hview.symm.trans hm))
  · rw [h.accepted]
    show s.pub.prod.pub.published ++ _ =
      (s.pub.prod.pub.acquireDescriptor s.pub.prod.pool).2.published ++ _
    rw [hpub]

omit [DecidableEq R] in
/-- The owner writes a byte: the cell of its turn changes, and no other. -/
theorem write (h : s.Inv files) {t : Turn} {m : Mapping} (ht : s.turn = some t)
    (hview : t.acquired.hostView = some m) (x : ℕ) (b : UInt8) :
    Inv files { s with
      mem := Function.update s.mem m.file (Function.update (s.mem m.file) x b)
      turn := some { t with written := Function.update t.written x (some b) } } := by
  obtain ⟨hnumber, hindex, hviews, hwritten⟩ := h.turn t ht
  have hfile := hviews m hview
  have hnodup : files.Nodup := h.pool.files ▸ h.pool.holds.nodup_files
  have hcell : bufferOf files s.mem (t.number % files.length) = s.mem m.file := by
    rw [bufferOf, hfile]
    rfl
  have hupdate := bufferOf_update hnodup hfile s.mem (Function.update (s.mem m.file) x b)
  refine ⟨h.pool, h.pos, ?_, ?_, h.frames, h.accepted, h.mapped, h.held⟩
  · -- the ring of cells writes into the cell of that turn
    obtain ⟨tr, hrun⟩ := h.lap
    refine ⟨tr ++ [.write fun c => Function.update c x b], hrun.snoc ?_⟩
    have hlast : (s.lap files).last = t.number := by
      show s.pub.prod.pub.nextIndex - 1 = t.number
      rw [hnumber, Nat.add_sub_cancel]
    dsimp only [lapMachine]
    rw [LapRing.step, if_pos (by rw [Ring.lap, ht]; rfl), hlast]
    unfold Ring.lap
    dsimp only
    rw [hupdate, hcell, ht]
    rfl
  · rintro t' ⟨⟩
    refine ⟨hnumber, hindex, hviews, fun y c hc => ?_⟩
    show bufferOf files (Function.update s.mem m.file _) (t.number % files.length) y = c
    rw [hupdate, Function.update_self]
    -- the byte just written, and those written before
    by_cases hy : y = x
    · subst hy
      rw [Function.update_self]
      have hc : Function.update t.written y (some b) y = some c := hc
      rw [Function.update_self] at hc
      exact Option.some.inj hc
    · rw [Function.update_of_ne hy, ← hcell]
      have hc : Function.update t.written x (some b) y = some c := hc
      rw [Function.update_of_ne hy] at hc
      exact hwritten y c hc

/-- A frame is accepted: its turn ends, and keeps what the buffer holds. -/
theorem accept (h : s.Inv files) {pub : Publication R} {t : Turn} {now : UInt64} {d : AcquiredDescriptor}
    {syncFd : Option Fd} (ht : s.turn = some t) (hsame : d.bufferIndex = t.acquired.bufferIndex)
    (hcheck : s.pub.prod.pub.check d = none) (hs : s.pub.step (.publish now d syncFd) = some pub) :
    Inv files { s with
      pub := pub
      turn := none
      frames := s.frames ++ [s.frameOf t (s.pub.prod.pub.stamp s.pub.prod.pool now d)] } := by
  obtain ⟨hnumber, hindex, -, hwritten⟩ := h.turn t ht
  have hring := Publication.sameRing_of_step hs nofun
  -- the frame names the buffer of the turn
  have hhandle : (s.pub.prod.pub.stamp s.pub.prod.pool now d).boHandle = t.number % files.length := by
    show (if 0 ≤ d.bufferIndex then d.bufferIndex.toNat else 0) = _
    rw [hsame, hindex, if_pos (Int.natCast_nonneg _), Int.toNat_natCast]
  have hpayload : (s.frameOf t (s.pub.prod.pub.stamp s.pub.prod.pool now d)).payload =
      bufferOf files s.mem (t.number % files.length) := by
    rw [frameOf, Ring.files, h.pool.files, hhandle]
  refine ⟨h.pool.congr hring.pool hring.sys hring.hostViews hs nofun, h.pos, ?_, nofun, fun f hf => ?_, ?_,
    h.mapped, h.held⟩
  · -- the ring of cells keeps the record
    obtain ⟨tr, hrun⟩ := h.lap
    refine ⟨tr ++ [.keep], hrun.snoc ?_⟩
    have hlast : (s.lap files).last = t.number := by
      show s.pub.prod.pub.nextIndex - 1 = t.number
      rw [hnumber, Nat.add_sub_cancel]
    dsimp only [lapMachine]
    rw [LapRing.step, if_pos (by rw [Ring.lap, ht]; rfl), hlast]
    unfold Ring.lap
    dsimp only
    rw [hring.nextIndex, List.map_append, List.map_singleton, hpayload]
    rfl
  · rcases List.mem_append.mp hf with hf | hf
    · exact h.frames f hf
    · rw [List.mem_singleton.mp hf]
      refine ⟨hhandle, fun x b hx => ?_⟩
      rw [hpayload]
      exact hwritten x b hx
  · obtain ⟨-, hrefused⟩ | ⟨now', d', syncFd', heq, -, haccepted⟩ := Publication.accepted_of_step hs
    · exact absurd hcheck (hrefused now d syncFd rfl)
    · cases heq
      rw [haccepted, List.map_append, h.accepted]
      rfl

omit [DecidableEq R] in
/-- A view that is handed out points into the buffer of its descriptor. -/
theorem heldAfter (h : s.Inv files) (r : R) (e : WaitEv Unit) : ∀ v ∈ s.heldAfter r e, ∀ p ∈ v.view.ptrs,
    p.offset = v.desc.offset ∧ files[v.desc.boHandle]? = some p.region.file := by
  intro v hv p hp
  unfold Ring.heldAfter at hv
  split at hv
  · split_ifs at hv
    · rcases List.mem_append.mp hv with hv | hv
      · exact h.held r v hv p hp
      · rw [List.mem_singleton.mp hv] at hp ⊢
        exact (h.mapped r).viewOf hp
    · exact h.held r v hv p hp
  · exact h.held r v hv p hp

/-- One consumer has gone on, and has mapped what it had mapped. -/
theorem mapped_update (h : s.Inv files) (r : R) {w : Waiter Unit} (hw : (w.subs ()).Maps files) (r' : R) :
    ((Function.update s.consumers r w r').subs ()).Maps files := by
  revert r'
  rw [Function.forall_update_iff s.consumers fun _ w => (w.subs ()).Maps files]
  exact ⟨hw, fun r' _ => h.mapped r'⟩

/-- New views of one reader leave those of the others. -/
theorem held_update (h : s.Inv files) (r : R) {views : List HeldView}
    (hviews : ∀ v ∈ views, ∀ p ∈ v.view.ptrs,
      p.offset = v.desc.offset ∧ files[v.desc.boHandle]? = some p.region.file) (r' : R) :
    ∀ v ∈ Function.update s.held r views r', ∀ p ∈ v.view.ptrs,
      p.offset = v.desc.offset ∧ files[v.desc.boHandle]? = some p.region.file := by
  revert r'
  rw [Function.forall_update_iff s.held fun _ vs => ∀ v ∈ vs, ∀ p ∈ v.view.ptrs,
    p.offset = v.desc.offset ∧ files[v.desc.boHandle]? = some p.region.file]
  exact ⟨hviews, fun r' _ => h.held r'⟩

/-- A step of the publisher that accepts nothing, next to whatever the consumers do. -/
theorem published (h : s.Inv files) {pub : Publication R} {e : PublicationEv R} {consumers : R → Waiter Unit}
    {held : R → List HeldView} (hs : s.pub.step e = some pub)
    (hconn : ∀ e', e = .prod e' → e'.isConnection = true)
    (hrefused : ∀ now d syncFd, e = .publish now d syncFd → s.pub.prod.pub.check d ≠ none)
    (hmapped : ∀ r, ((consumers r).subs ()).Maps files)
    (hheld : ∀ r, ∀ h ∈ held r, ∀ p ∈ h.view.ptrs,
      p.offset = h.desc.offset ∧ files[h.desc.boHandle]? = some p.region.file) :
    Inv files { s with pub := pub, consumers := consumers, held := held } := by
  have hring := Publication.sameRing_of_step hs hconn
  have hkept : ∀ n, e ≠ .prod (.reallocate n) := by
    rintro n rfl
    cases hconn _ rfl
  refine h.besides (h.pool.congr hring.pool hring.sys hring.hostViews hs hkept) hring.nextIndex ?_ hmapped
    hheld
  -- none of these publishes adds a frame
  obtain ⟨haccepted, -⟩ | ⟨now, d, syncFd, rfl, hcheck, -⟩ := Publication.accepted_of_step hs
  · exact haccepted
  · exact absurd hcheck (hrefused now d syncFd rfl)

/-- **Every event keeps the invariant.** -/
theorem step (h : s.Inv files) {e : RingEv R} (hs : s.step build e = some s') : s'.Inv files := by
  cases step_cases hs with
  | acquire pub hphase hpub => exact h.acquire hpub
  | write x b t m ht hview hx => exact h.write ht hview x b
  -- a refused publish ends the turn without a frame
  | refuse now d syncFd pub err hcheck hpub =>
      refine h.published hpub nofun ?_ h.mapped h.held
      rintro now' d' syncFd' ⟨⟩ hnone
      cases hcheck.symm.trans hnone
  | accept now d syncFd pub t ht hindex hcheck hpub => exact h.accept ht hindex hcheck hpub
  | pub e pub consumers hby hpub hsubs =>
      refine h.published hpub ?_ ?_ (fun r => ?_) h.held
      · rintro e' rfl
        exact hby
      · rintro now d syncFd rfl
        cases hby
      · rw [hsubs r]
        exact h.mapped r
  -- the FDs of the new bundle are those of the pool
  | waitHandshake r link ans connect hlink =>
      refine h.besides h.pool rfl rfl (h.mapped_update r ?_) (h.held_update r nofun)
      rw [Waiter.setSub_subs_self]
      exact (h.mapped r).waitHandshake (fun header fs ext hsent => h.pool.sent hsent) hlink build ans
  | silent r e w haccess hw =>
      exact h.besides h.pool rfl rfl (h.mapped_update r ((h.mapped r).same (hw.sameAttachment ()).1)) h.held
  -- what the consumer holds grows by the view it has just been given
  | access r e w i a pub haccess hw hpub =>
      exact h.published hpub nofun nofun (h.mapped_update r ((h.mapped r).same (hw.sameAttachment ()).1))
        (h.held_update r (h.heldAfter r e))
  | load r p k b hheld hmem => exact h

/-- The invariant holds throughout every run. -/
theorem of_run {tr : List (RingEv R)} (h : (ringMachine R build).Run tr s) : ∃ files, s.Inv files :=
  h.invariant (P := fun _ s => ∃ files, s.Inv files) (fun s hs => ⟨s.files, of_init hs⟩)
    fun _ _ _ _ _ ⟨files, h⟩ hs => ⟨files, h.step hs⟩

omit [DecidableEq R] in
/-- A buffer keeps what it held when its frame was accepted, until the ring comes round to it. -/
theorem payload_kept (h : s.Inv files) {f : RingFrame} (hf : f ∈ s.frames)
    (hdepth : s.pub.prod.pub.nextIndex ≤ f.turn + files.length) :
    bufferOf files s.mem f.desc.boHandle = f.payload := by
  obtain ⟨tr, hrun⟩ := h.lap
  rw [(h.frames f hf).handle]
  exact (LapRing.inv_of_run hrun).in_cell (f.turn, f.payload) (List.mem_map_of_mem hf) hdepth

end Inv

/-! ## The frames behind the views -/

omit [DecidableEq R] in
/-- The view recorded is the one that `latest_view` returns. -/
theorem heldAfter_of_fresh (s : Ring R) (r : R) {d : TensorDescriptor} (notify : UInt32) (retries : ℕ)
    (now : UInt64) (hmeta : ((s.consumers r).subs ()).metadata ≠ none)
    (hacc : ((s.consumers r).subs ()).Accepts d) : ∃ v,
      (((s.consumers r).subs ()).latestView notify (some d) retries now).1 = some v ∧
        s.heldAfter r (.viewRet () (some d) retries now) = s.held r ++ [⟨d, v⟩] := by
  refine ⟨((s.consumers r).subs ()).viewOf d retries now, ?_, if_pos ⟨hmeta, hacc⟩⟩
  obtain ⟨ch, hch⟩ := Option.ne_none_iff_exists'.mp hmeta
  rw [TensorSubscriber.latestView, hch]
  show (TensorSubscriber.handOut _ _ (some d) retries now).1 = _
  rw [TensorSubscriber.handOut, if_pos hacc]

/-- Every view held is that of a frame accepted, the one of its number. -/
def OfFrames (s : Ring R) : Prop :=
  ∀ r, ∀ v ∈ s.held r, ∃ m f, s.frames[m]? = some f ∧ f.desc = v.desc ∧ v.view.seqno = m + 1

omit [DecidableEq R] in
/-- Frames are only added. -/
theorem OfFrames.mono (h : s.OfFrames) (hheld : s'.held = s.held) (hframes : s.frames <+: s'.frames) :
    s'.OfFrames := by
  intro r v hv
  rw [hheld] at hv
  obtain ⟨m, f, hf, hdesc, hseqno⟩ := h r v hv
  obtain ⟨hlt, rfl⟩ := List.getElem?_eq_some_iff.mp hf
  exact ⟨m, _, List.prefix_iff_getElem?.mp hframes m hlt, hdesc, hseqno⟩

/-- **What `read_latest` returns is a frame that has been accepted**, the one of its number. -/
theorem frame_of_read {tr : List (RingEv R)} (hrun : (ringMachine R build).Run tr s)
    (hwrap : NoGuardWrap (slotTrace (pubTrace tr))) {pub : Publication R} {r : R} {d : TensorDescriptor} {k : ℕ}
    (hs : s.pub.step (.slot (.rd r (.ret (some d) k))) = some pub) :
    ∃ m f, s.frames[m]? = some f ∧ f.desc = d ∧ d.seqno = m + 1 := by
  have hpub := pub_run hrun
  -- `read_latest` returns what its last attempt has decoded
  have hread : s.pub.slot.readers r = .done (some d) k := by
    cases Publication.step_cases hs with
    | access a slot hcall hret hslot =>
        cases SlotState.step_cases hslot with
        | rd hc =>
            generalize s.pub.slot.readers r = pc at hc
            cases hc
            rfl
  have hinv := ReaderInv.of_run (Publication.slot_run hpub) hwrap r
  rw [hread] at hinv
  obtain ⟨c, n, m, -, hrecent⟩ := hinv
  obtain ⟨hm, hseqno⟩ := (Publication.Numbers.of_run hpub).of_arg hrecent.arg
  obtain ⟨files, h⟩ := Inv.of_run hrun
  -- what has been published has been accepted
  have hdesc : (s.frames.map (·.desc))[m]? = some d := by
    rw [h.accepted, Publication.accepted, List.getElem?_append_left (List.getElem?_eq_some_iff.mp hm).1, hm]
  rw [List.getElem?_map] at hdesc
  obtain ⟨f, hf, rfl⟩ := Option.map_eq_some_iff.mp hdesc
  exact ⟨m, f, hf, rfl, hseqno⟩

/-- The views held, after a consumer has been given those in `views`. -/
theorem OfFrames.update (h : s.OfFrames) (r : R) {views : List HeldView} {pub : Publication R}
    {consumers : R → Waiter Unit} (hviews : ∀ v ∈ views, ∃ m f, s.frames[m]? = some f ∧ f.desc = v.desc ∧
      v.view.seqno = m + 1) :
    OfFrames { s with pub := pub, consumers := consumers, held := Function.update s.held r views } := by
  show ∀ r', ∀ v ∈ Function.update s.held r views r', _
  rw [Function.forall_update_iff s.held fun _ vs => ∀ v ∈ vs, ∃ m f, s.frames[m]? = some f ∧ f.desc = v.desc ∧
    v.view.seqno = m + 1]
  exact ⟨hviews, fun r' _ => h r'⟩

/-- **A step keeps what was read to the frames published.** -/
theorem ofFrames_step {tr : List (RingEv R)} (hrun : (ringMachine R build).Run tr s)
    (hwrap : NoGuardWrap (slotTrace (pubTrace tr))) (h : s.OfFrames) {e : RingEv R}
    (hs : s.step build e = some s') : s'.OfFrames := by
  cases step_cases hs with
  | acquire | write | refuse | pub | silent => exact h.mono rfl List.prefix_rfl
  | accept => exact h.mono rfl (List.prefix_append _ _)
  | waitHandshake r link ans connect hlink => exact h.update r nofun
  | load => exact h
  | access r e w i a pub haccess hw hpub =>
      refine h.update r fun v hv => ?_
      unfold heldAfter at hv
      -- only a read that has found a frame hands out a view
      split at hv
      · rename_i i d retries now
        split_ifs at hv
        · rcases List.mem_append.mp hv with hv | hv
          · exact h r v hv
          -- the view is of the frame that the slot's history has at this read
          · rw [List.mem_singleton.mp hv]
            cases haccess
            exact frame_of_read hrun hwrap hpub
        · exact h r v hv
      · exact h r v hv

/-- **In every run** what a reader holds is a frame that was published. -/
theorem ofFrames_of_run {tr : List (RingEv R)} (h : (ringMachine R build).Run tr s)
    (hwrap : NoGuardWrap (slotTrace (pubTrace tr))) : s.OfFrames := by
  refine h.invariant (P := fun tr s => NoGuardWrap (slotTrace (pubTrace tr)) → s.OfFrames)
    (fun s hs _ r v hv => ?_) (fun tr s e s' hrun h hs hwrap => ?_) hwrap
  · obtain ⟨-, -, -, -, -, hconsumers⟩ := hs
    rw [(hconsumers r).2] at hv
    cases hv
  · have hwrap : NoGuardWrap (slotTrace (pubTrace tr)) := by
      rw [pubTrace, List.filterMap_append, slotTrace, List.filterMap_append] at hwrap
      exact hwrap.of_append
    exact ofFrames_step hrun hwrap (h hwrap) hs

end Ring

/-- **Ring depth buys untorn payloads.** In every run of the owner and its consumers, a fresh view is that of
the frame of its number, if the guard does not wrap within one attempt to read it. And whatever byte is read
through the view of a frame is what the buffer held when the frame was accepted, the byte written for the
frame where one was written, as long as fewer than `n` descriptors have been acquired, in a pool of `n`
buffers, after the one that the frame stems from. -/
theorem ring_depth_buys_untorn_payloads {R : Type} [DecidableEq R] {build : BuildConfig}
    {tr : List (RingEv R)} {s : Ring R} (hrun : (ringMachine R build).Run tr s) :
    (NoGuardWrap (slotTrace (Ring.pubTrace tr)) → ∀ r, ∀ v ∈ s.held r,
      ∃ m f, s.frames[m]? = some f ∧ f.desc = v.desc ∧ v.view.seqno = m + 1) ∧
    ∀ r v f p k b s', v ∈ s.held r → f ∈ s.frames → f.desc = v.desc → p ∈ v.view.ptrs →
      s.pub.prod.pub.nextIndex ≤ f.turn + s.pub.prod.pool.dmaBufFds.length →
      s.step build (.load r p k b) = some s' →
      b = f.payload (v.desc.offset.toNat + k) ∧ ∀ c, f.written (v.desc.offset.toNat + k) = some c → b = c := by
  refine ⟨fun hwrap => Ring.ofFrames_of_run hrun hwrap, fun r v f p k b s' hv hf hdesc hp hdepth hs => ?_⟩
  obtain ⟨files, h⟩ := Ring.Inv.of_run hrun
  obtain ⟨hoffset, hfile⟩ := h.held r v hv p hp
  rw [h.pool.length_eq] at hdepth
  have hkept := h.payload_kept hf hdepth
  rw [hdesc, bufferOf, hfile] at hkept
  have hkept : s.mem p.region.file = f.payload := hkept
  -- the pointer of the view leads to the buffer that the frame names
  have hb : b = f.payload (v.desc.offset.toNat + k) := by
    cases Ring.step_cases hs with
    | load _ _ _ _ hheld hmem => rw [← hmem, hkept, hoffset]
  refine ⟨hb, fun c hc => ?_⟩
  rw [hb]
  exact (h.frames f hf).written _ c hc

/-- A producer with two buffers, and a consumer that has not attached. -/
def twoBuffers (prod : Producer) : Ring Unit where
  pub := ⟨prod, .idle, .initial⟩
  mem _ _ := 0
  turn := none
  frames := []
  consumers _ := ⟨fun _ => .create, .idle⟩
  held _ := []

/-- An access of `publish` to the slot. -/
def publishAccess (e : PublishEv) : RingEv Unit := .pub (.slot (.pub e))

/-- An access of `read_latest` to the slot. -/
def readAccess (e : ReadEv) : RingEv Unit := .wait () (.read () e)

/-- The consumer connects, and the owner publishes a frame with the byte `7`. -/
def publishSeven (desc : TensorDescriptor) : List (RingEv Unit) :=
  ([.pub (.prod (.connect 0 4096 true)), .pub (.prod .handshake), .acquire, .write 0 7,
    .publish desc.producerPublishTsNs (.bytesFrame 16 .None) none, .pub .sendFence] : List (RingEv Unit)) ++
    (publishAccesses desc).map publishAccess ++ [RingEv.pub .pickUp]

/-- The consumer attaches and takes the frame, while the owner fills the next buffer. -/
def takeWhileFilling (desc : TensorDescriptor) : List (RingEv Unit) :=
  ([.waitHandshake () (.bundle 0 [] 1) (.obliging fun _ => true), .acquire, .wait () (.viewCall () 0)] :
    List (RingEv Unit)) ++ (readAccesses desc).tail.dropLast.map readAccess ++
    [RingEv.write 0 9, RingEv.wait () (.viewRet () (some desc) 0 9)]

/-- The consumer then reads the byte of its frame. -/
theorem ring_depth_buys_untorn_payloads_nextFilling : ∃ (s : Ring Unit) (p : PayloadPtr),
    (∃ s', s.step ⟨false, false⟩ (.load () p 0 7) = some s') ∧
    ∀ b s', s.step ⟨false, false⟩ (.load () p 0 b) = some s' → b = 7 := by
  obtain ⟨prod, hprod⟩ : ∃ prod,
      Producer.create ⟨false, false⟩ { TensorPoolConfig.oneBuffer 4096 with nBuffers := 2 } .obliging =
        some prod := ⟨_, rfl⟩
  let desc := prod.pub.stamp prod.pool 7 (.bytesFrame 16 .None)
  -- the view is of the frame published, and the buffer has not come round
  have hexec : ((ringMachine Unit ⟨false, false⟩).exec (twoBuffers prod)
      (publishSeven desc ++ takeWhileFilling desc)).bind (fun s =>
        (s.held ())[0]?.bind fun v => s.frames[0]?.bind fun f => v.view.data.map fun p =>
          (decide (f.desc = v.desc), decide (s.pub.prod.pub.nextIndex ≤ f.turn +
            s.pub.prod.pool.dmaBufFds.length), f.written (v.desc.offset.toNat + 0),
            (s.step ⟨false, false⟩ (.load () p 0 7)).isSome)) = some (true, true, some 7, true) := by
    cases hprod
    decide +kernel
  obtain ⟨s, hs, hres⟩ := Option.bind_eq_some_iff.mp hexec
  obtain ⟨v, hv, hres⟩ := Option.bind_eq_some_iff.mp hres
  obtain ⟨f, hf, hres⟩ := Option.bind_eq_some_iff.mp hres
  obtain ⟨p, hp, hres⟩ := Option.map_eq_some_iff.mp hres
  simp only [Prod.mk.injEq] at hres
  obtain ⟨hdesc, hdepth, hwritten, hload⟩ := hres
  have hrun : (ringMachine Unit ⟨false, false⟩).Run (publishSeven desc ++ takeWhileFilling desc) s :=
    .of_exec ⟨⟨_, _, _, Sys.sound_obliging, hprod⟩, rfl, rfl, rfl, rfl, fun _ => ⟨rfl, rfl⟩⟩ hs
  have hptr : p ∈ v.view.ptrs := List.mem_append_left _ (Option.mem_toList.mpr hp)
  refine ⟨s, p, Option.isSome_iff_exists.mp hload, fun b s' hs' => ?_⟩
  exact ((ring_depth_buys_untorn_payloads hrun).2 () v f p 0 b s' (List.mem_of_getElem? hv)
    (List.mem_of_getElem? hf) (of_decide_eq_true hdesc) hptr (of_decide_eq_true hdepth) hs').2 7 hwritten

end Axon
