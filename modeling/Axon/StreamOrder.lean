import Axon.Stream

/-! # Staleness and order of the views of one consumer

`views_staleness_and_order`: however publishes, fence drains and reads interleave, every view returned tells
the age of its own frame, and the views never go back in time. -/

namespace Axon

open Foundation

namespace Stream

/-! ## The publisher's side -/

/-- How the slot and the frames accepted agree in each phase of `publish`. -/
def Agrees (s : Stream) : PublishPhase → Prop
  | .idle | .written => s.frames.map (·.desc) = s.slot.values ∧ s.slot.writer = .idle ∧
      s.prod.pub.seqno = s.frames.length
  | .stamped desc _ => s.frames.map (·.desc) = s.slot.values ∧ s.slot.writer = .idle ∧
      s.prod.pub.seqno = s.frames.length + 1 ∧ desc.seqno = s.frames.length + 1 ∧
      desc.producerPublishTsNs ≤ s.now
  | .fenced desc => s.frames.map (·.desc) = s.slot.values ++ [desc] ∧ s.slot.writer = .idle ∧
      s.prod.pub.seqno = s.frames.length
  | .writing desc => s.prod.pub.seqno = s.frames.length ∧ desc ∈ s.frames.map (·.desc) ∧
      (s.slot.writer = .writing desc ∧ s.frames.map (·.desc) = s.slot.values ++ [desc] ∨
        s.slot.writer = .committed ∧ s.frames.map (·.desc) = s.slot.values)

/-- **The publisher's side of the invariant**: the frames are numbered from one, stamped in the past, and
committed to the slot in this order. -/
structure Publishes (s : Stream) : Prop where
  slot : RegisterInv s.slot
  numbered : ∀ i f, s.frames[i]? = some f → f.desc.seqno = i + 1
  stamped : ∀ f ∈ s.frames, f.desc.producerPublishTsNs ≤ s.now
  agrees : s.Agrees s.phase

namespace Publishes

variable {s : Stream}

/-- What has been committed to the slot are the oldest frames. -/
theorem values_prefix (h : s.Publishes) : s.slot.values <+: s.frames.map (·.desc) := by
  have ha := h.agrees
  cases hphase : s.phase with
  | idle | written | stamped desc syncFd =>
      rw [hphase] at ha
      rw [ha.1]
  | fenced desc =>
      rw [hphase] at ha
      rw [ha.1]
      exact List.prefix_append _ _
  | writing desc =>
      rw [hphase] at ha
      rcases ha.2.2 with ⟨-, heq⟩ | ⟨-, heq⟩
      · rw [heq]
        exact List.prefix_append _ _
      · rw [heq]

/-- A value in the slot is the frame of its sequence number. -/
theorem frame_of_value (h : s.Publishes) {i : ℕ} {d : TensorDescriptor} (hd : s.slot.values[i]? = some d) :
    ∃ f, s.frames[i]? = some f ∧ f.desc = d ∧ d.seqno = i + 1 := by
  have hmap : (s.frames.map (·.desc))[i]? = some d := by
    obtain ⟨hi, rfl⟩ := List.getElem?_eq_some_iff.mp hd
    exact List.prefix_iff_getElem?.mp h.values_prefix i hi
  rw [List.getElem?_map] at hmap
  obtain ⟨f, hf, rfl⟩ := Option.map_eq_some_iff.mp hmap
  exact ⟨f, hf, rfl, h.numbered i f hf⟩

/-- Two frames with the same sequence number are the same. -/
theorem frame_unique (h : s.Publishes) {f g : Frame} (hf : f ∈ s.frames) (hg : g ∈ s.frames)
    (heq : f.desc.seqno = g.desc.seqno) : f = g := by
  obtain ⟨i, hi⟩ := List.mem_iff_getElem?.mp hf
  obtain ⟨j, hj⟩ := List.mem_iff_getElem?.mp hg
  rw [h.numbered i f hi, h.numbered j g hj, Nat.add_right_cancel_iff] at heq
  rw [heq, hj] at hi
  exact (Option.some.inj hi).symm

/-- What the consumer does and what the producer does outside `publish` leave the publisher's side alone. -/
theorem congr (h : s.Publishes) {s' : Stream} (hframes : s'.frames = s.frames)
    (hphase : s'.phase = s.phase) (hseqno : s'.prod.pub.seqno = s.prod.pub.seqno)
    (hnow : s.now ≤ s'.now) (hslot : RegisterInv s'.slot) (hvalues : s'.slot.values = s.slot.values)
    (hwriter : s'.slot.writer = s.slot.writer) : s'.Publishes where
  slot := hslot
  numbered i f hf := h.numbered i f (hframes ▸ hf)
  stamped f hf := UInt64.le_trans (h.stamped f (hframes ▸ hf)) hnow
  agrees := by
    have ha := h.agrees
    rw [hphase]
    unfold Agrees at ha ⊢
    rw [hframes, hvalues, hwriter, hseqno]
    -- the time of the frame being stamped only falls behind
    cases hs : s.phase with
    | stamped desc syncFd =>
        rw [hs] at ha
        obtain ⟨hf, hw, hn, hd, hts⟩ := ha
        exact ⟨hf, hw, hn, hd, UInt64.le_trans hts hnow⟩
    | idle | fenced desc | writing desc | written =>
        rw [hs] at ha
        exact ha

/-- **Every event keeps the publisher's side of the invariant.** -/
theorem step {build : BuildConfig} {e : StreamEv} {s' : Stream} (h : s.Publishes)
    (hs : s.step build e = some s') : s'.Publishes := by
  have ha := h.agrees
  cases step_cases build hs with
  | tick now hnow => exact h.congr rfl rfl rfl hnow h.slot rfl rfl
  | prod e prod he hprod =>
      exact h.congr rfl rfl (Producer.sameRecord_of_step he hprod).seqno (UInt64.le_refl _) h.slot rfl rfl
  | refuse | attach | drainCall | drainOne | drainRet | viewRet =>
      exact h.congr rfl rfl rfl (UInt64.le_refl _) h.slot rfl rfl
  | stamp d syncFd hphase hcheck =>
      rw [hphase] at ha
      obtain ⟨hframes, hwriter, hseqno⟩ := ha
      refine ⟨h.slot, h.numbered, h.stamped, hframes, hwriter, ?_, ?_, UInt64.le_refl _⟩
      · exact congrArg (· + 1) hseqno
      · exact congrArg (· + 1) hseqno
  | sendFence desc syncFd pub hphase hsend =>
      rw [hphase] at ha
      obtain ⟨hframes, hwriter, hseqno, hdesc, hts⟩ := ha
      obtain ⟨clients, rfl, -⟩ := TensorPublisher.sendFence_spec hsend
      refine ⟨h.slot, fun i f hf => ?_, fun f hf => ?_, ?_, hwriter, ?_⟩
      · rcases Nat.lt_trichotomy i s.frames.length with hlt | rfl | hgt
        · rw [List.getElem?_append_left hlt] at hf
          exact h.numbered i f hf
        · rw [List.getElem?_append_right le_rfl, Nat.sub_self] at hf
          obtain rfl := Option.some.inj hf
          exact hdesc
        · rw [List.getElem?_eq_none (by simp; omega)] at hf
          cases hf
      · rcases List.mem_append.mp hf with hf | hf
        · exact h.stamped f hf
        · rw [List.mem_singleton.mp hf]
          exact hts
      · show List.map Frame.desc (s.frames ++ [_]) = _
        rw [List.map_append, hframes]
        rfl
      · show s.prod.pub.seqno = (s.frames ++ [_]).length
        rw [hseqno, List.length_append]
        rfl
  | beginWrite desc slot hphase hslot =>
      rw [hphase] at ha
      obtain ⟨hframes, hwriter, hseqno⟩ := ha
      refine ⟨h.slot.step hslot, h.numbered, h.stamped, hseqno, ?_, .inl ?_⟩
      · show desc ∈ s.frames.map (·.desc)
        rw [hframes]
        exact List.mem_append_right _ (List.mem_singleton_self desc)
      cases Register.step_cases hslot
      exact ⟨rfl, hframes⟩
  | commitWrite slot hslot =>
      refine ⟨h.slot.step hslot, h.numbered, h.stamped, ?_⟩
      cases Register.step_cases hslot with
      | commit v hv =>
          -- the slot is being written only in the phase that writes it
          show Agrees _ s.phase
          cases hphase : s.phase with
          | writing desc =>
              rw [hphase] at ha
              obtain ⟨hseqno, hmem, ⟨hwriter, hframes⟩ | ⟨hwriter, hframes⟩⟩ := ha
              · cases hwriter.symm.trans hv
                exact ⟨hseqno, hmem, .inr ⟨rfl, hframes⟩⟩
              · cases hwriter.symm.trans hv
          | idle | stamped desc syncFd | fenced desc | written =>
              rw [hphase] at ha
              cases ha.2.1.symm.trans hv
  | finishWrite desc slot hphase hslot =>
      rw [hphase] at ha
      refine ⟨h.slot.step hslot, h.numbered, h.stamped, ?_⟩
      cases Register.step_cases hslot with
      | finish hv =>
          obtain ⟨hseqno, -, ⟨hwriter, hframes⟩ | ⟨hwriter, hframes⟩⟩ := ha
          · cases hwriter.symm.trans hv
          · exact ⟨hframes, rfl, hseqno⟩
  | pickUp pub hphase hpick =>
      rw [hphase] at ha
      obtain ⟨hframes, hwriter, hseqno⟩ := ha
      exact ⟨h.slot, h.numbered, h.stamped, hframes, hwriter,
        (TensorPublisher.pickUpConsumers_sameRecord hpick).seqno.trans hseqno⟩
  | viewCall maxRetry slot hcall hslot =>
      have hinv := h.slot.step hslot
      cases Register.step_cases hslot
      exact h.congr rfl rfl rfl (UInt64.le_refl _) hinv rfl rfl
  | readRet res slot hcall hslot =>
      have hinv := h.slot.step hslot
      cases Register.step_cases hslot
      exact h.congr rfl rfl rfl (UInt64.le_refl _) hinv rfl rfl

end Publishes

/-! ## The consumer's side -/

/-- The view returned at clock `p.1` tells the age of the frame of its own sequence number. -/
def TellsAge (s : Stream) (p : UInt64 × TensorView) : Prop :=
  ∃ f ∈ s.frames, f.desc.seqno = p.2.seqno ∧ f.desc.producerPublishTsNs ≤ p.1 ∧
    p.2.stalenessNs = p.1 - f.desc.producerPublishTsNs

/-- Of two views, the second does not go back in time. -/
def InOrder (p q : UInt64 × TensorView) : Prop :=
  p.2.seqno ≤ q.2.seqno ∧ (p.2.seqno = q.2.seqno → p.2.stalenessNs ≤ q.2.stalenessNs)

/-- **The consumer's side of the invariant**: nothing that has been returned or may still be is newer than
the slot, or older than the last good frame. -/
structure Views (s : Stream) : Prop where
  good : ∀ v, s.sub.lastGood = some v → ∃ f ∈ s.frames, v.seqno = f.desc.seqno ∧
    v.seqno ≤ s.slot.values.length ∧ s.sub.lastGoodPublishTsNs = f.desc.producerPublishTsNs
  reading : s.call = .reading → ∃ p, s.slot.readers () = some p ∧
    ∀ v, s.sub.lastGood = some v → v.seqno ≤ p.floor
  read : ∀ d, s.call = .read (some d) → d ∈ s.slot.values ∧
    ∀ v, s.sub.lastGood = some v → v.seqno ≤ d.seqno
  silent : s.call = .detached → s.returned = []
  returned : ∀ p ∈ s.returned, s.TellsAge p ∧ p.1 ≤ s.now ∧
    ∃ v, s.sub.lastGood = some v ∧ p.2.seqno ≤ v.seqno
  ordered : s.returned.Pairwise InOrder

namespace Views

variable {s : Stream}

/-- More frames, more committed values and a later clock. -/
theorem mono (h : s.Views) {s' : Stream} (hframes : s.frames <+: s'.frames)
    (hvalues : s.slot.values <+: s'.slot.values) (hnow : s.now ≤ s'.now) (hsub : s'.sub = s.sub)
    (hcall : s'.call = s.call) (hreturned : s'.returned = s.returned)
    (hreaders : ∀ p, s.slot.readers () = some p → ∃ p', s'.slot.readers () = some p' ∧
      p'.floor = p.floor) : s'.Views where
  -- what has been said of old frames stays true of a longer history
  good v hv := by
    rw [hsub] at hv ⊢
    obtain ⟨f, hf, heq, hle, hts⟩ := h.good v hv
    exact ⟨f, hframes.subset hf, heq, hle.trans hvalues.length_le, hts⟩
  reading hc := by
    obtain ⟨p, hp, hfloor⟩ := h.reading (hcall ▸ hc)
    obtain ⟨p', hp', heq⟩ := hreaders p hp
    refine ⟨p', hp', fun v hv => ?_⟩
    rw [heq]
    exact hfloor v (hsub ▸ hv)
  read d hd := by
    obtain ⟨hmem, hle⟩ := h.read d (hcall ▸ hd)
    exact ⟨hvalues.subset hmem, fun v hv => hle v (hsub ▸ hv)⟩
  silent hc := hreturned.trans (h.silent (hcall ▸ hc))
  returned p hp := by
    obtain ⟨⟨f, hf, hage⟩, hle, hgood⟩ := h.returned p (hreturned ▸ hp)
    exact ⟨⟨f, hframes.subset hf, hage⟩, UInt64.le_trans hle hnow, hsub ▸ hgood⟩
  ordered := hreturned ▸ h.ordered

/-- A view that shows the last good frame, or a newer one that becomes the last good, may be returned. -/
theorem snoc (h : s.Views) (hp : s.Publishes) {sub : TensorSubscriber} {v v₀ : TensorView} {f : Frame}
    (hgood : sub.lastGood = some v₀) (hsame : v₀.seqno = v.seqno) (hf : f ∈ s.frames)
    (hseqno : v.seqno = f.desc.seqno) (hle : v.seqno ≤ s.slot.values.length)
    (hts : sub.lastGoodPublishTsNs = f.desc.producerPublishTsNs)
    (hstale : v.stalenessNs = s.now - f.desc.producerPublishTsNs)
    (hnewer : ∀ v', s.sub.lastGood = some v' → v'.seqno ≤ v.seqno) :
    Views { s with
      sub := sub
      call := .idle
      returned := s.returned ++ [(s.now, v)] } where
  good v' hv' := by
    obtain rfl : v₀ = v' := Option.some.inj (hgood.symm.trans hv')
    exact ⟨f, hf, hsame.trans hseqno, hsame.trans_le hle, hts⟩
  reading := nofun
  read := nofun
  silent := nofun
  returned p hmem := by
    rcases List.mem_append.mp hmem with hmem | hmem
    · obtain ⟨hage, hnow, v', hv', hle'⟩ := h.returned p hmem
      exact ⟨hage, hnow, v₀, hgood, hle'.trans ((hnewer v' hv').trans hsame.ge)⟩
    · rw [List.mem_singleton.mp hmem]
      exact ⟨⟨f, hf, hseqno.symm, hp.stamped f hf, hstale⟩, UInt64.le_refl _, v₀, hgood, hsame.ge⟩
  ordered := by
    refine List.pairwise_append.mpr ⟨h.ordered, List.pairwise_singleton _ _, fun p hmem q hq => ?_⟩
    rw [List.mem_singleton.mp hq]
    obtain ⟨⟨g, hg, hgseqno, hgts, hgstale⟩, hnow, v', hv', hle'⟩ := h.returned p hmem
    refine ⟨hle'.trans (hnewer v' hv'), fun heq => ?_⟩
    -- the same frame, seen later
    obtain rfl : g = f := hp.frame_unique hg hf (hgseqno.trans (heq.trans hseqno))
    show p.2.stalenessNs ≤ v.stalenessNs
    rw [hgstale, hstale, UInt64.le_iff_toNat_le, UInt64.toNat_sub_of_le _ _ hgts,
      UInt64.toNat_sub_of_le _ _ (hp.stamped g hg)]
    exact Nat.sub_le_sub_right (UInt64.le_iff_toNat_le.mp hnow) _

/-- Outside `latest_view` only the last good frame matters. -/
theorem outside (h : s.Views) {sub : TensorSubscriber} {call : ConsumerPhase} {received : List (List Fd)}
    (hgood : sub.lastGood = s.sub.lastGood)
    (hts : sub.lastGoodPublishTsNs = s.sub.lastGoodPublishTsNs)
    (hcall : call = .idle ∨ call = .draining) :
    Views { s with
      sub := sub
      call := call
      received := received } where
  good v hv := by
    obtain ⟨f, hf, heq, hle, hfts⟩ := h.good v (hgood ▸ hv)
    exact ⟨f, hf, heq, hle, hts.trans hfts⟩
  -- outside a read there is nothing that was read
  reading hc := by rcases hcall with rfl | rfl <;> cases hc
  read d hd := by rcases hcall with rfl | rfl <;> cases hd
  silent hc := by rcases hcall with rfl | rfl <;> cases hc
  returned p hp := by
    obtain ⟨hage, hnow, hgood'⟩ := h.returned p hp
    exact ⟨hage, hnow, hgood.symm ▸ hgood'⟩
  ordered := h.ordered

/-- Attaching forgets the last good frame before any view has been returned. -/
theorem attach (h : s.Views) (hcall : s.call = .detached) {sub : TensorSubscriber}
    (hgood : sub.lastGood = none) :
    Views { s with
      sub := sub
      call := .idle
      received := [sub.fds] } where
  good v hv := by cases hgood.symm.trans hv
  reading := nofun
  read := nofun
  silent := nofun
  returned p hp := by
    rw [h.silent hcall] at hp
    cases hp
  ordered := h.ordered

/-- **Every event keeps the consumer's side of the invariant.** -/
theorem step {build : BuildConfig} {e : StreamEv} {s' : Stream} (h : s.Views) (hp : s.Publishes)
    (hs : s.step build e = some s') : s'.Views := by
  have hkept : ∀ p, s.slot.readers () = some p → ∃ p', s.slot.readers () = some p' ∧
      p'.floor = p.floor := fun p hp => ⟨p, hp, rfl⟩
  cases step_cases build hs with
  | tick now hnow => exact h.mono List.prefix_rfl List.prefix_rfl hnow rfl rfl rfl hkept
  | prod | refuse | stamp | pickUp =>
      exact h.mono List.prefix_rfl List.prefix_rfl (UInt64.le_refl _) rfl rfl rfl hkept
  | sendFence =>
      exact h.mono (List.prefix_append _ _) List.prefix_rfl (UInt64.le_refl _) rfl rfl rfl hkept
  | beginWrite desc slot hphase hslot =>
      cases Register.step_cases hslot
      -- a write that begins lets the reads under way miss
      refine h.mono List.prefix_rfl List.prefix_rfl (UInt64.le_refl _) rfl rfl rfl fun p hp => ?_
      exact ⟨{ p with mayMiss := true }, congrArg (Option.map fun p => { p with mayMiss := true }) hp, rfl⟩
  | commitWrite slot hslot =>
      cases Register.step_cases hslot
      exact h.mono List.prefix_rfl (List.prefix_append _ _) (UInt64.le_refl _) rfl rfl rfl hkept
  | finishWrite desc slot hphase hslot =>
      cases Register.step_cases hslot
      exact h.mono List.prefix_rfl List.prefix_rfl (UInt64.le_refl _) rfl rfl rfl hkept
  | attach pieces ans m segs sub hcall hm hsegs hsub =>
      obtain ⟨stream, hdr, received, ext, client, s₁, -, -, rfl, hopen⟩ :=
        TensorSubscriber.waitHandshake_ok hsub
      refine h.attach hcall ?_
      have hgood := (TensorSubscriber.openMetadata_spec ((TensorSubscriber.adopt
        { s.sub.reconnect stream with client := client } hdr received).attach build hdr ext
          { ans with connect := some segs }) { ans with connect := some segs }).2
      rw [hopen] at hgood
      exact hgood.trans (TensorSubscriber.attach_lastGood _ build hdr ext _)
  | drainCall hcall => exact h.outside rfl rfl (.inr rfl)
  | drainOne pieces m segs hcall hm hsegs =>
      refine h.outside rfl rfl ?_
      split_ifs
      · exact .inr rfl
      · exact .inl rfl
  | drainRet hcall hall => exact h.outside rfl rfl (.inl rfl)
  | viewCall maxRetry slot hcall hslot =>
      cases Register.step_cases hslot with
      | readCall r willing hr =>
          refine ⟨h.good, fun _ => ?_, nofun, nofun, h.returned, h.ordered⟩
          -- what has been handed out before bounds what the read may return
          refine ⟨_, Function.update_self () _ s.slot.readers, fun v hv => ?_⟩
          obtain ⟨f, -, -, hle, -⟩ := h.good v hv
          exact hle
  | readRet res slot hcall hslot =>
      obtain ⟨p, hp', hfloor⟩ := h.reading hcall
      cases Register.step_cases hslot with
      | readRet r res' p' hr hres =>
          obtain rfl : p = p' := Option.some.inj (hp'.symm.trans hr)
          refine ⟨h.good, nofun, fun d hd => ?_, nofun, h.returned, h.ordered⟩
          cases hd
          obtain ⟨m, hm, hle⟩ := hres.exists_index
          obtain ⟨-, -, -, hseqno⟩ := hp.frame_of_value hm
          refine ⟨List.mem_of_getElem? hm, fun v hv => ?_⟩
          rw [hseqno]
          exact (hfloor v hv).trans hle
  | viewRet notify retries res hcall =>
      have hc := s.sub.latestView_cases notify res retries s.now
      generalize s.sub.latestView notify res retries s.now = r at hc ⊢
      cases hc with
      | detached _ =>
          rw [Option.map_none, Option.toList_none, List.append_nil]
          exact h.outside rfl rfl (.inl rfl)
      | fresh _ desc hdesc hacc notify_now =>
          -- a fresh frame is no older than the last one
          obtain ⟨hmem, hnewer⟩ := h.read desc (hdesc ▸ hcall)
          obtain ⟨i, hi⟩ := List.mem_iff_getElem?.mp hmem
          obtain ⟨f, hf, rfl, hseqno⟩ := hp.frame_of_value hi
          have hlt := (List.getElem?_eq_some_iff.mp hi).1
          exact h.snoc hp rfl rfl (List.mem_of_getElem? hf) rfl (hseqno.trans_le hlt) rfl rfl hnewer
      | fallback _ =>
          cases hv : s.sub.fallbackView retries s.now with
          | none =>
              simp only [TensorSubscriber.fallBack, hv, Option.map_none, Option.toList_none,
                List.append_nil]
              exact h.outside rfl rfl (.inl rfl)
          | some v =>
              -- the last good frame again, with its age
              obtain ⟨v₀, hv₀, rfl⟩ := TensorSubscriber.fallbackView_spec hv
              obtain ⟨f, hf, hseqno, hle, hts⟩ := h.good v₀ hv₀
              simp only [TensorSubscriber.fallBack, hv]
              refine h.snoc hp hv₀ rfl hf hseqno hle hts (congrArg (s.now - ·) hts) fun v' hv' => ?_
              obtain rfl : v₀ = v' := Option.some.inj (hv₀.symm.trans hv')
              exact le_rfl

end Views

/-- **In every run** both sides of the invariant hold. -/
theorem publishes_views_of_run {build : BuildConfig} {tr : List StreamEv} {s : Stream}
    (h : (streamMachine build).Run tr s) : s.Publishes ∧ s.Views := by
  refine h.invariant (P := fun _ s => s.Publishes ∧ s.Views) ?_ ?_
  -- nothing published, nobody attached, no view returned
  · rintro s ⟨⟨build', cfg, sys, hprod⟩, hphase, hslot, hframes, hsub, hcall, -, hreturned⟩
    refine ⟨⟨hslot ▸ .initial, ?_, ?_, ?_⟩, ?_, ?_, ?_, fun _ => hreturned, ?_, ?_⟩
    · simp [hframes]
    · simp [hframes]
    · rw [hphase]
      refine ⟨by rw [hframes, hslot]; rfl, by rw [hslot]; rfl, ?_⟩
      rw [hframes]
      exact (Producer.create_spec hprod).1.seqno
    · rw [hsub]
      exact fun v hv => by cases hv
    · rw [hcall]
      exact nofun
    · rw [hcall]
      exact nofun
    · simp [hreturned]
    · simp [hreturned]
  · intro tr s e s' _ hinv hs
    exact ⟨hinv.1.step hs, hinv.2.step hinv.1 hs⟩

end Stream

/-- **Every view tells the age of its own frame, and the views never go back in time**: each view returned,
fresh or fallback, is of an accepted frame stamped no later than the view was made, and its staleness is
the time between the two; of two views the later one shows no older frame, and the same frame no younger. -/
theorem views_staleness_and_order {build : BuildConfig} {tr : List StreamEv} {s : Stream}
    (hrun : (streamMachine build).Run tr s) :
    (∀ p ∈ s.returned, ∃ f ∈ s.frames, f.desc.seqno = p.2.seqno ∧
      f.desc.producerPublishTsNs ≤ p.1 ∧
      p.2.stalenessNs.toNat = p.1.toNat - f.desc.producerPublishTsNs.toNat) ∧
    s.frames.Pairwise (fun f g => f.desc.seqno < g.desc.seqno) ∧
    s.returned.Pairwise (fun p q => p.2.seqno ≤ q.2.seqno ∧
      (p.2.seqno = q.2.seqno → p.2.stalenessNs ≤ q.2.stalenessNs)) := by
  obtain ⟨hp, hv⟩ := Stream.publishes_views_of_run hrun
  refine ⟨fun p hmem => ?_, ?_, hv.ordered⟩
  · obtain ⟨f, hf, hseqno, hts, hstale⟩ := (hv.returned p hmem).1
    refine ⟨f, hf, hseqno, hts, ?_⟩
    rw [hstale, UInt64.toNat_sub_of_le _ _ hts]
  · refine List.pairwise_iff_getElem.mpr fun i j hi hj hij => ?_
    rw [hp.numbered i _ (List.getElem?_eq_getElem hi), hp.numbered j _ (List.getElem?_eq_getElem hj)]
    exact Nat.succ_lt_succ hij

/-- A frame is handed out, and again when the consumer does not want to read. -/
theorem views_staleness_and_order_fallback : ∃ (s : Stream) (p q : UInt64 × TensorView),
    s.returned = [p, q] ∧ p.1 = 9 ∧ q.1 = 12 ∧ p.2.seqno ≤ q.2.seqno ∧
      (p.2.seqno = q.2.seqno → p.2.stalenessNs ≤ q.2.stalenessNs) := by
  obtain ⟨prod, hprod⟩ : ∃ prod, Producer.create ⟨false, false⟩ (.oneBuffer 4096) .obliging = some prod :=
    ⟨_, rfl⟩
  obtain ⟨s₁, hs₁⟩ : ∃ s, (streamMachine ⟨false, false⟩).exec (.initial prod)
      [.prod (.connect 0 64 true), .prod .handshake, .attach [] (.obliging fun _ => true), .tick 7,
        .publish (.bytesFrame 16 .None) none, .sendFence, .beginWrite, .commitWrite, .finishWrite,
        .pickUp] = some s := by
    cases hprod
    exact ⟨_, rfl⟩
  obtain ⟨d, hd⟩ : ∃ d, s₁.slot.values = [d] := by
    cases hprod
    cases hs₁
    exact ⟨_, rfl⟩
  -- a fresh view at 9, and the fallback of the same frame at 12
  obtain ⟨s, hs⟩ : ∃ s, (streamMachine ⟨false, false⟩).exec s₁
      [.tick 9, .viewCall 0, .readRet (some d), .viewRet 1 0, .tick 12, .viewCall (-1), .readRet none,
        .viewRet 1 0] = some s := by
    cases hprod
    cases hs₁
    cases hd
    exact ⟨_, rfl⟩
  have hrun : (streamMachine ⟨false, false⟩).Run _ s :=
    (Machine.Run.of_exec (M := streamMachine ⟨false, false⟩)
      ⟨⟨_, _, _, hprod⟩, rfl, rfl, rfl, rfl, rfl, rfl, rfl⟩ hs₁).append_exec hs
  obtain ⟨p, q, hpq, hp, hq⟩ : ∃ p q, s.returned = [p, q] ∧ p.1 = 9 ∧ q.1 = 12 := by
    cases hprod
    cases hs₁
    cases hd
    cases hs
    exact ⟨_, _, rfl, rfl, rfl⟩
  have hord := (views_staleness_and_order hrun).2.2
  rw [hpq] at hord
  obtain ⟨hle, hstale⟩ := List.rel_of_pairwise_cons hord (List.mem_singleton_self q)
  exact ⟨s, p, q, hpq, hp, hq, hle, hstale⟩

end Axon
