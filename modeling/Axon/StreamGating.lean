import Axon.StreamFences
import Mathlib.Data.List.Pairwise

/-! # Fence gating

`fence_gating`: a fence-gated frame is handed out only with its own fence, and the newest frame is handed
out as soon as its fence has been drained. -/

namespace Axon

open Foundation

/-- A gated frame waits for the fence of its token. -/
theorem TensorSubscriber.fenceOf_gated {s : TensorSubscriber} {desc : TensorDescriptor} (h : desc.Gated) :
    s.fenceOf desc = ((s.fences.lookupFence desc.syncFenceToken).isSome,
      s.fences.lookupFence desc.syncFenceToken) :=
  if_pos h

namespace Stream

/-- The fence tokens of gated frames are distinct. -/
def DistinctTokens (s : Stream) : Prop :=
  s.frames.Pairwise fun f g => f.desc.Gated → g.desc.Gated →
    f.desc.syncFenceToken ≠ g.desc.syncFenceToken

variable {a : Announcement} {s s' : Stream} {build : BuildConfig}

/-! ## Safety -/

/-- Where a stored fence comes from: the message it was received with. -/
theorem message_of_stored {token : UInt64} {fd : Fd} (h : ⟨token, some fd⟩ ∈ s.stored) :
    ∃ (k : ℕ) (header : SyncFenceHeader) (file : File), s.sent[k]? = some (.fence header file) ∧
      s.received[k]? = some [fd] ∧ header.syncFenceToken = token := by
  obtain ⟨⟨m, fds⟩, hmem, hslot⟩ := List.mem_filterMap.mp h
  obtain ⟨k, hk⟩ := List.mem_iff_getElem?.mp hmem
  obtain ⟨hm, hfds⟩ := List.getElem?_zip_eq_some.mp hk
  -- only a message with one FD fills a slot
  cases m with
  | pool header files ext => cases hslot
  | fence header file =>
      unfold fenceSlot at hslot
      split at hslot
      · rename_i heq
        cases heq
        cases hslot
        exact ⟨k, header, file, hm, hfds, rfl⟩
      · cases hslot

/-- **The fence found for a frame is its own**, and open. -/
theorem Gates.own_fence (h : s.Gates a) (hdistinct : s.DistinctTokens) (hcall : s.call ≠ .detached)
    {f : Frame} (hf : f ∈ s.frames) (hgated : f.desc.Gated) {fd : Fd}
    (hfd : s.sub.fences.lookupFence f.desc.syncFenceToken = some fd) :
    ∃ k pfd, f.message = some k ∧ f.syncFd = some pfd ∧ s.received[k]? = some [fd] ∧
      fd.file = pfd.file ∧ ¬ s.sub.Closed fd := by
  have hdrains := h.drains hcall
  have hring := FenceCache.mem_of_lookupFence hfd
  obtain ⟨i, hi, -⟩ := hdrains.ring.mem hring nofun
  obtain ⟨k, header, file, hk, hreceived, htoken⟩ := message_of_stored (List.mem_of_getElem? hi)
  obtain ⟨g, hg, hgk⟩ := h.sends.framed k header file hk
  obtain ⟨hggated, pfd, hpfd, hmsg⟩ := h.sends.fenced g hg k hgk
  obtain ⟨rfl, rfl⟩ := Message.fence.inj (Option.some.inj (hmsg.symm.trans hk))
  -- two gated frames with one token are one frame
  obtain rfl : g = f := by
    by_contra hne
    have hsymm : Std.Symm fun f g : Frame => f.desc.Gated → g.desc.Gated →
        f.desc.syncFenceToken ≠ g.desc.syncFenceToken := ⟨fun _ _ hxy hy hx => (hxy hx hy).symm⟩
    exact List.Pairwise.forall hdistinct hg hf hne hggated hgated htoken
  refine ⟨k, pfd, hgk, hpfd, hreceived, ?_, ?_⟩
  · -- the FD received is of the file that was sent
    have hfile := hdrains.installed k _ _ hk hreceived
    exact List.singleton_inj.mp hfile
  · obtain ⟨j, hj, hslot⟩ := Vector.mem_iff_getElem.mp hring
    exact (hdrains.fds.numbered j hj fd (congrArg FenceSlot.fd hslot)).2

/-! ## Availability -/

/-- When no later message is a fence, a fence received is the last one stored. -/
theorem stored_concat {k : ℕ} {header : SyncFenceHeader} {file : File} {fd : Fd}
    (hk : s.sent[k]? = some (.fence header file)) (hreceived : s.received[k]? = some [fd])
    (hlast : ∀ (j : ℕ) header' file', s.sent[j]? = some (.fence header' file') → j ≤ k) :
    ∃ xs, s.stored = xs ++ [⟨header.syncFenceToken, some fd⟩] := by
  have hzip : (s.sent.zip s.received)[k]? = some (.fence header file, [fd]) :=
    List.getElem?_zip_eq_some.mpr ⟨hk, hreceived⟩
  obtain ⟨hlt, hget⟩ := List.getElem?_eq_some_iff.mp hzip
  -- what comes later is no fence
  have hrest : ((s.sent.zip s.received).drop (k + 1)).filterMap fenceSlot = [] := by
    refine List.filterMap_eq_nil_iff.mpr fun ⟨m, fds⟩ hmem => ?_
    obtain ⟨i, hi⟩ := List.mem_iff_getElem?.mp hmem
    rw [List.getElem?_drop] at hi
    cases m with
    | pool header' files ext => rfl
    | fence header' file' =>
        have := hlast _ header' file' (List.getElem?_zip_eq_some.mp hi).1
        omega
  refine ⟨((s.sent.zip s.received).take k).filterMap fenceSlot, ?_⟩
  rw [stored]
  nth_rewrite 1 [← List.take_append_drop k (s.sent.zip s.received)]
  have hslot : fenceSlot (.fence header file, [fd]) = some ⟨header.syncFenceToken, some fd⟩ := rfl
  rw [List.drop_eq_getElem_cons hlt, hget, List.filterMap_append, List.filterMap_cons_some hslot, hrest]

/-- **The newest frame is accepted** once its fence has been taken off the socket: later frames alone could
push it out of the ring. -/
theorem Gates.accepts_newest (h : s.Gates a) (hcall : s.call ≠ .detached) {f : Frame} {k : ℕ}
    (hf : s.frames.getLast? = some f) (hk : f.message = some k) (htaken : k < s.received.length) :
    s.sub.Accepts f.desc := by
  have hdrains := h.drains hcall
  have hmem : f ∈ s.frames := List.mem_of_getLast? hf
  obtain ⟨hgated, pfd, -, hmsg⟩ := h.sends.fenced f hmem k hk
  have hacq := h.sends.acquired f hmem
  obtain ⟨fd, hreceived⟩ : ∃ fd, s.received[k]? = some [fd] := by
    have hfile := hdrains.installed k _ _ hmsg (List.getElem?_eq_getElem htaken)
    obtain ⟨fd, hfd, -⟩ := List.map_eq_singleton_iff.mp hfile
    exact ⟨fd, by rw [List.getElem?_eq_getElem htaken, hfd]⟩
  -- the fences are sent in the order of the frames, so none comes after this one
  have hlast : ∀ (j : ℕ) header' file', s.sent[j]? = some (.fence header' file') → j ≤ k := by
    intro j header' file' hj
    obtain ⟨g, hg, hgj⟩ := h.sends.framed j header' file' hj
    obtain ⟨init, hinit⟩ := List.getLast?_eq_some_iff.mp hf
    have horder := h.sends.order
    rw [hinit] at horder hg
    rcases List.mem_append.mp hg with hg | hg
    · exact ((List.pairwise_append.mp horder).2.2 g hg f (List.mem_singleton_self f) j k hgj hk).le
    · rw [List.mem_singleton.mp hg] at hgj
      exact (Option.some.inj (hgj.symm.trans hk)).le
  obtain ⟨xs, hxs⟩ := stored_concat hmsg hreceived hlast
  have hring := hdrains.ring
  rw [hxs] at hring
  refine ⟨?_, ?_, ?_⟩
  · rw [hacq.generation, hdrains.generation, h.sends.upTo]
    rfl
  · rw [TensorSubscriber.fenceOf_gated hgated]
    exact FenceCache.lookupFence_isSome hring.last_mem
  · rw [hdrains.nbufs]
    exact hacq.buffer

/-- No step takes a sequence number back. -/
theorem seqno_le_of_step {e : StreamEv} (hs : s.step build e = some s') :
    s.prod.pub.seqno ≤ s'.prod.pub.seqno := by
  cases step_cases build hs with
  | tick | refuse | beginWrite | commitWrite | finishWrite | attach | drainCall | drainOne | drainRet
  | viewCall | readRet | viewRet => exact le_rfl
  | prod e prod he hprod => exact (Producer.sameRecord_of_step he hprod).seqno.ge
  | stamp => exact Nat.le_succ _
  | sendFence desc syncFd pub hphase hsend =>
      obtain ⟨clients, rfl, -⟩ := TensorPublisher.sendFence_spec hsend
      exact le_rfl
  | pickUp pub hphase hpick => exact (TensorPublisher.pickUpConsumers_sameRecord hpick).seqno.ge

/-- Nothing is being published, and `frames` are all that has been. -/
structure Quiet (frames : List Frame) (s : Stream) : Prop where
  publishes : s.Publishes
  phase : s.phase = .idle
  frames_eq : s.frames = frames

namespace Quiet

variable {frames : List Frame}

/-- The slot is at rest and holds the frames. -/
theorem slot (h : s.Quiet frames) : frames.map (·.desc) = s.slot.values ∧ s.slot.writer = .idle ∧
    s.prod.pub.seqno = frames.length := by
  have ha := h.publishes.agrees
  rw [h.phase] at ha
  obtain ⟨hvalues, hwriter, hseqno⟩ := ha
  rw [h.frames_eq] at hvalues hseqno
  exact ⟨hvalues, hwriter, hseqno⟩

/-- As long as no further frame is accepted, nothing is published. -/
theorem step (h : s.Quiet frames) {e : StreamEv} (hs : s.step build e = some s')
    (hseqno : s'.prod.pub.seqno ≤ s.prod.pub.seqno) : s'.Quiet frames := by
  refine ⟨h.publishes.step hs, ?_, ?_⟩
  all_goals
    cases step_cases build hs with
    | tick | prod | refuse | attach | drainCall | drainOne | drainRet | viewCall | readRet | viewRet =>
        first | exact h.phase | exact h.frames_eq
    | stamp => exact absurd hseqno (Nat.not_succ_le_self _)
    | sendFence desc syncFd pub hphase hsend => cases h.phase.symm.trans hphase
    | beginWrite desc slot hphase hslot => cases h.phase.symm.trans hphase
    | commitWrite slot hslot => first | exact h.phase | exact h.frames_eq
    | finishWrite desc slot hphase hslot => cases h.phase.symm.trans hphase
    | pickUp pub hphase hpick => cases h.phase.symm.trans hphase

end Quiet

/-- No frame is taken back. -/
theorem seqno_le_of_exec {evs : List StreamEv} (hs : (streamMachine build).exec s evs = some s') :
    s.prod.pub.seqno ≤ s'.prod.pub.seqno :=
  Machine.exec_invariant (P := fun s₁ => s.prod.pub.seqno ≤ s₁.prod.pub.seqno) hs le_rfl
    fun _ _ _ _ hle hstep _ => hle.trans (seqno_le_of_step hstep)

/-- **Without a new frame** the stream stays quiet. -/
theorem Quiet.exec {frames : List Frame} (h : s.Quiet frames) {evs : List StreamEv}
    (hs : (streamMachine build).exec s evs = some s')
    (hseqno : s'.prod.pub.seqno ≤ frames.length) : s'.Quiet frames := by
  refine Machine.exec_invariant (P := Quiet frames) hs h fun s₁ e s₂ _ hq hstep ⟨tr', hrest⟩ => ?_
  refine hq.step hstep ?_
  rw [hq.slot.2.2]
  exact (seqno_le_of_exec hrest).trans hseqno

/-- The consumer has attached and has received more than `k` messages. -/
def HasTaken (k : ℕ) (s : Stream) : Prop := s.call ≠ .detached ∧ k < s.received.length

/-- What has been received stays received. -/
theorem HasTaken.exec {k : ℕ} (h : s.HasTaken k) {evs : List StreamEv}
    (hs : (streamMachine build).exec s evs = some s') : s'.HasTaken k := by
  refine Machine.exec_invariant (P := HasTaken k) hs h fun s₁ e s₂ _ ⟨hcall, hlt⟩ hstep _ => ?_
  cases step_cases build hstep with
  | tick | prod | refuse | stamp | sendFence | beginWrite | commitWrite | finishWrite | pickUp =>
      exact ⟨hcall, hlt⟩
  | attach pieces ans m segs sub hdetached => exact absurd hdetached hcall
  | drainCall | drainRet | viewCall | readRet | viewRet => exact ⟨nofun, hlt⟩
  | drainOne pieces m segs hdraining hm hsegs =>
      refine ⟨?_, ?_⟩
      · show (if (SidecarClient.pollRound _ _).1 then ConsumerPhase.draining else .idle) ≠ .detached
        split_ifs <;> exact nofun
      · show k < (s₁.received ++ [_]).length
        rw [List.length_append]
        exact hlt.trans_le (Nat.le_add_right _ _)

/-- **A read that cannot go wrong**: it is under way and may not miss, or has returned `d`. -/
def Sure (d : TensorDescriptor) (s : Stream) : Prop :=
  (s.call = .reading ∧ ∃ p, s.slot.readers () = some p ∧ p.mayMiss = false) ∨ s.call = .read (some d)

/-- Up to its return, an undisturbed read stays sure. -/
theorem Sure.step {frames : List Frame} {d : TensorDescriptor} (h : s.Sure d) (hq : s.Quiet frames)
    (hd : (frames.map (·.desc)).getLast? = some d) {e : StreamEv}
    (he : ∀ notify retries, e ≠ .viewRet notify retries) (hs : s.step build e = some s') : s'.Sure d := by
  obtain ⟨hvalues, hwriter, -⟩ := hq.slot
  have hcall : s.call = .reading ∨ s.call = .read (some d) := h.imp And.left id
  cases step_cases build hs with
  | tick | prod | refuse | stamp | sendFence | pickUp => exact h
  | beginWrite desc slot hphase hslot => cases hq.phase.symm.trans hphase
  | finishWrite desc slot hphase hslot => cases hq.phase.symm.trans hphase
  | commitWrite slot hslot =>
      cases Register.step_cases hslot with
      | commit v hv => cases hwriter.symm.trans hv
  | attach pieces ans m segs sub hc => rcases hcall with hcall | hcall <;> cases hcall.symm.trans hc
  | drainCall hc => rcases hcall with hcall | hcall <;> cases hcall.symm.trans hc
  | drainOne pieces m segs hc => rcases hcall with hcall | hcall <;> cases hcall.symm.trans hc
  | drainRet hc => rcases hcall with hcall | hcall <;> cases hcall.symm.trans hc
  | viewCall maxRetry slot hc => rcases hcall with hcall | hcall <;> cases hcall.symm.trans hc
  | readRet res slot hc hslot =>
      rcases h with ⟨-, p, hp, hm⟩ | hread
      · cases Register.step_cases hslot with
        | readRet r res' p' hr hres =>
            obtain rfl := Option.some.inj (hp.symm.trans hr)
            obtain ⟨v, rfl, hv⟩ := hq.publishes.slot.undisturbed hp hm hres
            rw [← hvalues] at hv
            -- undisturbed, the read finds the value the slot has held all along
            obtain rfl := Option.some.inj (hd.symm.trans hv)
            exact .inr rfl
      · cases hread.symm.trans hc
  | viewRet notify retries => exact absurd rfl (he notify retries)

/-- **Until the next view** the last frame stays the one to be shown. -/
theorem Sure.exec {frames : List Frame} {d : TensorDescriptor} (h : s.Sure d) (hq : s.Quiet frames)
    (hd : (frames.map (·.desc)).getLast? = some d) {evs : List StreamEv}
    (he : ∀ notify retries, .viewRet notify retries ∉ evs)
    (hs : (streamMachine build).exec s evs = some s')
    (hseqno : s'.prod.pub.seqno ≤ frames.length) : s'.Sure d := by
  have hboth : s'.Quiet frames ∧ s'.Sure d := by
    refine Machine.exec_invariant (P := fun s => Quiet frames s ∧ Sure d s) hs ⟨hq, h⟩
      fun s₁ e s₂ hmem ⟨hq, h⟩ hstep ⟨tr', hrest⟩ => ?_
    have hne : ∀ notify retries, e ≠ .viewRet notify retries := by
      rintro notify retries rfl
      exact he notify retries hmem
    refine ⟨hq.step hstep ?_, h.step hq hd hne hstep⟩
    rw [hq.slot.2.2]
    exact (seqno_le_of_exec hrest).trans hseqno
  exact hboth.2

/-- A call that is willing to read, with the slot at rest, is sure of the last frame. -/
theorem Sure.of_viewCall {frames : List Frame} (h : s.Quiet frames) (hne : frames ≠ []) {n : ℤ}
    (hn : 0 ≤ n) (hs : s.step build (.viewCall n) = some s') (d : TensorDescriptor) : s'.Sure d := by
  obtain ⟨hvalues, hwriter, -⟩ := h.slot
  cases step_cases build hs with
  | viewCall _ slot hcall hslot =>
      cases Register.step_cases hslot with
      | readCall r willing hr =>
          refine .inl ⟨rfl, _, Function.update_self () _ s.slot.readers, ?_⟩
          have hpos : 0 < s.slot.finished := by
            rw [h.publishes.slot.idle hwriter, ← hvalues, List.length_map]
            exact List.length_pos_iff.mpr hne
          simp [hn, hpos, hwriter]

/-- **The newest frame is handed out fresh** after its fence has been drained, as long as no further frame
is accepted: to a call that is willing to read, at its return. -/
theorem Gates.newest_fresh (h : s.Gates a) {f : Frame} {k : ℕ} {evs₁ evs₂ evs₃ : List StreamEv} {n : ℤ}
    {res : Option TensorDescriptor} (hphase : s.phase = .idle) (hf : s.frames.getLast? = some f)
    (hk : f.message = some k) (hn : 0 ≤ n) (hret : ∀ notify retries, .viewRet notify retries ∉ evs₃)
    (hs : (streamMachine build).exec s (evs₁ ++ .drainRet :: (evs₂ ++ .viewCall n :: evs₃)) = some s')
    (hfixed : (streamMachine build).Meets FixedPool s
      (evs₁ ++ .drainRet :: (evs₂ ++ .viewCall n :: evs₃)))
    (hseqno : s'.prod.pub.seqno = s.prod.pub.seqno) (hcall : s'.call = .read res) :
    res = some f.desc ∧ s'.sub.Accepts f.desc := by
  have hgates' := h.exec hs hfixed
  have hquiet : s.Quiet s.frames := ⟨h.publishes, hphase, rfl⟩
  have hle : s'.prod.pub.seqno ≤ s.frames.length := (hseqno.trans hquiet.slot.2.2).le
  rw [Machine.exec_append, Option.bind_eq_some_iff] at hs
  obtain ⟨s₁, hs₁, hs⟩ := hs
  rw [Machine.exec_cons, Option.bind_eq_some_iff] at hs
  obtain ⟨s₂, hs₂, hs⟩ := hs
  change s₁.step build .drainRet = some s₂ at hs₂
  have hquiet₁ := hquiet.exec hs₁ (((seqno_le_of_step hs₂).trans (seqno_le_of_exec hs)).trans hle)
  -- at the end of the drain, the frame's fence has been taken
  have htaken : s₂.HasTaken k := by
    have hgates₁ := h.exec hs₁ hfixed.append.1
    have hmem : f ∈ s₁.frames := hquiet₁.frames_eq ▸ List.mem_of_getLast? hf
    obtain ⟨-, fd, -, hmsg⟩ := hgates₁.sends.fenced f hmem k hk
    have hlt : k < s₁.sent.length := (List.getElem?_eq_some_iff.mp hmsg).1
    cases step_cases build hs₂ with
    | drainRet hdraining hall => exact ⟨nofun, hlt.trans_eq hall.symm⟩
  have hquiet₂ := hquiet₁.step hs₂ (by
    rw [hquiet₁.slot.2.2]
    exact (seqno_le_of_exec hs).trans hle)
  have htaken' := htaken.exec hs
  rw [Machine.exec_append, Option.bind_eq_some_iff] at hs
  obtain ⟨s₃, hs₃, hs⟩ := hs
  rw [Machine.exec_cons, Option.bind_eq_some_iff] at hs
  obtain ⟨s₄, hs₄, hs⟩ := hs
  change s₃.step build (.viewCall n) = some s₄ at hs₄
  have hquiet₃ := hquiet₂.exec hs₃ (((seqno_le_of_step hs₄).trans (seqno_le_of_exec hs)).trans hle)
  have hquiet₄ := hquiet₃.step hs₄ (by
    rw [hquiet₃.slot.2.2]
    exact (seqno_le_of_exec hs).trans hle)
  have hne : s.frames ≠ [] := List.ne_nil_of_mem (List.mem_of_getLast? hf)
  have hd : (s.frames.map (·.desc)).getLast? = some f.desc := by
    rw [List.getLast?_map, hf]
    rfl
  -- from the call to the return nothing is written, so the read is sure of the frame
  have hsure := (Sure.of_viewCall hquiet₃ hne hn hs₄ f.desc).exec hquiet₄ hd hret hs hle
  have hquiet' := hquiet₄.exec hs hle
  refine ⟨?_, ?_⟩
  · rcases hsure with ⟨hreading, -⟩ | hread
    · cases hreading.symm.trans hcall
    · cases hread.symm.trans hcall
      rfl
  · exact hgates'.accepts_newest htaken'.1 (hquiet'.frames_eq.symm ▸ hf) hk htaken'.2

end Stream

/-- **Fence gating**, in every run of one publisher over a fixed pool and one consumer that attaches to it.

* When the fence tokens are distinct, a fence-gated descriptor that `latest_view` hands out fresh comes with
  the FD, still open, that the consumer received with the message that the `publish` of this very frame sent
  to carry its fence.
* When the last publish has returned and its fence was sent to the consumer, then after the end of a later
  `drain_fences`, and as long as no further frame is accepted, `latest_view` hands out this frame fresh,
  whatever else happens in between. -/
theorem fence_gating {build : BuildConfig} {tr : List StreamEv} {s : Stream}
    (hrun : (streamMachine build).RunWhere Stream.FixedPool tr s) :
    (s.DistinctTokens → ∀ desc, s.call = .read (some desc) → desc.Gated → s.sub.Accepts desc →
      ∀ notify retries, ∃ f ∈ s.frames, ∃ v k fd pfd, f.desc = desc ∧
        (s.sub.latestView notify (some desc) retries s.now).1 = some v ∧ v.seqno = f.desc.seqno ∧
        f.message = some k ∧ f.syncFd = some pfd ∧ s.received[k]? = some [fd] ∧
        fd.file = pfd.file ∧ v.syncFd = some fd ∧ ¬ s.sub.Closed fd) ∧
    (∀ f k evs₁ evs₂ evs₃ n res s', s.phase = .idle → s.frames.getLast? = some f → f.message = some k →
      (streamMachine build).exec s (evs₁ ++ .drainRet :: (evs₂ ++ .viewCall n :: evs₃)) = some s' →
      (streamMachine build).Meets Stream.FixedPool s
        (evs₁ ++ .drainRet :: (evs₂ ++ .viewCall n :: evs₃)) →
      0 ≤ n → (∀ notify retries, .viewRet notify retries ∉ evs₃) →
      s'.prod.pub.seqno = s.prod.pub.seqno → s'.call = .read res →
      s'.sub.Accepts f.desc ∧ ∀ notify retries, ∃ v,
        (s'.sub.latestView notify res retries s'.now).1 = some v ∧ v.seqno = f.desc.seqno) := by
  obtain ⟨a, hgates⟩ := Stream.gates_of_run hrun
  constructor
  -- whatever is handed out carries the fence of its own frame
  · intro hdistinct desc hcall hgated hacc notify retries
    have hattached : s.call ≠ .detached := by
      rw [hcall]
      exact nofun
    obtain ⟨i, hi⟩ := List.mem_iff_getElem?.mp (hgates.views.read desc hcall).1
    obtain ⟨f, hf, rfl, -⟩ := hgates.publishes.frame_of_value hi
    -- the view is accepted, so its fence has been stored
    obtain ⟨fd, hfd⟩ := Option.isSome_iff_exists.mp (show (s.sub.fences.lookupFence _).isSome = true from
      (congrArg Prod.fst (TensorSubscriber.fenceOf_gated hgated)).symm.trans hacc.2.1)
    obtain ⟨k, pfd, hk, hpfd, hreceived, hfile, hopen⟩ :=
      hgates.own_fence hdistinct hattached (List.mem_of_getElem? hf) hgated hfd
    obtain ⟨notify_now, hview⟩ := TensorSubscriber.latestView_of_accepts
      (hgates.drains hattached).opened hacc notify retries s.now
    refine ⟨f, List.mem_of_getElem? hf, _, k, fd, pfd, rfl, congrArg Prod.fst hview, rfl, hk, hpfd,
      hreceived, hfile, ?_, hopen⟩
    exact (congrArg Prod.snd (TensorSubscriber.fenceOf_gated hgated)).trans hfd
  -- and after a drain the newest frame is not held back
  · intro f k evs₁ evs₂ evs₃ n res s' hphase hf hk hs hfixed hn hret hseqno hcall
    obtain ⟨rfl, hacc⟩ := hgates.newest_fresh hphase hf hk hn hret hs hfixed hseqno hcall
    refine ⟨hacc, fun notify retries => ?_⟩
    have hattached : s'.call ≠ .detached := by
      rw [hcall]
      exact nofun
    obtain ⟨notify_now, hview⟩ := TensorSubscriber.latestView_of_accepts
      ((hgates.exec hs hfixed).drains hattached).opened hacc notify retries s'.now
    exact ⟨_, congrArg Prod.fst hview, rfl⟩

/-- A frame with a fence is published, its fence drained, and the frame handed out with it. -/
theorem fence_gating_firstFrame : ∃ (s : Stream) (f : Frame) (v : TensorView) (fd : Fd),
    s.frames = [f] ∧ f.desc.Gated ∧ (s.sub.latestView 1 (some f.desc) 0 s.now).1 = some v ∧
      v.syncFd = some fd ∧ ¬ s.sub.Closed fd := by
  obtain ⟨prod, hprod⟩ : ∃ prod, Producer.create ⟨false, false⟩ (.oneBuffer 4096) .obliging = some prod :=
    ⟨_, rfl⟩
  obtain ⟨s₁, hs₁⟩ : ∃ s, (streamMachine ⟨false, false⟩).exec (.initial prod)
      ([.prod (.connect 0 64 true), .prod .handshake, .attach [] (.obliging fun _ => true), .tick 7] :
        List StreamEv) = some s := by
    cases hprod
    exact ⟨_, rfl⟩
  have hrun₁ := Machine.RunWhere.of_exec (M := streamMachine ⟨false, false⟩) (C := Stream.FixedPool)
    ⟨⟨_, _, _, hprod⟩, rfl, rfl, rfl, rfl, rfl, rfl, rfl⟩ hs₁
    (.of_forall (by simp [Stream.FixedPool]) _)
  obtain ⟨s, hs⟩ : ∃ s, (streamMachine ⟨false, false⟩).exec s₁
      ([.publish (.bytesFrame 16 .SyncFileViaSidecar) (some ⟨9, ⟨9, 0⟩⟩), .sendFence, .beginWrite,
        .commitWrite, .finishWrite, .pickUp] : List StreamEv) = some s := by
    cases hprod
    cases hs₁
    exact ⟨_, rfl⟩
  have hfixed : s₁.FixedPool (.publish (.bytesFrame 16 .SyncFileViaSidecar) (some ⟨9, ⟨9, 0⟩⟩)) := by
    cases hprod
    cases hs₁
    exact ⟨le_rfl, Nat.zero_lt_one⟩
  have hrun := hrun₁.append_exec hs ⟨hfixed, fun _ _ => .of_forall (by simp [Stream.FixedPool]) _⟩
  obtain ⟨f, hf⟩ : ∃ f, s.frames = [f] := by
    cases hprod
    cases hs₁
    cases hs
    exact ⟨_, rfl⟩
  let drain : List StreamEv := [.drainCall, .drainOne []]
  let read : List StreamEv := [.readRet (some f.desc)]
  obtain ⟨s', hs'⟩ : ∃ s', (streamMachine ⟨false, false⟩).exec s
      (drain ++ StreamEv.drainRet :: ([] ++ StreamEv.viewCall 0 :: read)) = some s' := by
    cases hprod
    cases hs₁
    cases hs
    cases hf
    exact ⟨_, rfl⟩
  have hmeets : (streamMachine ⟨false, false⟩).Meets Stream.FixedPool s
      (drain ++ StreamEv.drainRet :: ([] ++ StreamEv.viewCall 0 :: read)) :=
    .of_forall (by simp [drain, read, Stream.FixedPool]) _
  obtain ⟨hcall, hframes, hgated, hseqno, hphase, hmessage⟩ : s'.call = .read (some f.desc) ∧
      s'.frames = [f] ∧ f.desc.Gated ∧ s'.prod.pub.seqno = s.prod.pub.seqno ∧ s.phase = .idle ∧
        f.message = some 1 := by
    cases hprod
    cases hs₁
    cases hs
    cases hf
    cases hs'
    exact ⟨rfl, rfl, rfl, rfl, rfl, rfl⟩
  -- the frame is available, so its fence is there
  obtain ⟨hacc, -⟩ := (fence_gating hrun).2 f 1 drain [] read 0 _ s' hphase (by rw [hf]; rfl) hmessage
    hs' hmeets le_rfl (by simp [read]) hseqno hcall
  have hdistinct : s'.DistinctTokens := by
    rw [Stream.DistinctTokens, hframes]
    exact List.pairwise_singleton _ _
  obtain ⟨-, -, v, -, fd, -, -, hview, -, -, -, -, -, hfd, hopen⟩ :=
    (fence_gating (hrun.append_exec hs' hmeets)).1 hdistinct f.desc hcall hgated hacc 1 0
  exact ⟨s', f, v, fd, hframes, hgated, hview, hfd, hopen⟩

end Axon
