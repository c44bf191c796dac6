import Axon.Attachment

/-! # Views without a payload

A buffer that cannot be mapped or imported keeps a null entry in the subscriber's tables, and the index
check of `latest_view` looks only at their length.

* **`Handshake.Maps`** says for which buffers `mmap`, `accel_import` or the import of a surface succeeded in a
  handshake. That these are the entries of the tables that are not null is the invariant (`RecordedAttachment.Inv`).
* **`views_have_payload_iff`** says when the views handed out and remembered have a payload. -/

namespace Axon

open Foundation

/-- The view has a pointer to its payload. -/
def TensorView.HasPayload (v : TensorView) : Prop := v.data ≠ none ∨ v.devicePtr ≠ none

/-! ## What a handshake maps -/

/-- A handshake that attached buffers: what it received, and what the system answered. -/
structure Handshake where
  hdr : PoolHandshakeHeader
  /-- How many FDs came with the header. -/
  received : ℕ
  ext : List UInt8
  ans : HandshakeAnswers

namespace Handshake

/-- **The `idx`-th buffer could be mapped**: imported, if the pool is one of device memory; otherwise by `mmap`, or by
the import and the mapping of its surface in a build that has them. -/
def Maps (build : BuildConfig) (h : Handshake) (idx : ℕ) : Prop :=
  idx < h.received ∧
    if h.hdr.backend = PoolBackend.Accelerator.toByte then
      -- `accel_import` refuses a size of zero before it asks the driver
      h.hdr.bufferSize ≠ 0 ∧ alignedSize h.ans.granularity h.hdr.bufferSize ≠ 0 ∧ h.ans.accelImport idx = true
    else
      h.ans.mmap idx = true ∨
        build.jetson = true ∧ h.hdr.backend = PoolBackend.NvBufSurface.toByte ∧
          h.ext.length = h.received * h.ans.nvbufImportParamsSize ∧ h.ans.nvbufMap idx ≠ none

end Handshake

namespace TensorSubscriber

/-- The handshake that the buffers come from once this one is over: this one if it attaches any, none if it has let
go of the buffers and attached no others, and the one before if it is refused early. -/
def handshakeBy (s : TensorSubscriber) (build : BuildConfig) (ans : HandshakeAnswers) (before : Option Handshake) :
    Option Handshake :=
  match ans.connect with
  | none => before
  | some stream =>
      match (s.receive stream).1 with
      | .error _ => before
      | .ok (hdr, received, ext) =>
          if hdr.backend = PoolBackend.Accelerator.toByte ∧ build.cuda = false then none
          else some ⟨hdr, received.length, ext, ans⟩

/-- The buffer has an entry in the subscriber's tables. -/
def BufferMapped (s : TensorSubscriber) (idx : ℕ) : Prop :=
  s.hostRegion idx ≠ none ∨ s.deviceRegion idx ≠ none

/-- The same buffers, the same entries. -/
theorem SameAttachment.bufferMapped {s s' : TensorSubscriber} (h : s.SameAttachment s') {idx : ℕ} :
    s'.BufferMapped idx ↔ s.BufferMapped idx := by
  unfold BufferMapped hostRegion deviceRegion
  rw [h.deviceBacked, h.views, h.devicePtrs]

/-- An entry made by `mapFds` is there when there is such an FD and its mapping succeeded. -/
theorem getD_mapFds_ne_none {base : ℕ} {fds : List Fd} {length : ℕ → Option UInt64} {idx : ℕ} :
    (mapFds base fds length).getD idx none ≠ none ↔ idx < fds.length ∧ length idx ≠ none := by
  rw [mapFds, List.getD_eq_getElem?_getD, List.getElem?_mapIdx]
  by_cases hidx : idx < fds.length
  · rw [List.getElem?_eq_getElem hidx]
    simp [hidx]
  · rw [List.getElem?_eq_none (not_lt.mp hidx)]
    simp [hidx]

/-- The same of mappings that succeed under a condition. -/
theorem getD_mapFds_if {base : ℕ} {fds : List Fd} {p : ℕ → Prop} [DecidablePred p] {size : UInt64} {idx : ℕ} :
    (mapFds base fds fun i => if p i then some size else none).getD idx none ≠ none ↔ idx < fds.length ∧ p idx := by
  rw [getD_mapFds_ne_none]
  refine and_congr_right fun _ => ?_
  split_ifs with hok
  · exact iff_of_true nofun hok
  · exact iff_of_false (fun h => h rfl) hok

/-- Without surfaces there are the host views alone. -/
theorem or_getD_nil_iff {idx n : ℕ} {mapped surface : Prop} (hno : ¬ surface) :
    idx < n ∧ mapped ∨ ([] : List (Option Mapping)).getD idx none ≠ none ↔ idx < n ∧ (mapped ∨ surface) := by
  constructor
  · rintro (⟨hidx, hok⟩ | h)
    · exact ⟨hidx, .inl hok⟩
    · exact absurd rfl h
  · rintro ⟨hidx, hok | hsurface⟩
    · exact .inl ⟨hidx, hok⟩
    · exact absurd hsurface hno

/-- **The buffers attached are those that could be mapped.** -/
theorem bufferMapped_attach {s : TensorSubscriber} (hptrs : s.devicePtrs = [])
    (build : BuildConfig) {hdr : PoolHandshakeHeader} (hsize : s.bufferSize = hdr.bufferSize)
    (hdevice : s.deviceBacked = decide (hdr.backend = PoolBackend.Accelerator.toByte)) (ext : List UInt8)
    (ans : HandshakeAnswers) (idx : ℕ) : (s.attach build hdr ext ans).BufferMapped idx ↔
      Handshake.Maps build ⟨hdr, s.fds.length, ext, ans⟩ idx := by
  unfold attach Handshake.Maps
  -- by backend: device memory has no host views, the others no imported memory
  by_cases hback : hdr.backend = PoolBackend.Accelerator.toByte
  · have hdev : s.deviceBacked = true := by
      rw [hdevice]
      exact decide_eq_true hback
    rw [if_pos hdev, if_pos hback]
    have hhost : (s.importDevice ans).hostRegion idx = none := if_pos hdev
    unfold BufferMapped
    rw [hhost, ne_self_iff_false, false_or]
    refine getD_mapFds_if.trans ?_
    rw [hsize]
  · have hdev : s.deviceBacked = false := by
      rw [hdevice]
      exact decide_eq_false hback
    -- host memory is mapped; surfaces may have a CUDA view besides
    rw [if_neg (Bool.eq_false_iff.mp hdev), if_neg hback]
    unfold BufferMapped hostRegion deviceRegion
    dsimp only
    by_cases hsurf : build.jetson = true ∧ hdr.backend = PoolBackend.NvBufSurface.toByte
    · rw [if_pos hsurf]
      unfold importSurfaces
      -- without a blob of the right length no surface is imported
      by_cases hblob : ext.length = s.fds.length * ans.nvbufImportParamsSize
      · rw [if_pos (show ext.length = (s.mapHost ans).fds.length * ans.nvbufImportParamsSize from hblob)]
        simp only [mapHost, hdev, Bool.false_eq_true, if_false]
        rw [getD_mapFds_if, getD_mapFds_ne_none, ← and_or_left]
        refine and_congr_right fun _ => or_congr_right ?_
        exact ⟨fun h => ⟨hsurf.1, hsurf.2, hblob, h⟩, fun h => h.2.2.2⟩
      · rw [if_neg (show ¬ ext.length = (s.mapHost ans).fds.length * ans.nvbufImportParamsSize from hblob)]
        simp only [mapHost, hdev, Bool.false_eq_true, if_false, hptrs]
        rw [getD_mapFds_if]
        exact or_getD_nil_iff fun h => hblob h.2.2.1
    · rw [if_neg hsurf]
      simp only [mapHost, hdev, Bool.false_eq_true, if_false, hptrs]
      rw [getD_mapFds_if]
      exact or_getD_nil_iff fun h => hsurf ⟨h.1, h.2.1⟩

/-- **After a call of `wait_handshake`** the entries are those of the handshake that the buffers come from, if they
were before. -/
theorem bufferMapped_waitHandshake {s : TensorSubscriber} {build : BuildConfig} {before : Option Handshake}
    (h : ∀ idx, s.BufferMapped idx ↔ ∃ hs ∈ before, hs.Maps build idx) (ans : HandshakeAnswers) (idx : ℕ) :
    (s.waitHandshake build ans).2.BufferMapped idx ↔
      ∃ hs ∈ s.handshakeBy build ans before, hs.Maps build idx := by
  rw [waitHandshake_parts]
  unfold handshakeBy
  cases ans.connect with
  | none => exact h idx
  | some stream =>
      dsimp only
      -- what `receive` changes concerns no buffer
      have hkept : ∀ r s₁, s.receive stream = (r, s₁) → s.SameAttachment s₁ := by
        intro r s₁ hr
        unfold receive at hr
        dsimp only at hr
        split at hr
        · cases hr
          exact ⟨rfl, rfl, rfl, rfl, rfl, rfl, rfl, rfl⟩
        · split_ifs at hr
          · cases hr
            exact ⟨rfl, rfl, rfl, rfl, rfl, rfl, rfl, rfl⟩
          · cases hr
            exact ⟨rfl, rfl, rfl, rfl, rfl, rfl, rfl, rfl⟩
      generalize hr : s.receive stream = r at hkept
      obtain ⟨res, s₁⟩ := r
      have hsame := hkept res s₁ rfl
      cases res with
      | error e =>
          dsimp only
          rw [hsame.bufferMapped]
          exact h idx
      | ok bundle =>
          obtain ⟨hdr, received, ext⟩ := bundle
          dsimp only
          unfold mapBuffers
          dsimp only
          have hdevice : (s₁.adopt hdr received).deviceBacked = true ↔
              hdr.backend = PoolBackend.Accelerator.toByte := decide_eq_true_iff
          by_cases hrefused : hdr.backend = PoolBackend.Accelerator.toByte ∧ build.cuda = false
          · -- the buffers are gone, and no others are there
            rw [if_pos hrefused, if_pos ⟨hdevice.mpr hrefused.1, hrefused.2⟩]
            refine iff_of_false ?_ nofun
            rintro (hm | hm)
            · refine hm ?_
              unfold hostRegion
              split_ifs <;> rfl
            · exact hm rfl
          · rw [if_neg hrefused, if_neg fun hdev => hrefused ⟨hdevice.mp hdev.1, hdev.2⟩]
            dsimp only
            rw [(openMetadata_spec _ ans).1.bufferMapped,
              bufferMapped_attach (s := s₁.adopt hdr received) rfl build rfl rfl ext ans idx]
            simp only [Option.mem_some_iff, exists_eq_left']
            rfl

/-! ## What `latest_view` hands out -/

/-- The view of a frame has a payload when the frame's buffer has an entry. -/
theorem hasPayload_viewOf {s : TensorSubscriber} {desc : TensorDescriptor} (retries : ℕ) (now : UInt64) :
    (s.viewOf desc retries now).HasPayload ↔ s.BufferMapped desc.boHandle := by
  unfold TensorView.HasPayload BufferMapped viewOf
  simp only [ne_eq, Option.map_eq_none_iff]

/-- The view remembered, if there is one, has a payload. -/
def GoodPayload (s : TensorSubscriber) : Prop := ∀ v, s.lastGood = some v → v.HasPayload

/-- What a call of `wait_handshake` remembers was remembered before. -/
theorem goodPayload_waitHandshake {s : TensorSubscriber} (h : s.GoodPayload) (build : BuildConfig)
    (ans : HandshakeAnswers) : (s.waitHandshake build ans).2.GoodPayload := by
  have hcase := s.waitHandshake_cases build ans
  generalize (s.waitHandshake build ans).2 = s' at hcase
  cases hcase with
  | kept _ _ hgood => exact fun v hv => h v (hgood ▸ hv)
  | adopted _ _ _ _ _ _ _ _ _ _ _ hgood =>
      intro v hv
      rw [hgood] at hv
      cases hv

end TensorSubscriber

/-! ## Runs -/

/-- An attachment, with the handshake that its buffers come from. -/
structure RecordedAttachment where
  att : Attachment
  handshake : Option Handshake

namespace RecordedAttachment

/-- The handshake that the buffers come from after an event. -/
def record (build : BuildConfig) (s : RecordedAttachment) : AttachmentEv → Option Handshake
  | .waitHandshake link ans =>
      (s.att.received link).elim s.handshake fun connect =>
        s.att.sub.handshakeBy build { ans with connect := connect } s.handshake
  | _ => s.handshake

/-- A step of the attachment, with a handshake put on record. -/
def step (build : BuildConfig) (s : RecordedAttachment) (e : AttachmentEv) : Option RecordedAttachment :=
  (s.att.step build e).map fun att => ⟨att, s.record build e⟩

/-- **The buffer could be mapped**, by the answers in the handshake that it comes from. -/
def Maps (build : BuildConfig) (s : RecordedAttachment) (idx : ℕ) : Prop :=
  ∃ h ∈ s.handshake, h.Maps build idx

/-- **The condition on a read**: a frame that passes the checks of `latest_view` names a buffer that could be
mapped. -/
def ReadMapped (build : BuildConfig) (s : RecordedAttachment) (read : Option TensorDescriptor) : Prop :=
  ∀ desc, read = some desc → s.att.sub.metadata ≠ none → s.att.sub.Accepts desc → s.Maps build desc.boHandle

/-- What `latest_view` calls of a run have to meet. -/
def Condition (build : BuildConfig) (s : RecordedAttachment) : AttachmentEv → Prop
  | .latestView _ read _ _ => s.ReadMapped build read
  | _ => True

/-- **What `latest_view` promises**: the view it returns and the one it remembers have a payload, and a frame whose
buffer could not be mapped takes the fallback path. -/
structure PayloadSafe (build : BuildConfig) (s : RecordedAttachment) (notify : UInt32)
    (read : Option TensorDescriptor) (retries : ℕ) (now : UInt64) : Prop where
  returned : ∀ v, (s.att.sub.latestView notify read retries now).1 = some v → v.HasPayload
  remembered : (s.att.sub.latestView notify read retries now).2.GoodPayload
  unmapped : ∀ desc, read = some desc → s.att.sub.metadata ≠ none → ¬ s.Maps build desc.boHandle →
    s.att.sub.latestView notify read retries now = s.att.sub.fallBack retries now

/-- **The tables show the answers**, and the view remembered has a payload. -/
structure Inv (build : BuildConfig) (s : RecordedAttachment) : Prop where
  tables : ∀ idx, s.att.sub.BufferMapped idx ↔ s.Maps build idx
  good : s.att.sub.GoodPayload

variable {build : BuildConfig} {s s' : RecordedAttachment}

/-- **One call keeps the promise exactly when its read meets the condition.** -/
theorem payloadSafe_iff (h : s.Inv build) (notify : UInt32) (read : Option TensorDescriptor) (retries : ℕ)
    (now : UInt64) : s.PayloadSafe build notify read retries now ↔ s.ReadMapped build read := by
  constructor
  · rintro ⟨hreturned, -, -⟩ desc rfl hmeta hacc
    -- the frame is handed out, so its view has a payload
    obtain ⟨notify_now, heq⟩ := TensorSubscriber.latestView_of_accepts hmeta hacc notify retries now
    rw [← h.tables, ← TensorSubscriber.hasPayload_viewOf retries now]
    exact hreturned _ (by rw [heq])
  · intro hmapped
    have hview : ∀ desc, read = some desc → s.att.sub.metadata ≠ none → s.att.sub.Accepts desc →
        (s.att.sub.viewOf desc retries now).HasPayload := fun desc hdesc hmeta hacc =>
      (TensorSubscriber.hasPayload_viewOf retries now).mpr ((h.tables _).mpr (hmapped desc hdesc hmeta hacc))
    have hc := s.att.sub.latestView_cases notify read retries now
    refine ⟨?_, ?_, ?_⟩
    · intro v hv
      generalize s.att.sub.latestView notify read retries now = r at hc hv
      cases hc with
      | detached _ => cases hv
      | fresh hmeta desc hdesc hacc notify_now =>
          obtain rfl := Option.some.inj hv
          exact hview desc hdesc hmeta hacc
      | fallback _ =>
          obtain ⟨v₀, hv₀, rfl⟩ := TensorSubscriber.fallbackView_spec hv
          exact h.good v₀ hv₀
    · generalize s.att.sub.latestView notify read retries now = r at hc
      cases hc with
      | detached _ => exact h.good
      | fresh hmeta desc hdesc hacc notify_now =>
          intro v hv
          obtain rfl := Option.some.inj hv
          exact hview desc hdesc hmeta hacc
      | fallback _ => exact h.good
    · rintro desc rfl hmeta hbuf
      exact TensorSubscriber.latestView_of_not_accepts hmeta (fun hacc => hbuf (hmapped desc rfl hmeta hacc)) notify
        retries now

/-- A subscriber that has attached nothing. -/
theorem Inv.create (h : s.att.sub = .create) (hnone : s.handshake = none) : s.Inv build where
  tables idx := by
    refine iff_of_false ?_ ?_
    · rw [h]
      rintro (hm | hm)
      · exact hm rfl
      · exact hm rfl
    · rintro ⟨hs, hmem, -⟩
      rw [hnone] at hmem
      cases hmem
  good v hv := by
    rw [h] at hv
    cases hv

/-- **Every event keeps the invariant**, if what it reads meets the condition. -/
theorem Inv.step {e : AttachmentEv} (h : s.Inv build) (hc : s.Condition build e) (hs : s.step build e = some s') :
    s'.Inv build := by
  obtain ⟨att, hatt, rfl⟩ := Option.map_eq_some_iff.mp hs
  cases e with
  | prod pe =>
      obtain ⟨prod, -, rfl⟩ := Option.map_eq_some_iff.mp hatt
      exact ⟨h.tables, h.good⟩
  | waitHandshake link ans =>
      obtain ⟨connect, hlink, rfl⟩ := Option.map_eq_some_iff.mp hatt
      refine ⟨fun idx => ?_, TensorSubscriber.goodPayload_waitHandshake h.good build _⟩
      -- the record kept beside the attachment is that of the connection just made
      have hrecord : s.record build (.waitHandshake link ans) =
          s.att.sub.handshakeBy build { ans with connect := connect } s.handshake := by
        dsimp only [record]
        rw [hlink]
        rfl
      unfold Maps
      rw [hrecord]
      exact TensorSubscriber.bufferMapped_waitHandshake h.tables { ans with connect := connect } idx
  | latestView notify read retries now =>
      -- the tables stay, and what is remembered is safe as the call met the condition
      have hsame := (s.att.sub.latestView_sameAttachment notify read retries now).1
      have hkept := ((payloadSafe_iff h notify read retries now).mpr hc).remembered
      simp only [Attachment.step] at hatt
      split_ifs at hatt
      cases hatt
      exact ⟨fun idx => hsame.bufferMapped.trans (h.tables idx), hkept⟩
  | arrive | drainFences | setFallbackPolicy =>
      cases hatt
      exact ⟨h.tables, h.good⟩

end RecordedAttachment

/-- **A subscriber and its producer**, with the handshake that the subscriber's buffers come from. -/
def recordedMachine (build : BuildConfig) : Machine RecordedAttachment AttachmentEv where
  init s := (attachmentMachine build).init s.att ∧ s.handshake = none
  step := RecordedAttachment.step build

/-- **The record is on the side**: the runs are those of the attachment. -/
theorem recorded_run_iff {build : BuildConfig} {tr : List AttachmentEv} {a : Attachment} :
    (∃ h, (recordedMachine build).Run tr ⟨a, h⟩) ↔ (attachmentMachine build).Run tr a := by
  constructor
  · rintro ⟨h, hrun⟩
    refine hrun.invariant (P := fun tr s => (attachmentMachine build).Run tr s.att) (fun s hs => .nil ?_) ?_
    · exact (show (attachmentMachine build).init s.att ∧ s.handshake = none from hs).1
    · intro tr s e s' _ ih hs
      obtain ⟨att, hatt, rfl⟩ := Option.map_eq_some_iff.mp hs
      exact ih.snoc hatt
  · intro hrun
    refine hrun.invariant (P := fun tr a => ∃ h, (recordedMachine build).Run tr ⟨a, h⟩) (fun a ha => ?_) ?_
    · exact ⟨none, .nil ⟨ha, rfl⟩⟩
    · rintro tr a e a' - ⟨h, ih⟩ hs
      exact ⟨_, ih.snoc (Option.map_eq_some_iff.mpr ⟨a', hs, rfl⟩)⟩

/-- **When every view has a payload**: in a run in which each `latest_view` call so far met the condition,
the next one keeps the promise exactly when it meets the condition too. Any subset of the mappings and
imports of any handshake may have failed. -/
theorem views_have_payload_iff {build : BuildConfig} {tr : List AttachmentEv} {s : RecordedAttachment}
    (hrun : (recordedMachine build).RunWhere (RecordedAttachment.Condition build) tr s) (notify : UInt32)
    (read : Option TensorDescriptor) (retries : ℕ) (now : UInt64) :
    s.PayloadSafe build notify read retries now ↔ s.ReadMapped build read := by
  have h : s.Inv build := by
    refine hrun.invariant (P := fun _ s => s.Inv build) ?_ fun _ _ _ _ _ hi hc hs => hi.step hc hs
    intro s (hs : (producerMachine.init s.att.prod ∧ s.att.sub = .create) ∧ s.handshake = none)
    exact .create hs.1.2 hs.2
  exact RecordedAttachment.payloadSafe_iff h notify read retries now

/-- A subscriber that could map its buffer reads a frame and promises a payload. -/
theorem views_have_payload_mapped : ∃ (s : RecordedAttachment) (d : TensorDescriptor),
    s.att.prod.pub.published = [d] ∧ s.PayloadSafe ⟨false, false⟩ 1 (some d) 0 9 := by
  obtain ⟨prod, hprod⟩ : ∃ prod, Producer.create ⟨false, false⟩ (.oneBuffer 4096) .obliging = some prod :=
    ⟨_, rfl⟩
  -- the buffer is mapped and one frame published in it
  obtain ⟨s, hs⟩ : ∃ s, (recordedMachine ⟨false, false⟩).exec ⟨⟨prod, .create⟩, none⟩
      [.prod (.connect 0 64 true), .prod .handshake, .waitHandshake (.bundle 0 [] 1) (.obliging fun _ => true),
        .prod (.publish 7 (.bytesFrame 16 .None) none)] = some s := by
    cases hprod
    exact ⟨_, rfl⟩
  have hrun := Machine.RunWhere.of_exec (M := recordedMachine ⟨false, false⟩)
    (C := RecordedAttachment.Condition ⟨false, false⟩) ⟨⟨⟨_, _, _, hprod⟩, rfl⟩, rfl⟩ hs
    ⟨trivial, fun _ _ => ⟨trivial, fun _ _ => ⟨trivial, fun _ _ => ⟨trivial, fun _ _ => trivial⟩⟩⟩⟩
  obtain ⟨d, hd⟩ : ∃ d, s.att.prod.pub.published = [d] := by
    cases hprod
    cases hs
    exact ⟨_, rfl⟩
  refine ⟨s, d, hd, (views_have_payload_iff hrun 1 (some d) 0 9).mpr fun desc hdesc _ _ => ?_⟩
  cases hdesc
  cases hprod
  cases hs
  cases hd
  exact ⟨_, rfl, by decide, .inl rfl⟩

/-- **A view can come without a payload**: the only buffer of the pool cannot be mapped, the frame in it is
handed out all the same, without a pointer, and stays the last good frame. -/
theorem view_without_payload : ∃ (s : Attachment) (d : TensorDescriptor) (v : TensorView),
    (attachmentMachine ⟨false, false⟩).Run [.prod (.connect 0 64 true), .prod .handshake,
      .waitHandshake (.bundle 0 [] 1) (.obliging fun _ => false),
      .prod (.publish 7 (.bytesFrame 16 .None) none)] s ∧
    s.prod.pub.published = [d] ∧ (s.sub.latestView 1 (some d) 0 9).1 = some v ∧
    v.data = none ∧ v.devicePtr = none ∧
    ((s.sub.latestView 1 (some d) 0 9).2.lastGood.map fun v => (v.data, v.devicePtr)) =
      some (none, none) := by
  obtain ⟨prod, hprod⟩ : ∃ prod, Producer.create ⟨false, false⟩ (.oneBuffer 4096) .obliging = some prod :=
    ⟨_, rfl⟩
  -- every `mmap` of the consumer fails
  obtain ⟨s, hs⟩ : ∃ s, (attachmentMachine ⟨false, false⟩).exec ⟨prod, .create⟩
      [.prod (.connect 0 64 true), .prod .handshake,
        .waitHandshake (.bundle 0 [] 1) (.obliging fun _ => false),
        .prod (.publish 7 (.bytesFrame 16 .None) none)] = some s := by
    cases hprod
    exact ⟨_, rfl⟩
  have hrun := Machine.Run.of_exec (M := attachmentMachine ⟨false, false⟩)
    ⟨⟨_, _, _, hprod⟩, rfl⟩ hs
  obtain ⟨d, hd⟩ : ∃ d, s.prod.pub.published = [d] := by
    cases hprod
    cases hs
    exact ⟨_, rfl⟩
  obtain ⟨v, hv⟩ : ∃ v, (s.sub.latestView 1 (some d) 0 9).1 = some v := by
    cases hprod
    cases hs
    cases hd
    exact ⟨_, rfl⟩
  refine ⟨s, d, v, hrun, hd, hv, ?_⟩
  cases hprod
  cases hs
  cases hd
  cases hv
  exact ⟨rfl, rfl, rfl⟩

end Axon
