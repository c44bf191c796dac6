import Axon.Python.Arrays
import Axon.RingPayload

/-! # From one Python process to another

`pyMachine` runs the `publish`, `acquire` and `publish_device` of the bindings against a ring of buffers and its
consumers. The producer is one Python thread: it copies an array byte by byte, and consumers go on between any two
bytes. It keeps one frame in flight, as `acquire` asks it to: a descriptor is published at most once, and not after
the next one has been acquired. A `publish_device` that was refused may be called again. The pool stays as it is.

* **`publish_returns_iff`** says which calls return, and that these are the ones whose frames go out.
* **`numpy_round_trip`** says what a consumer finds in the arrays that it is shown. -/

namespace Axon

open Foundation

/-! ## The ring, as far as the bindings look at it -/

/-- The event is the owner's: acquire a descriptor, fill its buffer, publish it. -/
def RingEv.isOwner {R : Type} : RingEv R → Bool
  | .acquire | .write _ _ | .publish _ _ _ => true
  | _ => false

namespace Ring

variable {R : Type} [DecidableEq R] {build : BuildConfig} {s s' : Ring R} {e : RingEv R}

/-- Whatever the owner does not do leaves the turn and the frames alone. -/
theorem sameTurn_of_step (hs : s.step build e = some s') (he : e.isOwner = false) :
    s'.turn = s.turn ∧ s'.frames = s.frames := by
  cases step_cases hs with
  | acquire | write | refuse | accept => cases he
  | pub | waitHandshake | silent | access | load => exact ⟨rfl, rfl⟩

/-- What is announced stays the same in a ring. -/
theorem announcing_step {a : Announcement} (h : Publication.Announcing a s.pub)
    (hs : s.step build e = some s') : Publication.Announcing a s'.pub := by
  cases step_cases hs with
  | acquire pub _ hpub => exact h.step hpub nofun
  | refuse _ _ _ pub _ _ hpub => exact h.step hpub nofun
  | accept _ _ _ pub _ _ _ _ hpub => exact h.step hpub nofun
  | pub e pub consumers hby hpub hsubs =>
      refine h.step hpub ?_
      rintro n rfl
      cases hby
  | access _ _ _ _ _ pub _ _ hpub => exact h.step hpub nofun
  | write | waitHandshake | silent | load => exact h

/-- The views held have the shape and the type of their descriptors. -/
def Shown (s : Ring R) : Prop :=
  ∀ r, ∀ v ∈ s.held r, v.view.shape = v.desc.dims.map UInt32.toNat ∧ v.view.dtype = v.desc.dtype

omit [DecidableEq R] in
/-- A consumer's views after one of its events. -/
theorem Shown.heldAfter (h : s.Shown) (r : R) (e : WaitEv Unit) : ∀ v ∈ s.heldAfter r e,
    v.view.shape = v.desc.dims.map UInt32.toNat ∧ v.view.dtype = v.desc.dtype := by
  intro v hv
  unfold Ring.heldAfter at hv
  split at hv
  · split_ifs at hv
    · rcases List.mem_append.mp hv with hv | hv
      · exact h r v hv
      · rw [List.mem_singleton.mp hv]
        exact ⟨rfl, rfl⟩
    · exact h r v hv
  · exact h r v hv

/-- A new view that shows its descriptor. -/
theorem Shown.update (h : s.Shown) (r : R) {views : List HeldView}
    (hviews : ∀ v ∈ views, v.view.shape = v.desc.dims.map UInt32.toNat ∧ v.view.dtype = v.desc.dtype)
    {pub : Publication R} {consumers : R → Waiter Unit} :
    Shown { s with pub := pub, consumers := consumers, held := Function.update s.held r views } := by
  show ∀ r', ∀ v ∈ Function.update s.held r views r', _
  rw [Function.forall_update_iff s.held fun _ vs => ∀ v ∈ vs,
    v.view.shape = v.desc.dims.map UInt32.toNat ∧ v.view.dtype = v.desc.dtype]
  exact ⟨hviews, fun r' _ => h r'⟩

/-- **Every view handed out shows its descriptor.** -/
theorem Shown.step (h : s.Shown) (hs : s.step build e = some s') : s'.Shown := by
  cases step_cases hs with
  | acquire | write | refuse | accept | pub | silent => exact h
  | waitHandshake r => exact h.update r fun v hv => absurd hv List.not_mem_nil
  | access r e => exact h.update r (h.heldAfter r e)
  | load => exact h

end Ring

/-! ## The producer's calls -/

/-- An exception that the bindings raise. -/
inductive PyError
  | runtimeError (msg : String)
  | valueError (msg : String)
  /-- The array's own, from `request`. -/
  | errorAlreadySet

/-- **`throw_publish_error`**: `publish` has rejected the descriptor. -/
def throwPublishError (strerror : Errno → String) (err : Errno) : PyError :=
  if err = .EMSGSIZE then .valueError "frame does not fit in the pool buffer (EMSGSIZE)"
  else .valueError ("descriptor rejected by publish(): " ++ strerror err)

/-- Where the producer's thread stands. -/
inductive PyPhase
  | idle
  /-- `acquire` has returned a descriptor, and the buffer is being filled; `staging` is what the descriptor holds, a
  refused `publish_device` having filled it in. -/
  | acquired (staging : TensorDescriptor)
  /-- `publish` has been called with an array; `none` is one that does not export its buffer. -/
  | called (arr : Option BufferInfo) (dtype : DType)
  /-- `memcpy` stands at its byte `k`. -/
  | copying (arr : BufferInfo) (dtype : DType) (k : ℕ)
  /-- The descriptor, which held `staging`, is filled in. -/
  | described (f : PyFrame) (staging : TensorDescriptor)

/-- How a call of `publish` or `publish_device` went. -/
structure PyCall where
  /-- `none` for an array that does not export its buffer. -/
  frame : Option PyFrame
  /-- A buffer could be acquired and, for an array, written. -/
  writable : Bool
  result : Except PyError Unit

/-- A ring of frames with a Python thread at its producer. -/
structure PyRing (R : Type) where
  ring : Ring R
  phase : PyPhase
  /-- The calls that have returned or raised an exception, oldest first. -/
  ended : List PyCall
  /-- The frames that have gone out, each with what it was made from. -/
  sent : List (RingFrame × PyFrame)

/-- What the thread calls, and what goes on beside it. -/
inductive PyEv (R : Type)
  /-- `publish(array, dtype)` is called; `none` is an array whose `request` raises, as NumPy's dates do. -/
  | publish (arr : Option BufferInfo) (dtype : DType)
  /-- `memcpy` is done: check the rank and fill in the descriptor. -/
  | describe
  /-- `publish_device(acquired, shape, dtype)` is called. -/
  | publishDevice (shape : List UInt32) (dtype : DType)
  /-- What goes on in the ring: the calls that the producer makes, and all that consumers do. -/
  | ring (e : RingEv R)

/-- What an event is to the ring. -/
def PyEv.toRing {R : Type} : PyEv R → Option (RingEv R)
  | .ring e => some e
  | _ => none

namespace PyRing

variable {R : Type} [DecidableEq R]

/-- A call ends with an exception. -/
def raise (s : PyRing R) (frame : Option PyFrame) (writable : Bool) (e : PyError) (phase : PyPhase) : PyRing R :=
  { s with phase := phase, ended := s.ended ++ [⟨frame, writable, .error e⟩] }

/-- `publish` has acquired a descriptor: go on to `memcpy` unless it cannot be written, the array does not export its
buffer, or this is too large. -/
def beginCopy (s : PyRing R) (arr : Option BufferInfo) (dtype : DType) (a : AcquiredDescriptor) : PyRing R :=
  if a.bufferIndex < 0 ∨ a.hostView = none then
    s.raise (arr.map (.host · dtype)) false (.runtimeError "no writable pool buffer available") .idle
  else
    match arr with
    | none => s.raise none true .errorAlreadySet .idle
    | some arr =>
        if s.ring.pub.prod.pub.bufferSize < arr.nbytes then
          s.raise (some (.host arr dtype)) true (.runtimeError "array larger than pool buffer") .idle
        else { s with phase := .copying arr dtype 0 }

/-- The checks of `publish_device`, which come before the descriptor is filled in. -/
def beginDevice (s : PyRing R) (shape : List UInt32) (dtype : DType) (a : AcquiredDescriptor)
    (staging : TensorDescriptor) : PyRing R :=
  if a.bufferIndex < 0 then
    s.raise (some (.device shape dtype)) false (.runtimeError "no writable pool buffer available") (.acquired staging)
  else if (PyFrame.device shape dtype).RankFits then { s with phase := .described (.device shape dtype) staging }
  else
    s.raise (some (.device shape dtype)) true (.valueError ("shape rank must be 1.." ++ toString kMaxRank))
      (.acquired staging)

/-- The rank is checked only when the bytes have been copied. -/
def endCopy (s : PyRing R) (arr : BufferInfo) (dtype : DType) (a : AcquiredDescriptor) : PyRing R :=
  if (PyFrame.host arr dtype).RankFits then { s with phase := .described (.host arr dtype) a.desc }
  else s.raise (some (.host arr dtype)) true (.valueError ("array rank must be 1.." ++ toString kMaxRank)) .idle

/-- Where a call leaves the thread that C++ `publish` has refused: `publish` drops its descriptor, `publish_device`
was lent one that Python goes on holding, as it has been filled in. -/
def afterRefusal (d : AcquiredDescriptor) : PyFrame → PyPhase
  | .host _ _ => .idle
  | .device _ _ => .acquired d.desc

/-- The C++ `publish` has been called with `d`, in the turn `t`; `ring` is the ring after it. -/
def afterPublish (strerror : Errno → String) (s : PyRing R) (ring : Ring R) (f : PyFrame) (t : Turn)
    (now : UInt64) (d : AcquiredDescriptor) : PyRing R :=
  match s.ring.pub.prod.pub.check d with
  | some err => raise { s with ring := ring } (some f) true (throwPublishError strerror err) (afterRefusal d f)
  | none =>
      { ring := ring
        phase := .idle
        ended := s.ended ++ [⟨some f, true, .ok ()⟩]
        sent := s.sent ++ [(s.ring.frameOf t (s.ring.pub.prod.pub.stamp s.ring.pub.prod.pool now d), f)] }

/-- What the producer makes of an event in the ring, given the ring after it; `none` where its code does not
make that call there. -/
def follow (strerror : Errno → String) (s : PyRing R) (ring : Ring R) : RingEv R → Option (PyRing R)
  | .acquire => ring.turn.bind fun t =>
      match s.phase with
      | .called arr dtype => some (beginCopy { s with ring := ring } arr dtype t.acquired)
      | .idle | .acquired _ => some { s with ring := ring, phase := .acquired t.acquired.desc }
      | _ => none
  | .write x b =>
      match s.phase with
      | .copying arr dtype k =>
          if x = k ∧ k < arr.nbytes.toNat ∧ b = arr.byte k then
            some { s with ring := ring, phase := .copying arr dtype (k + 1) }
          else none
      | .acquired _ => some { s with ring := ring }
      | _ => none
  | .publish now d syncFd => s.ring.turn.bind fun t =>
      match s.phase with
      | .described f staging =>
          if d.desc = f.describe staging ∧ d.bufferIndex = t.acquired.bufferIndex ∧ syncFd = none then
            some (afterPublish strerror s ring f t now d)
          else none
      | _ => none
  | _ => some { s with ring := ring }

/-- One event. -/
def step (build : BuildConfig) (strerror : Errno → String) (s : PyRing R) : PyEv R → Option (PyRing R)
  | .publish arr dtype =>
      match s.phase with
      | .idle | .acquired _ => some { s with phase := .called arr dtype }
      | _ => none
  | .describe =>
      match s.phase with
      | .copying arr dtype k =>
          if k = arr.nbytes.toNat then s.ring.turn.map fun t => s.endCopy arr dtype t.acquired else none
      | _ => none
  | .publishDevice shape dtype =>
      match s.phase with
      | .acquired staging => s.ring.turn.map fun t => s.beginDevice shape dtype t.acquired staging
      | _ => none
  | .ring e => (s.ring.step build e).bind fun ring => s.follow strerror ring e

end PyRing

/-- **A Python producer, its ring of buffers and its consumers**, from their creation. -/
def pyMachine (R : Type) [DecidableEq R] (build : BuildConfig) (strerror : Errno → String) :
    Machine (PyRing R) (PyEv R) where
  init s := (ringMachine R build).init s.ring ∧ s.phase = .idle ∧ s.ended = [] ∧ s.sent = []
  step := PyRing.step build strerror

/-! ## The invariant -/

namespace PyFrame

/-- The array's bytes are among those written; a device buffer is not looked at. -/
def Copied : PyFrame → (ℕ → Option UInt8) → Prop
  | host arr _, written => ∀ x < arr.nbytes.toNat, written x = some (arr.byte x)
  | device _ _, _ => True

/-- **The frames that `publish` of a publisher with `n` bytes per buffer accepts.** -/
def Acceptable (f : PyFrame) (n : UInt64) : Prop :=
  f.RankFits ∧ f.dtype.Known ∧ f.size ≠ 0 ∧ f.size ≤ n

/-- What the C++ `publish` checks of a descriptor that has been filled in. -/
theorem check_describe_iff {f : PyFrame} (hrank : f.RankFits) {d : TensorDescriptor} (hpitch : d.rowPitch = 0)
    (n : UInt64) : descriptorError (f.describe d) n = none ↔ f.dtype.Known ∧ f.size ≠ 0 ∧ f.size ≤ n := by
  have hlen : (f.describe d).rank.toNat = f.shape.length := by
    show (UInt8.ofNat f.shape.length).toNat = _
    rw [UInt8.toNat_ofNat']
    exact Nat.mod_eq_of_lt (by have := hrank.2; unfold kMaxRank at this; omega)
  have hwf : (f.describe d).WellFormed ↔ f.dtype.Known ∧ f.size ≠ 0 := by
    have hsize : 0 < f.size.toNat ↔ f.size ≠ 0 := by
      rw [Nat.pos_iff_ne_zero, Ne, Ne, ← UInt64.toNat_inj]
      rfl
    unfold TensorDescriptor.WellFormed
    rw [hlen]
    show f.RankFits ∧ f.dtype.Known ∧ 0 < f.size.toNat ↔ _
    rw [hsize]
    exact and_iff_right hrank
  have hfit : (f.describe d).FitsIn n ↔ f.size ≤ n := by
    rw [UInt64.le_iff_toNat_le]
    show 0 + f.size.toNat ≤ n.toNat ↔ _
    rw [Nat.zero_add]
  -- no row pitch is filled in
  have hpasses : (f.describe d).PitchPasses := fun hne => absurd hpitch hne
  rw [← and_assoc, ← hwf, ← hfit]
  rcases (f.describe d).descriptorError_cases n with ⟨hno, h⟩ | ⟨⟨-, hno⟩, h⟩ | ⟨-, hno, -⟩ | ⟨hyes, -, h⟩
  · simp [h, hno]
  · simp [h, hno]
  · exact absurd hpasses hno
  · exact iff_of_true h hyes

/-- A frame that has gone out, and what it was made from. -/
structure Made (p : PyFrame) (f : RingFrame) : Prop where
  dims : f.desc.dims = p.shape
  dtype : f.desc.dtype = p.dtype
  offset : f.desc.offset = 0
  known : p.dtype.Known
  nonempty : p.size ≠ 0
  copied : p.Copied f.written

end PyFrame

/-- What holds where the producer's thread stands, in the turn that goes on. -/
def PyPhase.Holds : PyPhase → Option Turn → Prop
  | .copying arr _ k, turn => k ≤ arr.nbytes.toNat ∧
      ∃ t, turn = some t ∧ ∀ x < k, t.written x = some (arr.byte x)
  | .described f staging, turn => f.RankFits ∧ staging.rowPitch = 0 ∧ ∃ t, turn = some t ∧ f.Copied t.written
  | .acquired staging, _ => staging.rowPitch = 0
  | _, _ => True

namespace PyRing

variable {R : Type} [DecidableEq R] {build : BuildConfig} {strerror : Errno → String} {n : UInt64}
  {s s' : PyRing R}

omit [DecidableEq R] in
/-- The producer leaves the ring as the event has left it. -/
theorem follow_ring {ring : Ring R} {e : RingEv R} (h : s.follow strerror ring e = some s') : s'.ring = ring := by
  unfold follow at h
  split at h
  -- an acquired descriptor is copied into, returned, or given back; the ring is untouched by that
  · obtain ⟨t, -, h⟩ := Option.bind_eq_some_iff.mp h
    split at h
    · cases h
      unfold beginCopy
      split_ifs
      · rfl
      · split
        · rfl
        · split_ifs <;> rfl
    · cases h
      rfl
    · cases h
      rfl
    · cases h
  · split at h
    · split_ifs at h
      cases h
      rfl
    · cases h
      rfl
    · cases h
  · obtain ⟨t, -, h⟩ := Option.bind_eq_some_iff.mp h
    split at h
    · split_ifs at h
      cases h
      unfold afterPublish
      split <;> rfl
    · cases h
  · cases h
    rfl

/-- **The invariant**, with `n` bytes per buffer. -/
structure Inv (n : UInt64) (s : PyRing R) : Prop where
  announcing : ∃ a, Publication.Announcing a s.ring.pub ∧ a.size = n
  pitch : ∀ t, s.ring.turn = some t → t.acquired.desc.rowPitch = 0
  shown : s.ring.Shown
  phase : s.phase.Holds s.ring.turn
  frames : s.sent.map Prod.fst = s.ring.frames
  made : ∀ p ∈ s.sent, p.2.Made p.1
  ended : ∀ c ∈ s.ended, c.result.isOk = true ↔ c.writable = true ∧ ∃ f ∈ c.frame, f.Acceptable n
  accepted : s.sent.map Prod.snd = (s.ended.filter (·.result.isOk)).filterMap (·.frame)

namespace Inv

omit [DecidableEq R] in
/-- The publisher's buffers stay as large as they are. -/
theorem bufferSize (h : s.Inv n) : s.ring.pub.prod.pub.bufferSize = n := by
  obtain ⟨a, ha, rfl⟩ := h.announcing
  exact ha.announces.pub.size

/-- At the beginning no frame is being written. -/
theorem of_init (h : (pyMachine R build strerror).init s) : s.Inv s.ring.pub.prod.pub.bufferSize := by
  obtain ⟨⟨⟨build, cfg, sys, -, hcreate⟩, hphase, -, hturn, hframes, hconsumers⟩, hidle, hended, hsent⟩ := h
  -- nothing has been acquired, published or raised yet
  refine ⟨⟨_, ⟨Producer.announces_of_create ⟨build, cfg, sys, hcreate⟩, ?_⟩, rfl⟩, ?_, ?_, ?_, ?_, ?_, ?_, ?_⟩
  · rw [hphase]
    exact nofun
  · rw [hturn]
    exact nofun
  · intro r v hv
    rw [(hconsumers r).2] at hv
    cases hv
  · rw [hidle]
    trivial
  · rw [hsent, hframes]
    rfl
  · rw [hsent]
    exact nofun
  · rw [hended]
    exact nofun
  · rw [hsent, hended]
    rfl

omit [DecidableEq R] in
/-- The producer's thread moves on without a result. -/
theorem setPhase (h : s.Inv n) {phase : PyPhase} (hphase : phase.Holds s.ring.turn) :
    Inv n { s with phase := phase } :=
  ⟨h.announcing, h.pitch, h.shown, hphase, h.frames, h.made, h.ended, h.accepted⟩

omit [DecidableEq R] in
/-- A call ends with an exception that it has to end with. -/
theorem raise (h : s.Inv n) {frame : Option PyFrame} {writable : Bool} (e : PyError)
    (phase : PyPhase) (hbad : writable = true → ∀ f ∈ frame, ¬ f.Acceptable n) (hphase : phase.Holds s.ring.turn) :
    (s.raise frame writable e phase).Inv n := by
  refine ⟨h.announcing, h.pitch, h.shown, hphase, h.frames, h.made, fun c hc => ?_, ?_⟩
  · rcases List.mem_append.mp hc with hc | hc
    · exact h.ended c hc
    · rw [List.mem_singleton.mp hc]
      refine iff_of_false (by simp [Except.isOk, Except.toBool]) ?_
      rintro ⟨hwritable, f, hf, hacc⟩
      exact hbad hwritable f hf hacc
  · show s.sent.map Prod.snd = ((s.ended ++ [_]).filter _).filterMap _
    rw [List.filter_append, List.filterMap_append, ← h.accepted]
    exact (List.append_nil _).symm

/-- The ring goes on without a new frame. -/
theorem setRing (h : s.Inv n) {e : RingEv R} {ring : Ring R} (hs : s.ring.step build e = some ring)
    (hpitch : ∀ t, ring.turn = some t → t.acquired.desc.rowPitch = 0) (hframes : ring.frames = s.ring.frames)
    {phase : PyPhase} (hphase : phase.Holds ring.turn) : Inv n { s with ring := ring, phase := phase } := by
  obtain ⟨a, ha, hsize⟩ := h.announcing
  exact ⟨⟨a, Ring.announcing_step ha hs, hsize⟩, hpitch, h.shown.step hs, hphase, h.frames.trans hframes.symm,
    h.made, h.ended, h.accepted⟩

/-- A descriptor that has been acquired has no row pitch: it is empty. -/
theorem pitch_acquired {ring ring' : Ring R} (hs : ring.step build .acquire = some ring') {t : Turn}
    (ht : ring'.turn = some t) : t.acquired.desc.rowPitch = 0 := by
  cases Ring.step_cases hs with
  | acquire pub =>
      cases ht
      show (ring.pub.prod.pub.acquireDescriptor ring.pub.prod.pool).1.desc.rowPitch = 0
      unfold TensorPublisher.acquireDescriptor
      split_ifs <;> rfl

/-- A descriptor has been acquired. -/
theorem acquired (h : s.Inv n) {ring : Ring R} (hs : s.ring.step build .acquire = some ring) {phase : PyPhase}
    (hphase : phase.Holds ring.turn) : Inv n { s with ring := ring, phase := phase } := by
  refine h.setRing hs (fun t ht => pitch_acquired hs ht) ?_ hphase
  cases Ring.step_cases hs with
  | acquire => rfl

/-- `publish` has acquired a descriptor. -/
theorem beginCopy (h : s.Inv n) {ring : Ring R} (hs : s.ring.step build .acquire = some ring) {t : Turn}
    (ht : ring.turn = some t) (arr : Option BufferInfo) (dtype : DType) :
    (PyRing.beginCopy { s with ring := ring } arr dtype t.acquired).Inv n := by
  -- acquiring is a step of the ring
  have hring : Inv n { s with ring := ring, phase := .idle } := h.acquired hs trivial
  unfold PyRing.beginCopy
  split_ifs with hview
  · exact hring.raise _ .idle nofun trivial
  -- the array may have no buffer to export, or too many bytes
  cases arr with
  | none => exact hring.raise _ .idle (fun _ => nofun) trivial
  | some arr =>
      dsimp only
      split_ifs with hsize
      · refine hring.raise _ .idle (fun _ f hf hacc => ?_) trivial
        cases hf
        have hsize : ring.pub.prod.pub.bufferSize < arr.nbytes := hsize
        have hn : ring.pub.prod.pub.bufferSize = n := hring.bufferSize
        rw [hn] at hsize
        exact UInt64.not_le.mpr hsize hacc.2.2.2
      · exact h.acquired hs ⟨Nat.zero_le _, t, ht, nofun⟩

/-- `memcpy` writes one byte. -/
theorem copy (h : s.Inv n) {arr : BufferInfo} {dtype : DType} {k : ℕ} (hphase : s.phase = .copying arr dtype k)
    {ring : Ring R} (hs : s.ring.step build (.write k (arr.byte k)) = some ring) (hk : k < arr.nbytes.toNat) :
    Inv n { s with ring := ring, phase := .copying arr dtype (k + 1) } := by
  have hholds := h.phase
  rw [hphase] at hholds
  obtain ⟨-, t, ht, hwritten⟩ := hholds
  have hpitch := h.pitch
  -- the byte is one that was written before, or the one written now
  cases Ring.step_cases hs with
  | write _ _ t' m ht' hview hx =>
      cases ht.symm.trans ht'
      refine h.setRing hs ?_ rfl ⟨hk, _, rfl, fun x hx => ?_⟩
      · rintro _ ⟨⟩
        exact hpitch t ht
      · show Function.update t.written k (some (arr.byte k)) x = some (arr.byte x)
        by_cases hxk : x = k
        · rw [hxk, Function.update_self]
        · rw [Function.update_of_ne hxk]
          exact hwritten x (by omega)

/-- The descriptor has been filled in, and the C++ `publish` looks at it. -/
theorem afterPublish (h : s.Inv n) {f : PyFrame} {staging : TensorDescriptor}
    (hphase : s.phase = .described f staging) {t : Turn} (ht : s.ring.turn = some t) {now : UInt64}
    {d : AcquiredDescriptor} {ring : Ring R} (hs : s.ring.step build (.publish now d none) = some ring)
    (hd : d.desc = f.describe staging) :
    (PyRing.afterPublish strerror s ring f t now d).Inv n := by
  have hholds := h.phase
  rw [hphase] at hholds
  obtain ⟨hrank, hpitch, t', ht', hcopied⟩ := hholds
  cases ht.symm.trans ht'
  -- what the check decides
  have hcheck : s.ring.pub.prod.pub.check d = none ↔ f.dtype.Known ∧ f.size ≠ 0 ∧ f.size ≤ n := by
    rw [TensorPublisher.check, hd, h.bufferSize]
    exact PyFrame.check_describe_iff hrank hpitch n
  cases Ring.step_cases hs with
  | refuse _ _ _ pub err hrefused hpub =>
      unfold PyRing.afterPublish
      rw [hrefused]
      have hring : Inv n { s with ring := { s.ring with pub := pub }, phase := .idle } :=
        h.setRing hs h.pitch rfl trivial
      refine hring.raise (throwPublishError strerror err) (afterRefusal d f) (fun _ f' hf' hacc => ?_) ?_
      · cases hf'
        rw [hcheck.mpr hacc.2] at hrefused
        cases hrefused
      · -- what `publish_device` has filled in has no row pitch either
        cases f with
        | host => trivial
        | device shape dtype =>
            show d.desc.rowPitch = 0
            rw [hd]
            exact hpitch
  | accept _ _ _ pub t' ht' hindex hnone hpub =>
      cases ht.symm.trans ht'
      unfold PyRing.afterPublish
      rw [hnone]
      have hacc := hcheck.mp hnone
      obtain ⟨a, ha, hsize⟩ := h.announcing
      refine ⟨⟨a, Ring.announcing_step ha hs, hsize⟩, nofun, h.shown.step hs, trivial, ?_, fun p hp => ?_,
        fun c hc => ?_, ?_⟩
      · show (s.sent ++ [_]).map Prod.fst = s.ring.frames ++ [_]
        rw [List.map_append, h.frames]
        rfl
      · rcases List.mem_append.mp hp with hp | hp
        · exact h.made p hp
        · rw [List.mem_singleton.mp hp]
          have hdims : d.desc.dims = f.shape := by
            rw [hd]
            exact TensorDescriptor.dims_fillIn hrank.2 _ _ _
          refine ⟨hdims, ?_, ?_, hacc.1, hacc.2.1, hcopied⟩
          · show d.desc.dtype = f.dtype
            rw [hd]
            rfl
          · show d.desc.offset = 0
            rw [hd]
            rfl
      · rcases List.mem_append.mp hc with hc | hc
        · exact h.ended c hc
        · rw [List.mem_singleton.mp hc]
          exact iff_of_true rfl ⟨rfl, f, rfl, hrank, hacc⟩
      · show (s.sent ++ [_]).map Prod.snd = ((s.ended ++ [_]).filter _).filterMap _
        rw [List.map_append, List.filter_append, List.filterMap_append, h.accepted]
        rfl

/-- Something happens in the ring. -/
theorem follow (h : s.Inv n) {e : RingEv R} {ring : Ring R} (hs : s.ring.step build e = some ring)
    (hf : s.follow strerror ring e = some s') : s'.Inv n := by
  by_cases he : e.isOwner = true
  · cases e with
    | acquire =>
        obtain ⟨t, ht, hf⟩ := Option.bind_eq_some_iff.mp hf
        split at hf
        · cases hf
          exact h.beginCopy hs ht _ _
        · cases hf
          exact h.acquired hs (pitch_acquired hs ht)
        · cases hf
          exact h.acquired hs (pitch_acquired hs ht)
        · cases hf
    | write x b =>
        dsimp only [PyRing.follow] at hf
        split at hf
        · rename_i arr dtype k hphase
          split_ifs at hf with hbyte
          obtain ⟨rfl, hk, rfl⟩ := hbyte
          cases hf
          exact h.copy hphase hs hk
        · rename_i staging hphase
          cases hf
          have hpitch := h.pitch
          have hholds := h.phase
          rw [hphase] at hholds
          have hring : Inv n { s with ring := ring, phase := .acquired staging } := by
            cases Ring.step_cases hs with
            | write _ _ t m ht =>
                refine h.setRing hs ?_ rfl hholds
                rintro _ ⟨⟩
                exact hpitch t ht
          rw [← hphase] at hring
          exact hring
        · cases hf
    | publish now d syncFd =>
        obtain ⟨t, ht, hf'⟩ := Option.bind_eq_some_iff.mp hf
        split at hf'
        · rename_i f staging hphase
          split_ifs at hf' with hd
          obtain ⟨hdesc, -, rfl⟩ := hd
          cases hf'
          exact h.afterPublish hphase ht hs hdesc
        · cases hf'
    | pub | waitHandshake | wait | load => cases he
  · -- the producer's thread does not move
    obtain ⟨hturn, hframes⟩ := Ring.sameTurn_of_step hs (Bool.eq_false_of_not_eq_true he)
    have hf : some { s with ring := ring } = some s' := by
      cases e with
      | acquire | write | publish => exact absurd rfl he
      | pub | waitHandshake | wait | load => exact hf
    cases hf
    have hphase : s.phase.Holds ring.turn := by
      rw [hturn]
      exact h.phase
    refine h.setRing hs ?_ hframes hphase
    rw [hturn]
    exact h.pitch

/-- **Every event keeps the invariant.** -/
theorem step (h : s.Inv n) {e : PyEv R} (hs : s.step build strerror e = some s') : s'.Inv n := by
  cases e with
  -- a call begins only where none is going on
  | publish arr dtype =>
      dsimp only [PyRing.step] at hs
      split at hs
      · cases hs
        exact h.setPhase trivial
      · cases hs
        exact h.setPhase trivial
      · cases hs
  | describe =>
      dsimp only [PyRing.step] at hs
      split at hs
      · rename_i arr dtype k hphase
        split_ifs at hs with hk
        obtain ⟨t, ht, rfl⟩ := Option.map_eq_some_iff.mp hs
        have hholds := h.phase
        rw [hphase] at hholds
        obtain ⟨-, t', ht', hwritten⟩ := hholds
        cases ht.symm.trans ht'
        -- the copy is complete: all bytes of the array have been written
        unfold endCopy
        split_ifs with hrank
        · exact h.setPhase ⟨hrank, h.pitch t ht, t, ht, fun x hx => hwritten x (hk ▸ hx)⟩
        · refine h.raise _ .idle (fun _ f hf hacc => ?_) trivial
          cases hf
          exact hrank hacc.1
      · cases hs
  | publishDevice shape dtype =>
      dsimp only [PyRing.step] at hs
      split at hs
      · rename_i staging hphase
        obtain ⟨t, ht, rfl⟩ := Option.map_eq_some_iff.mp hs
        have hpitch := h.phase
        rw [hphase] at hpitch
        unfold beginDevice
        split_ifs with hindex hrank
        · exact h.raise _ (.acquired staging) nofun hpitch
        -- the fields set by `publish_device` describe no bytes written by it
        · exact h.setPhase ⟨hrank, hpitch, t, ht, trivial⟩
        · refine h.raise _ (.acquired staging) (fun _ f hf hacc => ?_) hpitch
          cases hf
          exact hrank hacc.1
      · cases hs
  | ring e =>
      obtain ⟨ring, hring, hf⟩ := Option.bind_eq_some_iff.mp hs
      -- the events of the ring itself
      exact h.follow hring hf

/-- The invariant holds throughout every run. -/
theorem of_run {tr : List (PyEv R)} (h : (pyMachine R build strerror).Run tr s) :
    s.Inv s.ring.pub.prod.pub.bufferSize := by
  have hinv : ∃ n, s.Inv n :=
    h.invariant (P := fun _ s => ∃ n, Inv n s) (fun s hs => ⟨_, of_init hs⟩)
      fun _ _ _ _ _ ⟨n, h⟩ hs => ⟨n, h.step hs⟩
  obtain ⟨n, h⟩ := hinv
  rw [h.bufferSize]
  exact h

end Inv

/-- **The events in the ring are those of a run of the ring.** -/
theorem ring_run {tr : List (PyEv R)} (h : (pyMachine R build strerror).Run tr s) :
    (ringMachine R build).Run (tr.filterMap PyEv.toRing) s.ring := by
  refine Machine.Run.project (M := pyMachine R build strerror) (f := PyRing.ring) (fun s hs => hs.1) ?_ h
  intro s e s' hs
  -- what happens in Python alone has no event in the ring
  cases e with
  | publish arr dtype =>
      dsimp only [pyMachine, PyRing.step] at hs
      split at hs <;> cases hs <;> rfl
  | describe =>
      dsimp only [pyMachine, PyRing.step] at hs
      split at hs
      · split_ifs at hs
        obtain ⟨t, -, rfl⟩ := Option.map_eq_some_iff.mp hs
        show (endCopy _ _ _ _).ring = _
        unfold endCopy
        split_ifs <;> rfl
      · cases hs
  | publishDevice shape dtype =>
      dsimp only [pyMachine, PyRing.step] at hs
      split at hs
      · obtain ⟨t, -, rfl⟩ := Option.map_eq_some_iff.mp hs
        show (beginDevice _ _ _ _ _).ring = _
        unfold beginDevice
        split_ifs <;> rfl
      · cases hs
  | ring e =>
      obtain ⟨ring, hring, hf⟩ := Option.bind_eq_some_iff.mp hs
      show s.ring.step build e = some s'.ring
      rw [hring, follow_ring hf]

end PyRing

variable {R : Type} [DecidableEq R] {build : BuildConfig} {strerror : Errno → String} {tr : List (PyEv R)}
  {s : PyRing R}

/-- **Which calls return.** In every run, a call of `publish` or `publish_device` returns exactly when a buffer
could be written, the array exports its buffer, the rank is one to eight, the type is known, and the frame is neither
empty nor larger than a buffer; otherwise it raises an exception. The frames that have gone out are those of the calls
that returned, in order. -/
theorem publish_returns_iff (hrun : (pyMachine R build strerror).Run tr s) :
    (∀ c ∈ s.ended, c.result.isOk = true ↔
      c.writable = true ∧ ∃ f ∈ c.frame, f.Acceptable s.ring.pub.prod.pub.bufferSize) ∧
    s.sent.map Prod.snd = (s.ended.filter (·.result.isOk)).filterMap (·.frame) ∧
    s.sent.map Prod.fst = s.ring.frames :=
  have h := PyRing.Inv.of_run hrun
  ⟨h.ended, h.accepted, h.frames⟩

/-- An array of one byte, the `7`. -/
def BufferInfo.seven : BufferInfo := ⟨fun _ => 7, 0, 1, [1], [1], Nat.one_lt_two_pow (Nat.succ_ne_zero 62), rfl⟩

/-- What `publish` makes of a descriptor that it has acquired. -/
def filledSeven (a : AcquiredDescriptor) : AcquiredDescriptor :=
  { a with desc := (PyFrame.host .seven .U8).describe a.desc }

/-- The array of one byte, which is 7. -/
def PyFrame.isSeven : PyFrame → Bool
  | .host arr t => decide (arr.shape = [1] ∧ arr.nbytes = 1 ∧ arr.byte 0 = 7 ∧ dtypeSize t ≤ arr.itemsize ∧
      arr.ExtentsFit)
  | .device _ _ => false

/-- A consumer connects, and the array is published. -/
def publishArray (a : AcquiredDescriptor) (desc : TensorDescriptor) : List (PyEv Unit) :=
  [.ring (.pub (.prod (.connect 0 4096 true))), .ring (.pub (.prod .handshake)), .publish (some .seven) .U8,
    .ring .acquire, .ring (.write 0 7), .describe, .ring (.publish 7 (filledSeven a) none),
    .ring (.pub .sendFence)] ++
    (publishAccesses desc).map (fun e => .ring (publishAccess e)) ++ [.ring (.pub .pickUp)]

/-- The call returns, so its frame was acceptable. -/
theorem publish_returns_iff_seven : ∃ (s : PyRing Unit) (c : PyCall),
    c ∈ s.ended ∧ ∃ f ∈ c.frame, f.Acceptable s.ring.pub.prod.pub.bufferSize := by
  obtain ⟨prod, hprod⟩ : ∃ prod,
      Producer.create ⟨false, false⟩ { TensorPoolConfig.oneBuffer 4096 with nBuffers := 2 } .obliging =
        some prod := ⟨_, rfl⟩
  let acquired := (prod.pub.acquireDescriptor prod.pool).1
  let desc := prod.pub.stamp prod.pool 7 (filledSeven acquired)
  have hexec : ((pyMachine Unit ⟨false, false⟩ fun _ => "").exec ⟨twoBuffers prod, .idle, [], []⟩
      (publishArray acquired desc)).bind (fun s => s.ended[0]?.map fun c => c.result.isOk) = some true := by
    cases hprod
    decide +kernel
  obtain ⟨s, hs, hres⟩ := Option.bind_eq_some_iff.mp hexec
  obtain ⟨c, hc, hok⟩ := Option.map_eq_some_iff.mp hres
  have hmem := List.mem_of_getElem? hc
  have hrun : (pyMachine Unit ⟨false, false⟩ fun _ => "").Run (publishArray acquired desc) s :=
    .of_exec ⟨⟨⟨_, _, _, Sys.sound_obliging, hprod⟩, rfl, rfl, rfl, rfl, fun _ => ⟨rfl, rfl⟩⟩, rfl, rfl, rfl⟩ hs
  -- the call returned, so its frame was acceptable
  exact ⟨s, c, hmem, (((publish_returns_iff hrun).1 c hmem).mp hok).2⟩

/-! ## What comes out -/

/-- **What a consumer `r` finds in an array that it is shown**, over the frame `f` made from `src`. -/
structure PyRing.Finds (build : BuildConfig) (s : PyRing R) (r : R) (f : RingFrame) (src : PyFrame)
    (a : NumpyArray) : Prop where
  /-- The extents are those put in, cut to 32 bits. -/
  shape : a.shape = src.shape.map UInt32.toNat
  /-- The elements lie within the frame exactly when it is as long as its shape. -/
  within : src.ExtentsFit → (a.Within src.size.toNat ↔ src.LongEnough)
  /-- Every element is where it was copied from exactly when the array put in is contiguous. -/
  places : ∀ arr t, src = .host arr t → arr.ExtentsFit → dtypeSize t = arr.itemsize →
    a.shape = arr.shape ∧ ((∀ idx, IsIndex arr.shape idx → a.place idx 0 = strided arr.strides idx) ↔ arr.CContiguous)
  /-- The bytes are those copied, until the ring comes round to the frame's buffer. -/
  bytes : s.ring.pub.prod.pub.nextIndex ≤ f.turn + s.ring.pub.prod.pool.dmaBufFds.length →
    ∀ arr t, src = .host arr t → ∀ k b s', k < arr.nbytes.toNat →
      s.ring.step build (.load r a.data k b) = some s' → b = arr.byte k

/-- **A NumPy array comes out as it went in.** In every run of a Python producer and its consumers, a fresh view
is that of a frame that has gone out, if the guard of the slot does not wrap within one attempt to read it. Whatever
array is shown over the frame has the shape put in; its elements lie within the frame exactly when the type
given to `publish` is no wider than the array's items; they are where they were copied from exactly when the array was
contiguous; and their bytes are those copied, as long as fewer than `n` descriptors have been acquired, in a pool
of `n` buffers, after the frame's. -/
theorem numpy_round_trip (hrun : (pyMachine R build strerror).Run tr s) :
    (NoGuardWrap (slotTrace (Ring.pubTrace (tr.filterMap PyEv.toRing))) →
      ∀ r, ∀ v ∈ s.ring.held r, ∃ p ∈ s.sent, p.1.desc = v.desc) ∧
    ∀ r, ∀ v ∈ s.ring.held r, ∀ f src, (f, src) ∈ s.sent → f.desc = v.desc →
      ∀ pv, PyView.ofView v.view = some pv → ∀ a, pv.Shows a → s.Finds build r f src a := by
  have h := PyRing.Inv.of_run hrun
  have hring := PyRing.ring_run hrun
  refine ⟨fun hwrap r v hv => ?_, fun r v hv f src hsent hdesc pv hpv a ha => ?_⟩
  · obtain ⟨m, f, hf, hdesc, -⟩ := Ring.ofFrames_of_run hring hwrap r v hv
    have hmem := List.mem_of_getElem? hf
    rw [← h.frames] at hmem
    obtain ⟨p, hp, rfl⟩ := List.mem_map.mp hmem
    exact ⟨p, hp, hdesc⟩
  obtain ⟨hdims, hdtype, hoffset, hknown, hsize, hcopied⟩ := h.made _ hsent
  obtain ⟨hshape, htype⟩ := h.shown r v hv
  rw [← hdesc, hdims] at hshape
  rw [← hdesc, hdtype] at htype
  obtain ⟨hptr, harr⟩ := PyView.array_of_shows hpv ha
  have hashape : a.shape = src.shape.map UInt32.toNat := by
    rw [harr]
    exact hshape
  refine ⟨hashape, fun hfit => src.within_iff hfit hsize hknown hshape htype hpv ha, ?_, ?_⟩
  · rintro arr t rfl hfit hwidth
    have hfit' : (arr.shape.map UInt32.ofNat).map UInt32.toNat = arr.shape := hfit.shape_eq
    have hashape : a.shape = arr.shape := hashape.trans hfit'
    refine ⟨hashape, ?_⟩
    unfold BufferInfo.CContiguous
    rw [isCContiguous_iff arr.strided (arr.pos_of_nbytes hsize)]
    refine forall₂_congr fun idx hidx => ?_
    -- the place at which the element is shown
    have hplace : a.place idx 0 = rowMajor arr.shape idx * arr.itemsize := by
      have hvidx : IsIndex v.view.shape idx := by
        rw [hshape]
        exact hfit'.symm ▸ hidx
      rw [harr, NumpyArray.place_pyArray _ hvidx, htype, itemsize_numpyDtype hknown, hshape]
      show (rowMajor ((arr.shape.map UInt32.ofNat).map UInt32.toNat) idx * dtypeSize t + (0 : ℕ) : ℤ) = _
      rw [hfit', hwidth]
      simp
    rw [hplace]
    exact eq_comm
  · rintro hdepth arr t rfl k b s' hk hs
    obtain ⟨files, hinv⟩ := Ring.Inv.of_run hring
    have hf : f ∈ s.ring.frames := h.frames ▸ List.mem_map_of_mem (f := Prod.fst) hsent
    obtain ⟨hpoffset, hfile⟩ := hinv.held r v hv _ hptr
    rw [hinv.pool.length_eq] at hdepth
    have hkept := hinv.payload_kept hf hdepth
    rw [hdesc, bufferOf, hfile] at hkept
    have hkept : s.ring.mem a.data.region.file = f.payload := hkept
    cases Ring.step_cases hs with
    | load _ _ _ _ _ hmem =>
        rw [hkept, hpoffset, ← hdesc, hoffset] at hmem
        rw [← hmem]
        show f.payload (0 + k) = _
        rw [Nat.zero_add]
        exact (hinv.frames f hf).written k _ (hcopied k hk)

/-- The consumer attaches and takes the frame. -/
def takeArray (desc : TensorDescriptor) : List (PyEv Unit) :=
  [.ring (.waitHandshake () (.bundle 0 [] 1) (.obliging fun _ => true)), .ring (.wait () (.viewCall () 0))] ++
    (readAccesses desc).tail.dropLast.map (fun e => .ring (readAccess e)) ++
    [.ring (.wait () (.viewRet () (some desc) 0 9))]

/-- The consumer reads its byte. -/
theorem numpy_round_trip_seven : ∃ (s : PyRing Unit) (a : NumpyArray), a.shape = [1] ∧ a.Within 1 ∧
    (∃ s', s.ring.step ⟨false, false⟩ (.load () a.data 0 7) = some s') ∧
    ∀ b s', s.ring.step ⟨false, false⟩ (.load () a.data 0 b) = some s' → b = 7 := by
  obtain ⟨prod, hprod⟩ : ∃ prod,
      Producer.create ⟨false, false⟩ { TensorPoolConfig.oneBuffer 4096 with nBuffers := 2 } .obliging =
        some prod := ⟨_, rfl⟩
  let acquired := (prod.pub.acquireDescriptor prod.pool).1
  let desc := prod.pub.stamp prod.pool 7 (filledSeven acquired)
  -- the view is of the frame sent, the ring has not come round, and byte 0 can be loaded
  have hexec : ((pyMachine Unit ⟨false, false⟩ fun _ => "").exec ⟨twoBuffers prod, .idle, [], []⟩
      (publishArray acquired desc ++ takeArray desc)).bind (fun s =>
        (s.ring.held ())[0]?.bind fun v => s.sent[0]?.bind fun p => (PyView.ofView v.view).bind fun pv =>
          pv.data.map fun a =>
            (decide (p.1.desc = v.desc), decide (s.ring.pub.prod.pub.nextIndex ≤ p.1.turn +
              s.ring.pub.prod.pool.dmaBufFds.length), (s.ring.step ⟨false, false⟩ (.load () a.data 0 7)).isSome,
              p.2.isSeven)) =
      some (true, true, true, true) := by
    cases hprod
    decide +kernel
  obtain ⟨s, hs, hres⟩ := Option.bind_eq_some_iff.mp hexec
  obtain ⟨v, hv, hres⟩ := Option.bind_eq_some_iff.mp hres
  obtain ⟨⟨f, src⟩, hp, hres⟩ := Option.bind_eq_some_iff.mp hres
  obtain ⟨pv, hpv, hres⟩ := Option.bind_eq_some_iff.mp hres
  obtain ⟨a, ha, hres⟩ := Option.map_eq_some_iff.mp hres
  simp only [Prod.mk.injEq] at hres
  obtain ⟨hdesc, hdepth, hload, hsrc⟩ := hres
  have hrun : (pyMachine Unit ⟨false, false⟩ fun _ => "").Run (publishArray acquired desc ++ takeArray desc) s :=
    .of_exec ⟨⟨⟨_, _, _, Sys.sound_obliging, hprod⟩, rfl, rfl, rfl, rfl, fun _ => ⟨rfl, rfl⟩⟩, rfl, rfl, rfl⟩ hs
  have h := (numpy_round_trip hrun).2 () v (List.mem_of_getElem? hv) f src (List.mem_of_getElem? hp)
    (of_decide_eq_true hdesc) pv hpv a (.inl ha)
  -- the frame was copied from an array of one byte, a seven
  cases src with
  | device => cases hsrc
  | host arr t =>
      obtain ⟨hshape, hsize, hbyte, hwidth, hfit⟩ := of_decide_eq_true hsrc
      have hsize : arr.nbytes.toNat = 1 := by
        rw [hsize]
        rfl
      refine ⟨s, a, ?_, ?_, Option.isSome_iff_exists.mp hload, fun b s' hs' => ?_⟩
      · rw [h.shape, PyFrame.shape, hshape]
        rfl
      · rw [← hsize]
        exact (h.within hfit).mpr hwidth
      · rw [← hbyte]
        exact h.bytes (of_decide_eq_true hdepth) arr t rfl 0 b s' (hsize ▸ Nat.one_pos) hs'

end Axon
