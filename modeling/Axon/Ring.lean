import Axon.Attachment
import Axon.AcquiredViews
import Axon.Foundation.LapRing
import Axon.WaitAny

/-! # The payload behind the descriptors

`ringMachine R` adds the memory of the buffers to a publisher and its slot. For each frame the owner acquires
a descriptor, writes into the buffer through its host view, and publishes it; consumers attach, take views
with `latest_view`, and read the payload through the pointers of the views they hold. All of it goes on one
byte, one access to the slot and one event of a connection at a time, in any order; a word of any width is
written and read byte by byte.

The pool is not reallocated, and nothing holds the owner back when it comes round to a buffer again. -/

namespace Axon

open Foundation

/-- A descriptor acquired and not yet published: the owner fills in its buffer. -/
structure Turn where
  acquired : AcquiredDescriptor
  /-- How many descriptors had been acquired before it. -/
  number : ℕ
  /-- What has been written, by place in the buffer. -/
  written : ℕ → Option UInt8

/-- A frame that `publish` has accepted. -/
structure RingFrame where
  desc : TensorDescriptor
  /-- The number of the call of `acquire_descriptor` that it stems from. -/
  turn : ℕ
  written : ℕ → Option UInt8
  /-- What its buffer held then. -/
  payload : ℕ → UInt8

/-- A fresh view handed out, with the descriptor that was read. -/
structure HeldView where
  desc : TensorDescriptor
  view : TensorView

/-- The pointers to the payload. -/
def TensorView.ptrs (v : TensorView) : List PayloadPtr := v.data.toList ++ v.devicePtr.toList

/-- A publisher, its owner's frame and its readers, with the bytes of the buffers. -/
structure Ring (R : Type) where
  pub : Publication R
  /-- The contents of the files. -/
  mem : File → ℕ → UInt8
  turn : Option Turn
  /-- The frames accepted, oldest first. -/
  frames : List RingFrame
  consumers : R → Waiter Unit
  /-- The fresh views that a consumer has been handed since its last handshake. -/
  held : R → List HeldView

/-- What owner, publisher and readers do. -/
inductive RingEv (R : Type)
  | acquire
  /-- Write a byte through the host view. -/
  | write (x : ℕ) (b : UInt8)
  /-- `publish` begins: refuse the descriptor or stamp it. -/
  | publish (now : UInt64) (d : AcquiredDescriptor) (syncFd : Option Fd)
  /-- The rest of `publish`, `handshake_pool`, or what consumers do to their connections. -/
  | pub (e : PublicationEv R)
  | waitHandshake (r : R) (link : Link) (ans : HandshakeAnswers)
  | wait (r : R) (e : WaitEv Unit)
  /-- Read the byte `k` behind a pointer, and find `b`. -/
  | load (r : R) (p : PayloadPtr) (k : ℕ) (b : UInt8)

/-- The event concerns the connections alone. -/
def ProducerEv.isConnection : ProducerEv → Bool
  | .handshake | .connect .. | .acceptFails _ | .read .. | .hangup _ => true
  | _ => false

/-- The event belongs to a `publish` under way, or to the connections. -/
def PublicationEv.besides {R : Type} : PublicationEv R → Bool
  | .prod e => e.isConnection
  | .slot (.pub _) => true
  | .sendFence | .pickUp => true
  | _ => false

/-- What an event is to the publisher and its slot. -/
def RingEv.toPub {R : Type} : RingEv R → Option (PublicationEv R)
  | .acquire => some (.prod .acquire)
  | .publish now d syncFd => some (.publish now d syncFd)
  | .pub e => some e
  | .wait r e => (e.access r).map fun p => .slot p.2
  | _ => none

/-- What lies in the buffers, the `i`-th being the file `files[i]`. -/
def bufferOf (files : List File) (mem : File → ℕ → UInt8) (i : ℕ) : ℕ → UInt8 :=
  (files[i]?).elim (fun _ => 0) mem

namespace Ring

variable {R : Type} [DecidableEq R]

/-- The files of the pool's buffers. -/
def files (s : Ring R) : List File := s.pub.prod.pool.dmaBufFds.map (·.file)

/-- The notify word. -/
def notify (s : Ring R) (_ : Unit) : UInt32 := s.pub.slot.slot.notify

/-- The frame that a turn ends with, published as `desc`. -/
def frameOf (s : Ring R) (t : Turn) (desc : TensorDescriptor) : RingFrame where
  desc := desc
  turn := t.number
  written := t.written
  payload := bufferOf s.files s.mem desc.boHandle

/-- The views that a consumer holds after one of its events: `latest_view` adds the frame it hands out. -/
def heldAfter (s : Ring R) (r : R) : WaitEv Unit → List HeldView
  | .viewRet _ (some d) retries now =>
      if ((s.consumers r).subs ()).metadata ≠ none ∧ ((s.consumers r).subs ()).Accepts d then
        s.held r ++ [⟨d, ((s.consumers r).subs ()).viewOf d retries now⟩]
      else s.held r
  | _ => s.held r

variable (build : BuildConfig)

/-- One event, with consumers built as `build`. -/
def step (s : Ring R) : RingEv R → Option (Ring R)
  | .acquire =>
      match s.pub.phase with
      | .idle => (s.pub.step (.prod .acquire)).map fun pub =>
          { s with
            pub := pub
            turn := some ⟨(s.pub.prod.pub.acquireDescriptor s.pub.prod.pool).1, s.pub.prod.pub.nextIndex,
              fun _ => none⟩ }
      | _ => none
  -- the host view is as long as the buffer; a frame without a view cannot be written
  | .write x b => s.turn.bind fun t => t.acquired.hostView.bind fun m =>
      if x < m.length.toNat then
        some { s with
          mem := Function.update s.mem m.file (Function.update (s.mem m.file) x b)
          turn := some { t with written := Function.update t.written x (some b) } }
      else none
  | .publish now d syncFd => s.turn.bind fun t =>
      if d.bufferIndex = t.acquired.bufferIndex then
        (s.pub.step (.publish now d syncFd)).map fun pub =>
          match s.pub.prod.pub.check d with
          | some _ => { s with pub := pub }
          | none =>
              { s with
                pub := pub
                turn := none
                frames := s.frames ++ [s.frameOf t (s.pub.prod.pub.stamp s.pub.prod.pool now d)] }
      else none
  | .pub e =>
      if e.besides = true then
        (s.pub.step e).map fun pub =>
          { s with
            pub := pub
            consumers := if e.IsWake = true then fun r => (s.consumers r).woken () else s.consumers }
      else none
  | .waitHandshake r link ans =>
      match (s.consumers r).phase with
      | .idle => (Attachment.received ⟨s.pub.prod, (s.consumers r).subs ()⟩ link).map fun connect =>
          { s with
            consumers := Function.update s.consumers r ((s.consumers r).setSub ()
              (((s.consumers r).subs ()).waitHandshake build { ans with connect := connect }).2)
            held := Function.update s.held r [] }
      | _ => none
  | .wait r e => ((s.consumers r).step s.notify e).bind fun w =>
      match e.access r with
      | none => some { s with consumers := Function.update s.consumers r w }
      | some (_, a) => (s.pub.stepSlot a).map fun pub =>
          { s with
            pub := pub
            consumers := Function.update s.consumers r w
            held := Function.update s.held r (s.heldAfter r e) }
  -- a view is held until the next handshake unmaps its buffers
  | .load r p k b =>
      if (∃ h ∈ s.held r, p ∈ h.view.ptrs) ∧ p.offset.toNat + k < p.region.length.toNat ∧
          s.mem p.region.file (p.offset.toNat + k) = b then some s
      else none

end Ring

/-- **A publisher with its buffers, and its consumers**, from its creation. -/
def ringMachine (R : Type) [DecidableEq R] (build : BuildConfig) : Machine (Ring R) (RingEv R) where
  init s := (∃ build cfg sys, sys.Sound ∧ Producer.create build cfg sys = some s.pub.prod) ∧
    s.pub.phase = .idle ∧ s.pub.slot = .initial ∧ s.turn = none ∧ s.frames = [] ∧
    ∀ r, s.consumers r = ⟨fun _ => .create, .idle⟩ ∧ s.held r = []
  step := Ring.step build

/-! ## What a step does -/

namespace Ring

variable {R : Type} [DecidableEq R]

/-- The events of the ring, with the state after each. -/
inductive StepCase (build : BuildConfig) (s : Ring R) : RingEv R → Ring R → Prop
  | acquire (pub : Publication R) (hphase : s.pub.phase = .idle) (h : s.pub.step (.prod .acquire) = some pub) :
      StepCase build s .acquire
        { s with
          pub := pub
          turn := some ⟨(s.pub.prod.pub.acquireDescriptor s.pub.prod.pool).1, s.pub.prod.pub.nextIndex,
            fun _ => none⟩ }
  | write (x : ℕ) (b : UInt8) (t : Turn) (m : Mapping) (ht : s.turn = some t)
      (hview : t.acquired.hostView = some m) (hx : x < m.length.toNat) :
      StepCase build s (.write x b)
        { s with
          mem := Function.update s.mem m.file (Function.update (s.mem m.file) x b)
          turn := some { t with written := Function.update t.written x (some b) } }
  | refuse (now : UInt64) (d : AcquiredDescriptor) (syncFd : Option Fd) (pub : Publication R) (err : Errno)
      (hcheck : s.pub.prod.pub.check d = some err) (h : s.pub.step (.publish now d syncFd) = some pub) :
      StepCase build s (.publish now d syncFd) { s with pub := pub }
  | accept (now : UInt64) (d : AcquiredDescriptor) (syncFd : Option Fd) (pub : Publication R) (t : Turn)
      (ht : s.turn = some t) (hindex : d.bufferIndex = t.acquired.bufferIndex)
      (hcheck : s.pub.prod.pub.check d = none) (h : s.pub.step (.publish now d syncFd) = some pub) :
      StepCase build s (.publish now d syncFd)
        { s with
          pub := pub
          turn := none
          frames := s.frames ++ [s.frameOf t (s.pub.prod.pub.stamp s.pub.prod.pool now d)] }
  | pub (e : PublicationEv R) (pub : Publication R) (consumers : R → Waiter Unit) (hby : e.besides = true)
      (h : s.pub.step e = some pub) (hsubs : ∀ r, (consumers r).subs = (s.consumers r).subs) :
      StepCase build s (.pub e) { s with pub := pub, consumers := consumers }
  | waitHandshake (r : R) (link : Link) (ans : HandshakeAnswers) (connect : Option (List Segment))
      (hlink : Attachment.received ⟨s.pub.prod, (s.consumers r).subs ()⟩ link = some connect) :
      StepCase build s (.waitHandshake r link ans)
        { s with
          consumers := Function.update s.consumers r ((s.consumers r).setSub ()
            (((s.consumers r).subs ()).waitHandshake build { ans with connect := connect }).2)
          held := Function.update s.held r [] }
  | silent (r : R) (e : WaitEv Unit) (w : Waiter Unit) (haccess : e.access r = none)
      (hw : (s.consumers r).StepCase s.notify e w) :
      StepCase build s (.wait r e) { s with consumers := Function.update s.consumers r w }
  | access (r : R) (e : WaitEv Unit) (w : Waiter Unit) (i : Unit) (a : SlotEv R) (pub : Publication R)
      (haccess : e.access r = some (i, a)) (hw : (s.consumers r).StepCase s.notify e w)
      (h : s.pub.step (.slot a) = some pub) :
      StepCase build s (.wait r e)
        { s with
          pub := pub
          consumers := Function.update s.consumers r w
          held := Function.update s.held r (s.heldAfter r e) }
  | load (r : R) (p : PayloadPtr) (k : ℕ) (b : UInt8) (hheld : ∃ h ∈ s.held r, p ∈ h.view.ptrs)
      (hmem : s.mem p.region.file (p.offset.toNat + k) = b) : StepCase build s (.load r p k b) s

/-- **What a step does.** -/
theorem step_cases {build : BuildConfig} {s s' : Ring R} {e : RingEv R} (h : s.step build e = some s') :
    s.StepCase build e s' := by
  -- every event needs what the model says of the state before it
  cases e with
  | acquire =>
      dsimp only [step] at h
      split at h
      · obtain ⟨pub, hpub, rfl⟩ := Option.map_eq_some_iff.mp h
        exact .acquire pub ‹_› hpub
      · cases h
  | write x b =>
      obtain ⟨t, ht, h⟩ := Option.bind_eq_some_iff.mp h
      obtain ⟨m, hm, h⟩ := Option.bind_eq_some_iff.mp h
      split_ifs at h with hx
      cases h
      exact .write x b t m ht hm hx
  | publish now d syncFd =>
      obtain ⟨t, ht, h⟩ := Option.bind_eq_some_iff.mp h
      split_ifs at h with hindex
      obtain ⟨pub, hpub, rfl⟩ := Option.map_eq_some_iff.mp h
      -- the checks decide whether the frame gets a turn of the ring
      split
      · rename_i err hcheck
        exact .refuse now d syncFd pub err hcheck hpub
      · rename_i hcheck
        exact .accept now d syncFd pub t ht hindex hcheck hpub
  | pub e =>
      dsimp only [step] at h
      split_ifs at h with hby
      · obtain ⟨pub, hpub, rfl⟩ := Option.map_eq_some_iff.mp h
        exact .pub e pub _ hby hpub fun r => (s.consumers r).woken_subs ()
      · obtain ⟨pub, hpub, rfl⟩ := Option.map_eq_some_iff.mp h
        exact .pub e pub _ hby hpub fun r => rfl
  | waitHandshake r link ans =>
      dsimp only [step] at h
      split at h
      · obtain ⟨connect, hlink, rfl⟩ := Option.map_eq_some_iff.mp h
        exact .waitHandshake r link ans connect hlink
      · cases h
  | wait r e =>
      obtain ⟨w, hw, h⟩ := Option.bind_eq_some_iff.mp h
      -- an access of a consumer to the slot is an event of the publication too
      split at h
      · rename_i haccess
        cases h
        exact .silent r e w haccess (Waiter.step_cases hw)
      · rename_i i a haccess
        obtain ⟨pub, hpub, rfl⟩ := Option.map_eq_some_iff.mp h
        exact .access r e w i a pub haccess (Waiter.step_cases hw) hpub
  | load r p k b =>
      dsimp only [step] at h
      split_ifs at h with hload
      cases h
      exact .load r p k b hload.1 hload.2.2

/-- The events of the publisher and its slot in a run of the ring. -/
def pubTrace (tr : List (RingEv R)) : List (PublicationEv R) := tr.filterMap RingEv.toPub

/-- **What a run does to the publisher and its slot is a run of theirs.** -/
theorem pub_run {build : BuildConfig} {tr : List (RingEv R)} {s : Ring R}
    (h : (ringMachine R build).Run tr s) : (publicationMachine R).Run (pubTrace tr) s.pub := by
  refine Machine.Run.project (M := ringMachine R build) (N := publicationMachine R) (f := Ring.pub)
    (g := RingEv.toPub) ?_ ?_ h
  · -- both start together
    rintro s ⟨⟨build, cfg, sys, -, hcreate⟩, hphase, hslot, -⟩
    exact ⟨⟨build, cfg, sys, hcreate⟩, hphase, hslot⟩
  · intro s e s' hs
    cases step_cases hs with
    | acquire pub hphase hpub => exact hpub
    | refuse now d syncFd pub err hcheck hpub => exact hpub
    | accept now d syncFd pub t ht hindex hcheck hpub => exact hpub
    | pub e pub consumers hby hpub hsubs => exact hpub
    | silent r e w haccess hw =>
        rw [RingEv.toPub, haccess]
        rfl
    | access r e w i a pub haccess hw hpub =>
        rw [RingEv.toPub, haccess]
        exact hpub
    | write | waitHandshake | load => rfl

end Ring

end Axon
