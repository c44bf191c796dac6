import Axon.Foundation.Register
import Axon.Publication
import Axon.Sidecar.Decode
import Axon.Subscriber

/-! # One stream, from `publish` to `latest_view`

`streamMachine` interleaves the two sides of a stream below the level of their calls. The publisher's
`publish` stamps the descriptor, sends the fence, writes the metadata slot and picks up new consumers, one
after the other; the consumer attaches once, and from then on drains fences message by message and reads
the slot in its calls of `latest_view`. `exec_publish` puts the parts of `publish` together again.

The metadata slot is the latest-value register, which by `slot_refines_register` is what the accesses of
its users make of it. -/

namespace Axon

open Foundation

/-- Where the consumer stands. -/
inductive ConsumerPhase
  /-- It has not attached yet. -/
  | detached
  /-- It is outside any call. -/
  | idle
  /-- Inside `drain_fences`. -/
  | draining
  /-- Inside `latest_view`, about to read the slot. -/
  | reading
  /-- Inside `latest_view`, with what the slot gave. -/
  | read (res : Option TensorDescriptor)

/-- A frame that `publish` has accepted, as stamped. -/
structure Frame where
  desc : TensorDescriptor
  syncFd : Option Fd
  /-- The place of its fence among the messages sent to the consumer, if it was sent to it. -/
  message : Option ℕ

/-- One publisher and one subscriber, with the time between them. -/
structure Stream where
  /-- The clock that both processes read. -/
  now : UInt64
  prod : Producer
  phase : PublishPhase
  slot : Register Unit TensorDescriptor
  /-- The frames accepted, oldest first, each from the moment its fence has been sent. -/
  frames : List Frame
  /-- The consumer's place in the server's client list. -/
  conn : ℕ
  sub : TensorSubscriber
  call : ConsumerPhase
  /-- For each message the consumer has taken off its socket, the FDs installed with it. -/
  received : List (List Fd)
  /-- The views returned, each with the clock when it was made. -/
  returned : List (UInt64 × TensorView)

/-- What happens in a stream. -/
inductive StreamEv
  | tick (now : UInt64)
  /-- Whatever else the producer's owner and other consumers do. -/
  | prod (e : ProducerEv)
  /-- `publish` begins: refuse the descriptor or stamp it. -/
  | publish (d : AcquiredDescriptor) (syncFd : Option Fd)
  | sendFence
  | beginWrite
  | commitWrite
  | finishWrite
  /-- `publish` ends: pick up new consumers. -/
  | pickUp
  /-- A `wait_handshake` that succeeds, the bundle's blob arriving in `pieces`. -/
  | attach (pieces : List (List UInt8)) (ans : HandshakeAnswers)
  | drainCall
  /-- One round of `poll_sync_fences`, with the next message arriving as `pieces` say. -/
  | drainOne (pieces : List (List UInt8))
  /-- The socket is empty. -/
  | drainRet
  | viewCall (maxRetry : ℤ)
  | readRet (res : Option TensorDescriptor)
  | viewRet (notify : UInt32) (retries : ℕ)

/-- A descriptor whose frame waits for a fence. -/
def TensorDescriptor.Gated (d : TensorDescriptor) : Prop := d.syncFenceKind = .SyncFileViaSidecar

/-- Whether a frame has a fence can be read off its descriptor. -/
instance (d : TensorDescriptor) : Decidable d.Gated := inferInstanceAs (Decidable (_ = _))

namespace Stream

/-- Everything sent to the consumer so far. -/
def sent (s : Stream) : List Message := s.prod.pub.server.sentTo s.conn

/-- The stream with another state of its publisher. -/
def setPub (s : Stream) (pub : TensorPublisher) : Stream := { s with prod := { s.prod with pub := pub } }

/-- The frame whose fence is being sent, when sending it leaves the publisher as `pub`. -/
def frameSent (s : Stream) (desc : TensorDescriptor) (syncFd : Option Fd) (pub : TensorPublisher) :
    Frame where
  desc := desc
  syncFd := syncFd
  message := if (pub.server.sentTo s.conn).length = s.sent.length then none else some s.sent.length

/-- The consumer's side of one round: the message's segments arrive and the round handles them. -/
def takeMessage (s : Stream) (m : Message) (segs : List Segment) : Stream :=
  let r := SidecarClient.pollRound (some FenceCache.storeFence)
    ⟨0, s.sub.fences, s.sub.client.arrive segs⟩
  { s with
    sub := { s.sub with client := r.2.client, fences := r.2.ctx }
    call := if r.1 then .draining else .idle
    received := s.received ++ [installFds s.sub.client.nextFd m.files] }

variable (build : BuildConfig)

/-- One event, with a consumer built as `build`. -/
def step (s : Stream) : StreamEv → Option Stream
  | .tick now => if s.now ≤ now then some { s with now := now } else none
  | .prod e =>
      match e with
      | .publish _ _ _ => none
      | e => (s.prod.step e).map fun prod => { s with prod := prod }
  | .publish d syncFd =>
      match s.phase with
      | .idle =>
          match s.prod.pub.check d with
          | some _ => some (s.setPub { s.prod.pub with rejected := s.prod.pub.rejected + 1 })
          | none => some { s.setPub { s.prod.pub with seqno := s.prod.pub.seqno + 1 } with
              phase := .stamped (s.prod.pub.stamp s.prod.pool s.now d) syncFd }
      | _ => none
  | .sendFence =>
      match s.phase with
      | .stamped desc syncFd =>
          (s.prod.pub.sendFence desc syncFd).map fun pub => { s.setPub pub with
            phase := .fenced desc
            frames := s.frames ++ [s.frameSent desc syncFd pub] }
      | _ => none
  | .beginWrite =>
      match s.phase with
      | .fenced desc => (s.slot.step (.begin desc)).map fun slot => { s with
          slot := slot
          phase := .writing desc }
      | _ => none
  | .commitWrite => (s.slot.step .commit).map fun slot => { s with slot := slot }
  | .finishWrite =>
      match s.phase with
      | .writing desc => (s.slot.step .finish).map fun slot => { s.setPub (s.prod.pub.writeMeta desc) with
          slot := slot
          phase := .written }
      | _ => none
  | .pickUp =>
      match s.phase with
      | .written => (s.prod.pub.pickUpConsumers s.prod.pool).map fun pub => { s.setPub pub with
          phase := .idle }
      | _ => none
  | .attach pieces ans =>
      match s.call with
      | .detached =>
          (s.sent.head?.bind (Message.segments pieces)).bind fun segs =>
            match s.sub.waitHandshake build { ans with connect := some segs } with
            | (.ok _, sub) => some { s with
                sub := sub
                call := .idle
                received := [sub.fds] }
            | (.error _, _) => none
      | _ => none
  | .drainCall =>
      match s.call with
      | .idle => some { s with call := .draining }
      | _ => none
  | .drainOne pieces =>
      match s.call with
      | .draining => s.sent[s.received.length]?.bind fun m =>
          (m.segments pieces).map fun segs => s.takeMessage m segs
      | _ => none
  | .drainRet =>
      match s.call with
      | .draining => if s.received.length = s.sent.length then some { s with call := .idle } else none
      | _ => none
  | .viewCall maxRetry =>
      match s.call with
      | .idle => (s.slot.step (.readCall () (decide (0 ≤ maxRetry)))).map fun slot => { s with
          slot := slot
          call := .reading }
      | _ => none
  | .readRet res =>
      match s.call with
      | .reading => (s.slot.step (.readRet () res)).map fun slot => { s with
          slot := slot
          call := .read res }
      | _ => none
  | .viewRet notify retries =>
      match s.call with
      | .read res =>
          let r := s.sub.latestView notify res retries s.now
          some { s with
            sub := r.2
            call := .idle
            returned := s.returned ++ (r.1.map fun v => (s.now, v)).toList }
      | _ => none

/-! ## What a step does -/

/-- The events of a stream, with the state after each. -/
inductive StepCase (s : Stream) : StreamEv → Stream → Prop
  | tick (now : UInt64) (h : s.now ≤ now) : StepCase s (.tick now) { s with now := now }
  | prod (e : ProducerEv) (prod : Producer) (he : ∀ now d syncFd, e ≠ .publish now d syncFd)
      (h : s.prod.step e = some prod) : StepCase s (.prod e) { s with prod := prod }
  | refuse (d : AcquiredDescriptor) (syncFd : Option Fd) (h : s.phase = .idle) :
      StepCase s (.publish d syncFd)
        (s.setPub { s.prod.pub with rejected := s.prod.pub.rejected + 1 })
  | stamp (d : AcquiredDescriptor) (syncFd : Option Fd) (h : s.phase = .idle)
      (hcheck : s.prod.pub.check d = none) : StepCase s (.publish d syncFd)
        { s.setPub { s.prod.pub with seqno := s.prod.pub.seqno + 1 } with
          phase := .stamped (s.prod.pub.stamp s.prod.pool s.now d) syncFd }
  | sendFence (desc : TensorDescriptor) (syncFd : Option Fd) (pub : TensorPublisher)
      (h : s.phase = .stamped desc syncFd) (hsend : s.prod.pub.sendFence desc syncFd = some pub) :
      StepCase s .sendFence { s.setPub pub with
        phase := .fenced desc
        frames := s.frames ++ [s.frameSent desc syncFd pub] }
  | beginWrite (desc : TensorDescriptor) (slot : Register Unit TensorDescriptor)
      (h : s.phase = .fenced desc) (hslot : s.slot.step (.begin desc) = some slot) :
      StepCase s .beginWrite { s with
        slot := slot
        phase := .writing desc }
  | commitWrite (slot : Register Unit TensorDescriptor) (hslot : s.slot.step .commit = some slot) :
      StepCase s .commitWrite { s with slot := slot }
  | finishWrite (desc : TensorDescriptor) (slot : Register Unit TensorDescriptor)
      (h : s.phase = .writing desc) (hslot : s.slot.step .finish = some slot) :
      StepCase s .finishWrite { s.setPub (s.prod.pub.writeMeta desc) with
        slot := slot
        phase := .written }
  | pickUp (pub : TensorPublisher) (h : s.phase = .written)
      (hpick : s.prod.pub.pickUpConsumers s.prod.pool = some pub) :
      StepCase s .pickUp { s.setPub pub with phase := .idle }
  | attach (pieces : List (List UInt8)) (ans : HandshakeAnswers) (m : Message) (segs : List Segment)
      (sub : TensorSubscriber) (h : s.call = .detached) (hm : s.sent.head? = some m)
      (hsegs : m.segments pieces = some segs)
      (hsub : s.sub.waitHandshake build { ans with connect := some segs } = (.ok (), sub)) :
      StepCase s (.attach pieces ans) { s with
        sub := sub
        call := .idle
        received := [sub.fds] }
  | drainCall (h : s.call = .idle) : StepCase s .drainCall { s with call := .draining }
  | drainOne (pieces : List (List UInt8)) (m : Message) (segs : List Segment) (h : s.call = .draining)
      (hm : s.sent[s.received.length]? = some m) (hsegs : m.segments pieces = some segs) :
      StepCase s (.drainOne pieces) (s.takeMessage m segs)
  | drainRet (h : s.call = .draining) (hall : s.received.length = s.sent.length) :
      StepCase s .drainRet { s with call := .idle }
  | viewCall (maxRetry : ℤ) (slot : Register Unit TensorDescriptor) (h : s.call = .idle)
      (hslot : s.slot.step (.readCall () (decide (0 ≤ maxRetry))) = some slot) :
      StepCase s (.viewCall maxRetry) { s with
        slot := slot
        call := .reading }
  | readRet (res : Option TensorDescriptor) (slot : Register Unit TensorDescriptor)
      (h : s.call = .reading) (hslot : s.slot.step (.readRet () res) = some slot) :
      StepCase s (.readRet res) { s with
        slot := slot
        call := .read res }
  | viewRet (notify : UInt32) (retries : ℕ) (res : Option TensorDescriptor) (h : s.call = .read res) :
      StepCase s (.viewRet notify retries) { s with
        sub := (s.sub.latestView notify res retries s.now).2
        call := .idle
        returned := s.returned ++
          ((s.sub.latestView notify res retries s.now).1.map fun v => (s.now, v)).toList }

/-- **What a step does.** -/
theorem step_cases {s s' : Stream} {e : StreamEv} (h : s.step build e = some s') :
    s.StepCase build e s' := by
  -- each event is possible in one phase of the producer, or in one call of the consumer
  cases e with
  | tick now =>
      simp only [step] at h
      split_ifs at h with hnow
      cases h
      exact .tick now hnow
  | prod e =>
      simp only [step] at h
      split at h
      · cases h
      · rename_i he
        obtain ⟨prod, hprod, rfl⟩ := Option.map_eq_some_iff.mp h
        exact .prod e prod he hprod
  | publish d syncFd =>
      simp only [step] at h
      split at h
      · rename_i hphase
        split at h
        · cases h
          exact .refuse d syncFd hphase
        · rename_i hcheck
          cases h
          exact .stamp d syncFd hphase hcheck
      · cases h
  | sendFence =>
      simp only [step] at h
      split at h
      · rename_i desc syncFd hphase
        obtain ⟨pub, hsend, rfl⟩ := Option.map_eq_some_iff.mp h
        exact .sendFence desc syncFd pub hphase hsend
      · cases h
  | beginWrite =>
      simp only [step] at h
      split at h
      · rename_i desc hphase
        obtain ⟨slot, hslot, rfl⟩ := Option.map_eq_some_iff.mp h
        exact .beginWrite desc slot hphase hslot
      · cases h
  | commitWrite =>
      obtain ⟨slot, hslot, rfl⟩ := Option.map_eq_some_iff.mp h
      exact .commitWrite slot hslot
  | finishWrite =>
      simp only [step] at h
      split at h
      · rename_i desc hphase
        obtain ⟨slot, hslot, rfl⟩ := Option.map_eq_some_iff.mp h
        exact .finishWrite desc slot hphase hslot
      · cases h
  | pickUp =>
      simp only [step] at h
      split at h
      · rename_i hphase
        obtain ⟨pub, hpick, rfl⟩ := Option.map_eq_some_iff.mp h
        exact .pickUp pub hphase hpick
      · cases h
  | attach pieces ans =>
      simp only [step] at h
      split at h
      · rename_i hcall
        obtain ⟨segs, hsegs, h⟩ := Option.bind_eq_some_iff.mp h
        obtain ⟨m, hm, hsegs⟩ := Option.bind_eq_some_iff.mp hsegs
        split at h
        · rename_i sub hsub
          cases h
          exact .attach pieces ans m segs sub hcall hm hsegs hsub
        · cases h
      · cases h
  | drainCall =>
      simp only [step] at h
      split at h
      · rename_i hcall
        cases h
        exact .drainCall hcall
      · cases h
  | drainOne pieces =>
      simp only [step] at h
      split at h
      · rename_i hcall
        obtain ⟨m, hm, h⟩ := Option.bind_eq_some_iff.mp h
        obtain ⟨segs, hsegs, rfl⟩ := Option.map_eq_some_iff.mp h
        exact .drainOne pieces m segs hcall hm hsegs
      · cases h
  | drainRet =>
      simp only [step] at h
      split at h
      · rename_i hcall
        split_ifs at h with hall
        cases h
        exact .drainRet hcall hall
      · cases h
  | viewCall maxRetry =>
      simp only [step] at h
      split at h
      · rename_i hcall
        obtain ⟨slot, hslot, rfl⟩ := Option.map_eq_some_iff.mp h
        exact .viewCall maxRetry slot hcall hslot
      · cases h
  | readRet res =>
      simp only [step] at h
      split at h
      · rename_i hcall
        obtain ⟨slot, hslot, rfl⟩ := Option.map_eq_some_iff.mp h
        exact .readRet res slot hcall hslot
      · cases h
  | viewRet notify retries =>
      simp only [step] at h
      split at h
      · rename_i res hcall
        cases h
        exact .viewRet notify retries res hcall
      · cases h

end Stream

/-- **A stream**: a producer from its creation, an unwritten slot, and a consumer that falls back on the
last good frame and has yet to attach. -/
def streamMachine (build : BuildConfig) : Machine Stream StreamEv where
  init s := producerMachine.init s.prod ∧ s.phase = .idle ∧ s.slot = .initial ∧ s.frames = [] ∧
    s.sub = .create ∧ s.call = .detached ∧ s.received = [] ∧ s.returned = []
  step := Stream.step build

/-- A stream before anything happens, to a consumer that will be the first. -/
def Stream.initial (prod : Producer) : Stream where
  now := 0
  prod := prod
  phase := .idle
  slot := .initial
  frames := []
  conn := 0
  sub := .create
  call := .detached
  received := []
  returned := []

/-- **The parts of `publish` make up `publish`**: undisturbed and one after the other, they leave the
publisher as the call does, and happen when the call returns. -/
theorem exec_publish {build : BuildConfig} {s : Stream} (hphase : s.phase = .idle)
    (hslot : s.slot.writer = .idle) {d : AcquiredDescriptor} (hcheck : s.prod.pub.check d = none)
    (syncFd : Option Fd) :
    ((streamMachine build).exec s
      [.publish d syncFd, .sendFence, .beginWrite, .commitWrite, .finishWrite, .pickUp]).map
        (fun s' => s'.prod.pub) =
      (s.prod.pub.publish s.prod.pool s.now d syncFd).map fun r => r.2 := by
  have hstamp : s.step build (.publish d syncFd) = some
      { s.setPub { s.prod.pub with seqno := s.prod.pub.seqno + 1 } with
        phase := .stamped (s.prod.pub.stamp s.prod.pool s.now d) syncFd } := by
    simp only [Stream.step, hphase, hcheck]
  unfold TensorPublisher.publish
  simp only [hcheck, Machine.exec_cons, streamMachine, hstamp, Option.bind_some]
  simp only [Stream.step, Stream.setPub]
  -- after the fence the two go the same way, up to the connections
  cases TensorPublisher.sendFence { s.prod.pub with seqno := s.prod.pub.seqno + 1 }
      (s.prod.pub.stamp s.prod.pool s.now d) syncFd with
  | none => rfl
  | some pub =>
      simp only [Option.map_some, Option.bind_some, Register.step, hslot, Machine.exec_nil]
      cases (pub.writeMeta (s.prod.pub.stamp s.prod.pool s.now d)).pickUpConsumers s.prod.pool with
      | none => rfl
      | some pub' => rfl

end Axon
