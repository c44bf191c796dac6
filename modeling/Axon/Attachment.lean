import Axon.ProducerBundles
import Axon.Sidecar.Decode
import Axon.Subscriber

/-! # One subscriber and its producer

`attachmentMachine` runs a producer next to a subscriber that shakes hands, drains fences and asks for
views in any order. What a handshake receives was sent by the publisher; of the sidecar stream behind it
nothing is assumed. What `latest_view` reads was published: any such descriptor may be read, so every
behaviour of the seqlock is among the runs. -/

namespace Axon

open Foundation

/-- A subscriber with the system that its pointers are of. -/
structure Attachment where
  prod : Producer
  sub : TensorSubscriber

/-- What a handshake finds when it connects to the sidecar. -/
inductive Link
  /-- The connection is refused. -/
  | refused
  /-- Nothing arrives in time. -/
  | silent
  /-- The bundle sent on the connection in place `conn` of the publisher's client list, its blob cut into
  `pieces`; of header and pieces the first `arrived` have arrived. -/
  | bundle (conn : ℕ) (pieces : List (List UInt8)) (arrived : ℕ)

/-- What the producer's side and the subscriber do. -/
inductive AttachmentEv
  | prod (e : ProducerEv)
  | waitHandshake (link : Link) (ans : HandshakeAnswers)
  /-- Data of any kind arrives on the subscriber's connection. -/
  | arrive (segs : List Segment)
  | drainFences (ready : ℕ)
  /-- `latest_view`, reading a published descriptor or nothing. -/
  | latestView (notify : UInt32) (read : Option TensorDescriptor) (retries : ℕ) (now : UInt64)
  | setFallbackPolicy (p : FallbackPolicy)

/-- The pieces of a bundle that have arrived. -/
def Message.arrivedPieces (pieces : List (List UInt8)) (arrived : ℕ) : Message → Option (List Segment)
  | .pool header files ext =>
      ((Message.pool header files ext).segments pieces).map fun segs => segs.take arrived
  | .fence _ _ => none

namespace Attachment

/-- What the connection yields: a failed `connect`, or the data that has arrived. It is `none` when there
is no such connection. -/
def received (s : Attachment) : Link → Option (Option (List Segment))
  | .refused => some none
  | .silent => some (some [])
  | .bundle conn pieces arrived =>
      (s.prod.pub.server.clients[conn]?.bind fun c => c.sent.head?.bind fun m =>
        m.arrivedPieces pieces arrived).map some

/-- The subscriber with more data on its connection. -/
def arrive (s : Attachment) (segs : List Segment) : Attachment :=
  { s with sub := { s.sub with client := s.sub.client.arrive segs } }

variable (build : BuildConfig)

/-- One event, with a subscriber built as `build`. -/
def step (s : Attachment) : AttachmentEv → Option Attachment
  | .prod e => (s.prod.step e).map fun prod => { s with prod := prod }
  | .waitHandshake link ans =>
      (s.received link).map fun connect =>
        { s with sub := (s.sub.waitHandshake build { ans with connect := connect }).2 }
  | .arrive segs => some (s.arrive segs)
  | .drainFences ready => some { s with sub := (s.sub.drainFences ready).2 }
  | .latestView notify read retries now =>
      if ∀ d ∈ read, d ∈ s.prod.pub.published then
        some { s with sub := (s.sub.latestView notify read retries now).2 }
      else none
  | .setFallbackPolicy p => some { s with sub := s.sub.setFallbackPolicy p }

end Attachment

/-- An event either is the producer's or leaves it alone. -/
theorem Attachment.prod_of_step {build : BuildConfig} {s s' : Attachment} {e : AttachmentEv}
    (h : s.step build e = some s') :
    (∃ pe, s.prod.step pe = some s'.prod) ∨ s'.prod = s.prod := by
  cases e with
  | prod pe =>
      obtain ⟨prod, hprod, rfl⟩ := Option.map_eq_some_iff.mp h
      exact .inl ⟨pe, hprod⟩
  | waitHandshake link ans =>
      obtain ⟨connect, -, rfl⟩ := Option.map_eq_some_iff.mp h
      exact .inr rfl
  | latestView notify read retries now =>
      simp only [Attachment.step] at h
      split_ifs at h
      cases h
      exact .inr rfl
  -- none of these touches the producer
  | arrive | drainFences | setFallbackPolicy =>
      cases h
      exact .inr rfl

/-- What a call of `latest_view` reads was published. -/
theorem Attachment.published_of_step {build : BuildConfig} {s s' : Attachment} {notify : UInt32}
    {read : Option TensorDescriptor} {retries : ℕ} {now : UInt64}
    (h : s.step build (.latestView notify read retries now) = some s') :
    ∀ d ∈ read, d ∈ s.prod.pub.published := by
  simp only [Attachment.step] at h
  split_ifs at h with hread
  exact hread

/-- **A subscriber and its producer**, from the creation of both. -/
def attachmentMachine (build : BuildConfig) : Machine Attachment AttachmentEv where
  init s := producerMachine.init s.prod ∧ s.sub = .create
  step := Attachment.step build

/-- A bundle that a successful handshake received was sent, and these were its header and files. -/
theorem Attachment.received_ok {s : Attachment} {link : Link} {stream : List Segment}
    (hlink : s.received link = some (some stream)) {c c' : SidecarClient} (hc : c.stream = stream)
    {hdr : PoolHandshakeHeader} {received : List Fd} {ext : List UInt8}
    (hrecv : c.recvPoolHandshake = (.ok (hdr, received, ext), c')) :
    ∃ ext', s.prod.pub.server.Sent (.pool hdr (received.map (·.file)) ext') := by
  cases link with
  | refused => cases hlink
  | silent =>
      obtain rfl : [] = stream := Option.some.inj (Option.some.inj hlink)
      obtain ⟨e, hnil⟩ := SidecarClient.recvPoolHandshake_nil hc
      rw [hnil] at hrecv
      cases hrecv
  | bundle conn pieces arrived =>
      obtain ⟨segs, hsegs, heq⟩ := Option.map_eq_some_iff.mp hlink
      obtain rfl := Option.some.inj heq
      obtain ⟨k, hk, hsegs⟩ := Option.bind_eq_some_iff.mp hsegs
      obtain ⟨m, hm, hsegs⟩ := Option.bind_eq_some_iff.mp hsegs
      cases m with
      | fence header file => cases hsegs
      | pool header files ext₀ =>
          obtain ⟨all, hall, rfl⟩ := Option.map_eq_some_iff.mp hsegs
          rw [Message.segments] at hall
          split_ifs at hall
          cases hall
          cases arrived with
          | zero =>
              -- no byte has arrived
              obtain ⟨e, hnil⟩ := SidecarClient.recvPoolHandshake_nil hc
              rw [hnil] at hrecv
              cases hrecv
          | succ n =>
              simp only [List.take_succ_cons] at hc
              obtain ⟨rfl, rfl⟩ := SidecarClient.recvPoolHandshake_ok hc hrecv
              rw [map_file_installFds]
              refine ⟨ext₀, conn, ?_⟩
              rw [SidecarServer.sentTo, hk]
              exact List.mem_of_mem_head? hm

end Axon
