import Axon.Sidecar.Framing
import Axon.Sidecar.RoundTrip
import Axon.Subscriber

/-! # A subscriber on its sidecar connections

The publisher sends messages on the connection; their headers arrive whole, their blobs in pieces and with any
delay. The subscriber shakes hands on new connections and drains fences in any order. `boundaries_only_iff` says
in which runs each header that it reads stands at the beginning of a message. -/

namespace Axon

open Foundation

/-- Whether a message is well formed can be read off its header. -/
instance Message.WellFormed.decidable : ∀ m : Message, Decidable m.WellFormed
  | .pool header _ ext =>
      inferInstanceAs (Decidable (header.msg = SidecarMsg.PoolHandshake ∧ header.extLen.toNat = ext.length))
  | .fence header _ => inferInstanceAs (Decidable (header.msg = SidecarMsg.SyncFence))

/-- Whether it can be delivered can be read off it. -/
instance (m : Message) : Decidable m.Deliverable :=
  inferInstanceAs (Decidable (m.WellFormed ∧ _))

/-- The segments of messages, each with its blob cut into the pieces next to it. -/
def Message.segmentsAll : List (Message × List (List UInt8)) → Option (List Segment)
  | [] => some []
  | (m, pieces) :: batch =>
      (m.segments pieces).bind fun segs => (Message.segmentsAll batch).map fun rest => segs ++ rest

/-- What the messages are cut into arrives as these messages. -/
theorem Message.arriveAll_of_segmentsAll {batch : List (Message × List (List UInt8))} {segs : List Segment}
    (h : Message.segmentsAll batch = some segs) : Message.ArriveAll (batch.map (·.1)) segs := by
  induction batch generalizing segs with
  | nil =>
      cases h
      exact .nil
  | cons p batch ih =>
      obtain ⟨first, hfirst, h⟩ := Option.bind_eq_some_iff.mp h
      obtain ⟨rest, hrest, rfl⟩ := Option.map_eq_some_iff.mp h
      exact .cons (Message.arrives_of_segments hfirst) (ih hrest)

/-- A subscriber and the connection it has last made. -/
structure SidecarLink where
  sub : TensorSubscriber
  /-- The messages sent on the connection. -/
  sent : List Message
  /-- What has been sent and has not arrived. -/
  coming : List Segment
  /-- The handshake on this connection gave up when its message had arrived in part. -/
  torn : Bool

/-- What happens on the link of one subscriber. -/
inductive SidecarLinkEv
  /-- `wait_handshake` connects; the publisher has sent `batch` on the new connection, and `n` segments of it
  arrive before the call gives up. -/
  | handshake (batch : List (Message × List (List UInt8))) (n : ℕ) (ans : HandshakeAnswers)
  /-- `wait_handshake` does not get a connection. -/
  | refused (ans : HandshakeAnswers)
  | send (m : Message) (pieces : List (List UInt8))
  | arrive (n : ℕ)
  /-- The publisher closes its end. -/
  | hangup
  | drainFences (ready : ℕ)

namespace SidecarLink

/-- Some of the first message has arrived, and some has not. -/
def firstCut (arrived : List Segment) : List (Message × List (List UInt8)) → Bool
  | [] => false
  | (m, _) :: _ => decide (arrived ≠ [] ∧ byteCount arrived < m.size)

/-- One of these steps. -/
def step (build : BuildConfig) (s : SidecarLink) : SidecarLinkEv → Option SidecarLink
  | .handshake batch n ans =>
      if ∀ p ∈ batch, p.1.Deliverable then
        (Message.segmentsAll batch).map fun segs =>
          { sub := (s.sub.waitHandshake build { ans with connect := some (segs.take n) }).2
            sent := batch.map (·.1)
            coming := segs.drop n
            torn := firstCut (segs.take n) batch }
      else none
  | .refused ans => some { s with sub := (s.sub.waitHandshake build { ans with connect := none }).2 }
  | .send m pieces =>
      if m.Deliverable then
        (m.segments pieces).map fun segs => { s with sent := s.sent ++ [m], coming := s.coming ++ segs }
      else none
  | .arrive n =>
      -- nothing arrives any more on a socket that has been shut down, or from a peer that has closed its end
      if s.sub.client.ended = false then
        some { s with
          sub := { s.sub with client := s.sub.client.arrive (s.coming.take n) }
          coming := s.coming.drop n }
      else none
  | .hangup => some { s with sub := { s.sub with client := { s.sub.client with eof := true } } }
  | .drainFences ready => some { s with sub := (s.sub.drainFences ready).2 }

/-- **Every header that the event comes to read stands at a message boundary.** -/
def ReadsAtBoundaries (s : SidecarLink) : SidecarLinkEv → Prop
  | .handshake batch n _ => ∀ segs ∈ Message.segmentsAll batch, segs.take n ≠ [] →
      AtBoundary (batch.map (·.1)) (byteCount (s.sub.reconnect (segs.take n)).client.stream + byteCount (segs.drop n))
  | .drainFences ready =>
      ∀ c ∈ SidecarClient.headersRead (some FenceCache.storeFence) ready ⟨0, s.sub.fences, s.sub.client⟩,
        AtBoundary s.sent (byteCount c.stream + byteCount s.coming)
  | _ => True

/-- **No fences are drained out of a torn blob**: `drain_fences` finds nothing to read on a connection whose
handshake gave up inside the bundle. -/
def LeavesTorn (s : SidecarLink) : SidecarLinkEv → Prop
  | .drainFences ready => ready = 0 ∨ s.torn = false ∨ s.sub.client.stream = []
  | _ => True

/-- Whether a step leaves a torn message can be read off the state. -/
instance (s : SidecarLink) (e : SidecarLinkEv) : Decidable (s.LeavesTorn e) :=
  match e with
  | .drainFences ready => inferInstanceAs (Decidable (ready = 0 ∨ s.torn = false ∨ s.sub.client.stream = []))
  | .handshake .. | .refused .. | .send .. | .arrive .. | .hangup => isTrue trivial

/-- The client stands inside the first message, whose blob the handshake did not wait for. -/
def InsideBlob (s : SidecarLink) : Prop :=
  ∃ m rest pieces segs, s.sent = m :: rest ∧ [] ∉ pieces ∧ pieces ≠ [] ∧ pieces.flatten.length < m.size ∧
    s.sub.client.stream ++ s.coming = pieces.map Segment.plain ++ segs ∧ Message.ArriveAll rest segs

/-- **Where the client stands**: at a boundary, at the end of its connection, or in a torn blob. -/
structure Inv (s : SidecarLink) : Prop where
  deliverable : ∀ m ∈ s.sent, m.Deliverable
  position : (s.torn = false ∧ s.sub.client.Framed s.sent s.coming) ∨ s.sub.client.Over ∨
    (s.torn = true ∧ s.InsideBlob)

variable {build : BuildConfig} {s s' : SidecarLink} {e : SidecarLinkEv}

/-- What is left to read says where the client stands. -/
theorem Inv.of_unread (h : s.Inv) (hsent : s'.sent = s.sent) (htorn : s'.torn = s.torn)
    (hunread : s'.sub.client.stream ++ s'.coming = s.sub.client.stream ++ s.coming)
    (hover : s.sub.client.Over → s'.sub.client.Over) : s'.Inv := by
  constructor
  · rw [hsent]
    exact h.deliverable
  · rcases h.position with ⟨hwhole, done, left, hleft, harrive⟩ | hend | ⟨hcut, hinside⟩
    · refine .inl ⟨htorn.trans hwhole, done, left, hsent.trans hleft, ?_⟩
      rwa [hunread]
    · exact .inr (.inl (hover hend))
    · refine .inr (.inr ⟨htorn.trans hcut, ?_⟩)
      unfold InsideBlob
      rw [hsent, hunread]
      exact hinside

/-- A connection as `wait_handshake` leaves it. -/
theorem inv_handshake {batch : List (Message × List (List UInt8))} {n : ℕ} {ans : HandshakeAnswers}
    (hs : s.step build (.handshake batch n ans) = some s') : s'.Inv := by
  rw [step] at hs
  split_ifs at hs with hbatch
  obtain ⟨segs, hsegs, rfl⟩ := Option.map_eq_some_iff.mp hs
  have hsent : ∀ m ∈ batch.map (·.1), m.Deliverable := by simpa using hbatch
  have hall := Message.arriveAll_of_segmentsAll hsegs
  rw [← List.take_append_drop n segs] at hall
  have hclient := s.sub.client_waitHandshake build { ans with connect := some (segs.take n) } rfl
  refine ⟨hsent, ?_⟩
  dsimp only
  rw [hclient]
  by_cases hnil : segs.take n = []
  · -- nothing has arrived, and all of it is still to come
    obtain ⟨e, hrecv⟩ := SidecarClient.recvPoolHandshake_nil
      (c := (s.sub.reconnect (segs.take n)).client) hnil
    rw [hrecv]
    refine .inl ⟨?_, [], _, rfl, hall⟩
    rw [hnil]
    cases batch <;> simp [firstCut]
  · cases batch with
    | nil =>
        cases hsegs
        exact absurd List.take_nil hnil
    | cons p batch =>
        have hcut : firstCut (segs.take n) (p :: batch) = decide (byteCount (segs.take n) < p.1.size) := by
          simp [firstCut, hnil]
        rcases SidecarClient.recvPoolHandshake_framed (c := (s.sub.reconnect (segs.take n)).client)
          (hsent p.1 List.mem_cons_self) hall hnil with
          ⟨hle, hrest⟩ | ⟨hlt, hstream, pieces, rest, hne, hpieces, hlen, hcoming, hrest⟩
        · refine .inl ⟨?_, [p.1], batch.map (·.1), rfl, hrest⟩
          rw [hcut]
          exact decide_eq_false (not_lt.mpr hle)
        · refine .inr (.inr ⟨?_, p.1, batch.map (·.1), pieces, rest, rfl, hne, hpieces, hlen, ?_, hrest⟩)
          · rw [hcut]
            exact decide_eq_true hlt
          · dsimp only
            rw [hclient, hstream]
            exact hcoming

/-- The publisher sends one more message. -/
theorem Inv.send (h : s.Inv) {m : Message} {pieces : List (List UInt8)}
    (hs : s.step build (.send m pieces) = some s') : s'.Inv := by
  rw [step] at hs
  split_ifs at hs with hm
  obtain ⟨segs, hsegs, rfl⟩ := Option.map_eq_some_iff.mp hs
  have harrives := Message.arrives_of_segments hsegs
  constructor
  -- the message sent is deliverable too
  · intro m' hm'
    rcases List.mem_append.mp hm' with hm' | hm'
    · exact h.deliverable m' hm'
    · rwa [List.mem_singleton.mp hm']
  -- it comes behind what is left of the stream, wherever the client stands in it
  · rcases h.position with ⟨hwhole, done, left, hleft, harrive⟩ | hend |
      ⟨hcut, m₁, rest, pieces, segs₁, hfirst, hne, hpieces, hlen, hunread, hrest⟩
    · refine .inl ⟨hwhole, done, left ++ [m], ?_, ?_⟩
      · dsimp only
        rw [hleft, List.append_assoc]
      · rw [← List.append_assoc]
        exact harrive.snoc harrives
    · exact .inr (.inl hend)
    · refine .inr (.inr ⟨hcut, m₁, rest ++ [m], pieces, segs₁ ++ segs, ?_, hne, hpieces, hlen, ?_,
        hrest.snoc harrives⟩)
      · dsimp only
        rw [hfirst, List.cons_append]
      · dsimp only
        rw [← List.append_assoc, hunread, List.append_assoc]

/-- Draining leaves a client at a boundary, or with its connection over. -/
theorem Inv.drainFences (h : s.Inv) {ready : ℕ} (hleaves : s.LeavesTorn (.drainFences ready))
    (hs : s.step build (.drainFences ready) = some s') : s'.Inv := by
  cases hs
  -- nothing is read when nothing is ready
  have hidle : ready = 0 ∨ s.sub.client.stream = [] → (s.sub.drainFences ready).2.client = s.sub.client := by
    rintro (rfl | hnil)
    · rfl
    · exact (SidecarClient.pollLoop_over _ ready hnil).2
  have hsame : ready = 0 ∨ s.sub.client.stream = [] → Inv { s with sub := (s.sub.drainFences ready).2 } := by
    intro hready
    refine h.of_unread rfl rfl ?_ ?_
    · dsimp only
      rw [hidle hready]
    · dsimp only
      rw [hidle hready]
      exact id
  -- at a boundary, past the end, or inside a blob
  rcases h.position with ⟨hwhole, hframed⟩ | hend | ⟨hcut, -⟩
  · refine ⟨h.deliverable, ?_⟩
    rcases (SidecarClient.pollLoop_framed FenceCache.storeFence ready (s := ⟨0, s.sub.fences, s.sub.client⟩)
      h.deliverable hframed).2 with hframed | hover
    · exact .inl ⟨hwhole, hframed⟩
    · exact .inr (.inl hover)
  · exact hsame (.inr hend.1)
  · rcases hleaves with hready | hwhole | hnil
    · exact hsame (.inl hready)
    · exact absurd (hwhole.symm.trans hcut) Bool.false_ne_true
    · exact hsame (.inr hnil)

/-- **The invariant is kept** by every event that leaves torn blobs alone. -/
theorem Inv.step (h : s.Inv) (hleaves : s.LeavesTorn e) (hs : s.step build e = some s') : s'.Inv := by
  cases e with
  -- a new connection begins at a boundary; the rest leaves the client where it is
  | handshake batch n ans => exact inv_handshake hs
  | refused ans =>
      cases hs
      exact h.of_unread rfl rfl rfl id
  | send m pieces => exact h.send hs
  | arrive n =>
      rw [SidecarLink.step] at hs
      split_ifs at hs with hopen
      cases hs
      refine h.of_unread rfl rfl ?_ ?_
      · simp [SidecarClient.arrive]
      · rintro ⟨-, hended⟩
        rw [hopen] at hended
        exact absurd hended Bool.false_ne_true
  | hangup =>
      cases hs
      exact h.of_unread rfl rfl rfl fun hend => ⟨hend.1, rfl⟩
  | drainFences ready => exact h.drainFences hleaves hs

/-- **The first header that is read out of a torn blob** is not at a boundary. -/
theorem InsideBlob.headersRead (h : s.InsideBlob) {ready : ℕ} (hready : ready ≠ 0)
    (hstream : s.sub.client.stream ≠ []) : ¬ s.ReadsAtBoundaries (.drainFences ready) := by
  obtain ⟨m, rest, pieces, segs, hfirst, hne, hpieces, hlen, hunread, hrest⟩ := h
  obtain ⟨ready, rfl⟩ := Nat.exists_eq_succ_of_ne_zero hready
  obtain ⟨p, pieces, rfl⟩ := List.exists_cons_of_ne_nil hpieces
  obtain ⟨seg, stream, hseg⟩ := List.exists_cons_of_ne_nil hstream
  -- the next segment is a piece of the blob
  have hhead : seg = .plain p := by
    rw [hseg] at hunread
    exact (List.cons.inj hunread).1
  have hp : p ≠ [] := by
    rintro rfl
    exact hne List.mem_cons_self
  obtain ⟨b, bs, rfl⟩ := List.exists_cons_of_ne_nil hp
  -- its first byte is taken for a tag
  have hpeek : s.sub.client.peek = some b := by
    rw [SidecarClient.peek, hseg, hhead]
    rfl
  have hcount : byteCount s.sub.client.stream + byteCount s.coming =
      ((b :: bs) :: pieces).flatten.length + sizeOfAll rest := by
    rw [← byteCount_append, hunread, byteCount_append, byteCount_plain, hrest.byteCount]
  intro hall
  have hbound := hall s.sub.client (by
    rw [SidecarClient.headersRead, hpeek]
    exact List.mem_cons_self)
  rw [hfirst, hcount] at hbound
  exact not_atBoundary_inside (by simp) hlen hbound

/-- **When the headers of one event are at boundaries**: exactly when it leaves torn blobs alone. -/
theorem Inv.readsAtBoundaries_iff (h : s.Inv) (hs : s.step build e = some s') :
    s.ReadsAtBoundaries e ↔ s.LeavesTorn e := by
  cases e with
  | handshake batch n ans =>
      -- a handshake reads from the first byte on
      refine iff_of_true ?_ trivial
      intro segs hsegs _
      refine ⟨[], batch.map (·.1), rfl, ?_⟩
      rw [← (Message.arriveAll_of_segmentsAll hsegs).byteCount]
      show byteCount (segs.take n) + byteCount (segs.drop n) = byteCount segs
      rw [← byteCount_append, List.take_append_drop]
  | refused ans => exact Iff.rfl
  | send m pieces => exact Iff.rfl
  | arrive n => exact Iff.rfl
  | hangup => exact Iff.rfl
  | drainFences ready =>
      have hidle : ready = 0 ∨ s.sub.client.stream = [] → s.ReadsAtBoundaries (.drainFences ready) := by
        rintro (rfl | hnil) c hc
        · cases hc
        · rw [(SidecarClient.pollLoop_over _ ready hnil).1] at hc
          cases hc
      rcases h.position with ⟨hwhole, hframed⟩ | hend | ⟨hcut, hinside⟩
      · refine iff_of_true ?_ (.inr (.inl hwhole))
        exact (SidecarClient.pollLoop_framed FenceCache.storeFence ready
          (s := ⟨0, s.sub.fences, s.sub.client⟩) h.deliverable hframed).1
      · exact iff_of_true (hidle (.inr hend.1)) (.inr (.inr hend.1))
      · constructor
        · intro hbound
          -- a round that reads inside the blob reads off a boundary
          by_contra hleaves
          obtain ⟨hready, hleaves⟩ := not_or.mp hleaves
          exact hinside.headersRead hready (not_or.mp hleaves).2 hbound
        · rintro (hready | hwhole | hnil)
          · exact hidle (.inl hready)
          · exact absurd (hwhole.symm.trans hcut) Bool.false_ne_true
          · exact hidle (.inr hnil)

end SidecarLink

/-- A subscriber and its connections, from its creation. -/
def sidecarLinkMachine (build : BuildConfig) : Machine SidecarLink SidecarLinkEv where
  init s := s = ⟨.create, [], [], false⟩
  step := SidecarLink.step build

/-- **When a client reads headers at message boundaries only.** In every run of handshakes and drains, in which
the blobs arrive as late as they like, each header read stands at the beginning of a message exactly when no drain
finds something to read on a connection whose handshake gave up inside the bundle. -/
theorem boundaries_only_iff {build : BuildConfig} {tr : List SidecarLinkEv} {s : SidecarLink}
    (hexec : (sidecarLinkMachine build).exec ⟨.create, [], [], false⟩ tr = some s) :
    (sidecarLinkMachine build).Meets SidecarLink.ReadsAtBoundaries ⟨.create, [], [], false⟩ tr ↔
      (sidecarLinkMachine build).Meets SidecarLink.LeavesTorn ⟨.create, [], [], false⟩ tr := by
  refine Machine.meets_iff_while (P := SidecarLink.Inv) hexec ?_ ?_ ?_
  · exact ⟨nofun, .inl ⟨rfl, [], [], rfl, .nil⟩⟩
  · intro s e s' h hleaves hs
    exact h.step hleaves hs
  · intro s e s' h hs
    exact h.readsAtBoundaries_iff hs

/-- A bundle whose blob arrives in two pieces in time, and a fence behind it. -/
def timelyBundle : List SidecarLinkEv :=
  [.handshake [(oneBufferBundle.message, [[7], [8, 9]])] 3 (.obliging fun _ => true),
    .send (.fence { msg := SidecarMsg.SyncFence, syncFenceToken := 5 } ⟨2, 0⟩) [], .arrive 1, .drainFences 2]

/-- In time, the blob is read whole, and the fence behind it is stored. -/
theorem boundaries_only_timely :
    ∃ s, (sidecarLinkMachine ⟨false, false⟩).exec ⟨.create, [], [], false⟩ timelyBundle = some s ∧
      s.sub.client.stream = [] ∧
      (sidecarLinkMachine ⟨false, false⟩).Meets SidecarLink.ReadsAtBoundaries ⟨.create, [], [], false⟩
        timelyBundle := by
  obtain ⟨s, hs⟩ : ∃ s, (sidecarLinkMachine ⟨false, false⟩).exec ⟨.create, [], [], false⟩ timelyBundle = some s :=
    ⟨_, rfl⟩
  refine ⟨s, hs, ?_, (boundaries_only_iff hs).mpr (by decide)⟩
  cases hs
  rfl

/-- A bundle of whose blob only the first piece arrives in time, and the second before the next drain. -/
def lateBlob : List SidecarLinkEv :=
  [.handshake [(oneBufferBundle.message, [[7], [8, 9]])] 2 (.obliging fun _ => true), .arrive 1, .drainFences 1]

/-- **Bytes of a blob are taken for a message**: the handshake gives up after the first byte of the blob, and the
drain that follows reads its second byte as the tag of a message. -/
theorem late_blob_misread :
    (∃ s, (sidecarLinkMachine ⟨false, false⟩).exec ⟨.create, [], [], false⟩ (lateBlob.take 2) = some s ∧
      s.torn = true ∧ s.sub.client.shut = false ∧ s.sub.client.peek = some 8) ∧
    ((sidecarLinkMachine ⟨false, false⟩).exec ⟨.create, [], [], false⟩ lateBlob).isSome = true ∧
    ¬ (sidecarLinkMachine ⟨false, false⟩).Meets SidecarLink.ReadsAtBoundaries ⟨.create, [], [], false⟩ lateBlob := by
  refine ⟨⟨_, rfl, rfl, rfl, rfl⟩, rfl, fun hall => ?_⟩
  have hdrain := ((hall.2 _ rfl).2 _ rfl).1
  refine SidecarLink.InsideBlob.headersRead ?_ one_ne_zero (List.cons_ne_nil _ _) hdrain
  exact ⟨_, [], [[8, 9]], [], rfl, by decide, by decide, by decide, rfl, .nil⟩

end Axon
