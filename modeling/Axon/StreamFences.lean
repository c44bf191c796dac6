import Axon.FenceRing
import Axon.ProducerBundles
import Axon.StreamOrder

/-! # The fences of a stream

With a fixed pool, every fence that the consumer's connection carries is that of one frame (`Sends`), and
the consumer's ring holds the last of those it has taken off the socket, all of them open (`Drains`). -/

namespace Axon

open Foundation

/-- A message that is no fence. -/
def Message.IsBundle : Message → Prop
  | .pool _ _ _ => True
  | .fence _ _ => False

namespace Stream

/-- **The condition on a step**: the pool is not replaced, and a frame is published in a buffer as
`acquire_descriptor` hands them out. -/
def FixedPool (s : Stream) : StreamEv → Prop
  | .prod (.reallocate _) => False
  | .publish d _ => 0 ≤ d.bufferIndex ∧ d.bufferIndex.toNat < s.prod.pool.dmaBufFds.length
  | _ => True

/-! ## The publisher's side -/

/-- A descriptor of the pool as it is announced. -/
structure Acquired (a : Announcement) (d : TensorDescriptor) : Prop where
  fits : d.FitsIn a.size
  generation : d.poolGeneration = a.upTo
  buffer : d.boHandle < (a.buffers a.upTo).length

/-- **The publisher's side of the invariant**: one generation is announced, and the fences sent to the
consumer are those of the frames, in the order of the frames. -/
structure Sends (a : Announcement) (s : Stream) : Prop where
  announces : s.prod.Announces a
  first : a.first = 1
  upTo : a.upTo = 1
  acquired : ∀ f ∈ s.frames, Acquired a f.desc
  stamped : ∀ desc syncFd, s.phase = .stamped desc syncFd → Acquired a desc
  backlog : s.prod.pub.server.BacklogSent Message.IsBundle
  fenced : ∀ f ∈ s.frames, ∀ k, f.message = some k → f.desc.Gated ∧ ∃ fd, f.syncFd = some fd ∧
    s.sent[k]? = some (SidecarServer.fenceMessage f.desc.syncFenceToken fd)
  framed : ∀ k header file, s.sent[k]? = some (.fence header file) → ∃ f ∈ s.frames, f.message = some k
  order : s.frames.Pairwise fun f g => ∀ j k, f.message = some j → g.message = some k → j < k

namespace Sends

variable {a : Announcement} {s : Stream}

/-- Whatever sends nothing but bundles to the consumer keeps the publisher's side. -/
theorem extend (h : s.Sends a) {s' : Stream} (hann : s'.prod.Announces a)
    (hbacklog : s'.prod.pub.server.BacklogSent Message.IsBundle)
    (hext : s.prod.pub.server.Extends Message.IsBundle s'.prod.pub.server) (hconn : s'.conn = s.conn)
    (hframes : s'.frames = s.frames)
    (hstamped : ∀ desc syncFd, s'.phase = .stamped desc syncFd → Acquired a desc) : s'.Sends a := by
  obtain ⟨ms, hms, hbundle⟩ := hext s.conn
  have hsent : s'.sent = s.sent ++ ms := by rw [sent, hconn, hms, sent]
  refine ⟨hann, h.first, h.upTo, hframes ▸ h.acquired, hstamped, hbacklog, fun f hf k hk => ?_,
    fun k header file hk => ?_, hframes ▸ h.order⟩
  · obtain ⟨hgated, fd, hfd, hmsg⟩ := h.fenced f (hframes ▸ hf) k hk
    refine ⟨hgated, fd, hfd, ?_⟩
    rw [hsent, List.getElem?_append_left (List.getElem?_eq_some_iff.mp hmsg).1, hmsg]
  · -- the new messages are bundles
    rw [hframes]
    rcases Nat.lt_or_ge k s.sent.length with hlt | hge
    · rw [hsent, List.getElem?_append_left hlt] at hk
      exact h.framed k header file hk
    · rw [hsent, List.getElem?_append_right hge] at hk
      exact absurd (hbundle _ (List.mem_of_getElem? hk)) id

/-- What leaves the producer alone keeps the publisher's side. -/
theorem same (h : s.Sends a) {s' : Stream} (hprod : s'.prod = s.prod) (hconn : s'.conn = s.conn)
    (hframes : s'.frames = s.frames)
    (hstamped : ∀ desc syncFd, s'.phase = .stamped desc syncFd → s.phase = .stamped desc syncFd) :
    s'.Sends a :=
  h.extend (hprod ▸ h.announces) (hprod ▸ h.backlog) (hprod ▸ .refl _) hconn hframes
    fun desc syncFd hphase => h.stamped desc syncFd (hstamped desc syncFd hphase)

/-- One more frame, whose fence did not reach the consumer. -/
theorem unsent (h : s.Sends a) {s' : Stream} {f : Frame} (hann : s'.prod.Announces a)
    (hbacklog : s'.prod.pub.server.BacklogSent Message.IsBundle) (hf : Acquired a f.desc)
    (hmessage : f.message = none) (hsent : s'.sent = s.sent) (hframes : s'.frames = s.frames ++ [f])
    (hphase : ∀ desc syncFd, s'.phase ≠ .stamped desc syncFd) : s'.Sends a := by
  -- no message was sent, so the fences and their frames are as before
  refine ⟨hann, h.first, h.upTo, fun g hg => ?_, fun desc syncFd hp => absurd hp (hphase desc syncFd), hbacklog,
    fun g hg k hk => ?_, fun k header file hk => ?_, ?_⟩
  · rw [hframes] at hg
    rcases List.mem_append.mp hg with hg | hg
    · exact h.acquired g hg
    · rw [List.mem_singleton.mp hg]
      exact hf
  · rw [hframes] at hg
    rw [hsent]
    rcases List.mem_append.mp hg with hg | hg
    · exact h.fenced g hg k hk
    · rw [List.mem_singleton.mp hg, hmessage] at hk
      cases hk
  · rw [hsent] at hk
    obtain ⟨g, hg, hgk⟩ := h.framed k header file hk
    exact ⟨g, hframes ▸ List.mem_append_left _ hg, hgk⟩
  -- the new frame has no message to be in order with
  · rw [hframes]
    refine List.pairwise_append.mpr ⟨h.order, List.pairwise_singleton _ _, fun g _ f' hf' j k _ hk => ?_⟩
    rw [List.mem_singleton.mp hf', hmessage] at hk
    cases hk

/-- One more frame, whose fence is the last message sent to the consumer. -/
theorem sent (h : s.Sends a) {s' : Stream} {f : Frame} {fd : Fd} (hann : s'.prod.Announces a)
    (hbacklog : s'.prod.pub.server.BacklogSent Message.IsBundle) (hf : Acquired a f.desc)
    (hgated : f.desc.Gated) (hfd : f.syncFd = some fd) (hmessage : f.message = some s.sent.length)
    (hsent : s'.sent = s.sent ++ [SidecarServer.fenceMessage f.desc.syncFenceToken fd])
    (hframes : s'.frames = s.frames ++ [f])
    (hphase : ∀ desc syncFd, s'.phase ≠ .stamped desc syncFd) : s'.Sends a := by
  refine ⟨hann, h.first, h.upTo, fun g hg => ?_, fun desc syncFd hp => absurd hp (hphase desc syncFd), hbacklog,
    fun g hg k hk => ?_, fun k header file hk => ?_, ?_⟩
  · rw [hframes] at hg
    rcases List.mem_append.mp hg with hg | hg
    · exact h.acquired g hg
    · rw [List.mem_singleton.mp hg]
      exact hf
  · rw [hframes] at hg
    rw [hsent]
    rcases List.mem_append.mp hg with hg | hg
    · obtain ⟨hg', fd', hfd', hmsg⟩ := h.fenced g hg k hk
      exact ⟨hg', fd', hfd', by rw [List.getElem?_append_left (List.getElem?_eq_some_iff.mp hmsg).1, hmsg]⟩
    · rw [List.mem_singleton.mp hg] at hk ⊢
      obtain rfl := Option.some.inj (hmessage.symm.trans hk)
      exact ⟨hgated, fd, hfd, List.getElem?_concat_length⟩
  · rw [hsent] at hk
    -- an earlier message, the fence itself, or none
    rcases Nat.lt_trichotomy k s.sent.length with hlt | rfl | hgt
    · rw [List.getElem?_append_left hlt] at hk
      obtain ⟨g, hg, hgk⟩ := h.framed k header file hk
      exact ⟨g, hframes ▸ List.mem_append_left _ hg, hgk⟩
    · exact ⟨f, hframes ▸ List.mem_append_right _ (List.mem_singleton_self f), hmessage⟩
    · rw [List.getElem?_eq_none (by simp; omega)] at hk
      cases hk
  · rw [hframes]
    refine List.pairwise_append.mpr ⟨h.order, List.pairwise_singleton _ _, fun g hg f' hf' j k hj hk => ?_⟩
    rw [List.mem_singleton.mp hf'] at hk
    obtain rfl := Option.some.inj (hmessage.symm.trans hk)
    obtain ⟨-, fd', -, hmsg⟩ := h.fenced g hg j hj
    exact (List.getElem?_eq_some_iff.mp hmsg).1

/-- Sending the fence of a stamped frame. -/
theorem sendFence (h : s.Sends a) {desc : TensorDescriptor} {syncFd : Option Fd} {pub : TensorPublisher}
    (hphase : s.phase = .stamped desc syncFd) (hsend : s.prod.pub.sendFence desc syncFd = some pub) :
    Sends a { s.setPub pub with
      phase := .fenced desc
      frames := s.frames ++ [s.frameSent desc syncFd pub] } := by
  have hann : (s.setPub pub).prod.Announces a := ⟨h.announces.pub.sendFence hsend, h.announces.pool⟩
  have hacq := h.stamped desc syncFd hphase
  obtain ⟨clients, hpub, hcase⟩ := TensorPublisher.sendFence_spec hsend
  have hbacklog : pub.server.BacklogSent Message.IsBundle := by
    rw [hpub]
    exact h.backlog
  -- what reaches the consumer is nothing or the frame's fence
  have hsent : pub.server.sentTo s.conn = s.sent ∨ ∃ fd, syncFd = some fd ∧ desc.Gated ∧
      pub.server.sentTo s.conn = s.sent ++ [SidecarServer.fenceMessage desc.syncFenceToken fd] := by
    rw [hpub]
    rcases hcase with ⟨rfl, -⟩ | ⟨fd, n, rfl, hgated, hall⟩
    · exact .inl rfl
    · rcases SidecarServer.sentTo_sendAll hall s.conn with heq | heq
      · exact .inl heq
      · exact .inr ⟨fd, rfl, hgated, heq⟩
  rcases hsent with heq | ⟨fd, rfl, hgated, heq⟩
  · exact h.unsent hann hbacklog hacq (if_pos (congrArg List.length heq)) heq rfl nofun
  · refine h.sent (f := s.frameSent desc (some fd) pub) hann hbacklog hacq hgated rfl (if_neg ?_) heq rfl
      nofun
    rw [heq]
    simp

/-- A new frame is of the announced pool. -/
theorem acquired_stamp (h : s.Sends a) {d : AcquiredDescriptor} {syncFd : Option Fd}
    (hfixed : s.FixedPool (.publish d syncFd)) (hcheck : s.prod.pub.check d = none) :
    Acquired a (s.prod.pub.stamp s.prod.pool s.now d) where
  fits := by
    have hfit := fitsIn_of_descriptorError hcheck
    rwa [h.announces.pub.size] at hfit
  generation := h.announces.pool.upTo.symm
  buffer := by
    obtain ⟨hnonneg, hlt⟩ := hfixed
    rw [h.announces.pool.upTo, h.announces.pool.buffers, List.length_map]
    show (if 0 ≤ d.bufferIndex then d.bufferIndex.toNat else 0) < _
    rw [if_pos hnonneg]
    exact hlt

/-- **Every event of a run with a fixed pool keeps the publisher's side.** -/
theorem step {build : BuildConfig} {e : StreamEv} {s' : Stream} (h : s.Sends a) (hp : s.Publishes)
    (hfixed : s.FixedPool e) (hs : s.step build e = some s') : s'.Sends a := by
  cases step_cases build hs with
  | tick | attach | drainCall | drainOne | drainRet | viewCall | readRet | viewRet | commitWrite =>
      exact h.same rfl rfl rfl fun _ _ => id
  | beginWrite => exact h.same rfl rfl rfl nofun
  | prod e prod he hprod =>
      -- the condition excludes a reallocation
      have hkept : ∀ n, e ≠ .reallocate n := by
        rintro n rfl
        exact hfixed
      have hgrows := Producer.grows_step (P := Message.IsBundle) (fun _ _ _ => trivial)
        (fun now d syncFd heq => absurd heq (he now d syncFd)) h.backlog hprod
      exact h.extend (Producer.announces_step_of_kept h.announces hkept hprod)
        (hgrows.backlog h.backlog) hgrows.server rfl rfl h.stamped
  | refuse d syncFd hphase =>
      exact h.extend ⟨h.announces.pub.setCounters _ _, h.announces.pool⟩ h.backlog (.refl _) rfl rfl
        h.stamped
  | stamp d syncFd hphase hcheck =>
      refine h.extend ⟨h.announces.pub.setCounters _ _, h.announces.pool⟩ h.backlog (.refl _) rfl rfl ?_
      rintro desc syncFd' heq
      cases heq
      exact h.acquired_stamp hfixed hcheck
  | sendFence desc syncFd pub hphase hsend => exact h.sendFence hphase hsend
  | finishWrite desc slot hphase hslot =>
      have ha := hp.agrees
      rw [hphase] at ha
      obtain ⟨f, hf, rfl⟩ := List.mem_map.mp ha.2.1
      have hacq := h.acquired f hf
      exact h.extend ⟨h.announces.pub.writeMeta hacq.fits hacq.generation.le, h.announces.pool⟩ h.backlog
        (.refl _) rfl rfl nofun
  | pickUp pub hphase hpick =>
      have hgrows := TensorPublisher.Grows.pickUpConsumers (P := Message.IsBundle) (fun _ _ _ => trivial)
        h.backlog hpick
      exact h.extend ⟨(h.announces.pub.pickUpConsumers h.announces.pool hpick).1, h.announces.pool⟩
        (hgrows.backlog h.backlog) hgrows.server rfl rfl nofun

end Sends

/-- Nothing that was sent to the consumer is lost. -/
theorem sent_prefix_of_step {build : BuildConfig} {s s' : Stream} {e : StreamEv}
    (hs : s.step build e = some s') : s.sent <+: s'.sent := by
  cases step_cases build hs with
  | tick | refuse | stamp | beginWrite | commitWrite | finishWrite | attach | drainCall | drainOne | drainRet
  | viewCall | readRet | viewRet => exact List.prefix_rfl
  | prod e prod he hprod =>
      have hgrows := Producer.grows_step (P := fun _ => True) (fun _ _ _ => trivial)
        (fun _ _ _ _ _ _ => trivial) (fun _ _ _ _ => trivial) hprod
      exact hgrows.server.isPrefix s.conn
  | sendFence desc syncFd pub hphase hsend =>
      have hgrows := TensorPublisher.Grows.sendFence (P := fun _ => True) (fun _ _ => trivial) hsend
      exact hgrows.server.isPrefix s.conn
  | pickUp pub hphase hpick =>
      have hgrows := TensorPublisher.Grows.pickUpConsumers (P := fun _ => True) (fun _ _ _ => trivial)
        (fun _ _ _ _ => trivial) hpick
      exact hgrows.server.isPrefix s.conn

/-! ## The consumer's side -/

/-- The slot that a message received with these FDs fills. -/
def fenceSlot : Message × List Fd → Option FenceSlot
  | (.fence header _, [fd]) => some ⟨header.syncFenceToken, some fd⟩
  | _ => none

/-- The fences that the consumer has taken off its socket, oldest first. -/
def stored (s : Stream) : List FenceSlot := (s.sent.zip s.received).filterMap fenceSlot

/-- Messages that have not been received do not matter to those that have. -/
theorem zip_append_of_le {α β : Type} {xs zs : List α} {ys : List β} (h : ys.length ≤ xs.length) :
    (xs ++ zs).zip ys = xs.zip ys := by
  induction xs generalizing ys with
  | nil =>
      obtain rfl : ys = [] := List.length_eq_zero_iff.mp (Nat.le_zero.mp h)
      rw [List.zip_nil_right, List.zip_nil_right]
  | cons x xs ih =>
      cases ys with
      | nil => rfl
      | cons y ys =>
          rw [List.cons_append, List.zip_cons_cons, List.zip_cons_cons, ih (Nat.le_of_succ_le_succ h)]

/-- One more message received. -/
theorem zip_snoc {α β : Type} {xs : List α} {ys : List β} {x : α} (y : β) (h : xs[ys.length]? = some x) :
    xs.zip (ys ++ [y]) = xs.zip ys ++ [(x, y)] := by
  induction ys generalizing xs with
  | nil =>
      cases xs with
      | nil => cases h
      | cons x' xs =>
          obtain rfl : x' = x := Option.some.inj h
          simp
  | cons y' ys ih =>
      cases xs with
      | nil => cases h
      | cons x' xs =>
          rw [List.cons_append, List.zip_cons_cons, List.zip_cons_cons, ih h, List.cons_append]

end Stream

namespace TensorSubscriber

/-- The FDs the subscriber has closed. -/
def Closed (s : TensorSubscriber) (fd : Fd) : Prop :=
  fd ∈ s.fences.closed ∨ fd ∈ s.client.closed ∨ fd ∈ s.closed

/-- A subscriber that has just attached to its first bundle. -/
structure NewlyAttached (header : PoolHandshakeHeader) (files : List File) (s : TensorSubscriber) :
    Prop where
  stream : s.client.stream = []
  fences : s.fences = create.fences.closeFences
  fds : s.fds.map (·.file) = files
  poolGeneration : s.poolGeneration = header.poolGeneration
  nbufs : s.nbufs = files.length
  metadata : s.metadata ≠ none
  closed : ∀ fd, ¬ s.Closed fd

/-- A first handshake that succeeds, on a connection on which one message has arrived. -/
theorem newlyAttached {build : BuildConfig} {ans : HandshakeAnswers} {m : Message}
    {pieces : List (List UInt8)} {segs : List Segment} {s : TensorSubscriber} (hdel : m.Deliverable)
    (hsegs : m.segments pieces = some segs) (hans : ans.connect = some segs)
    (h : create.waitHandshake build ans = (.ok (), s)) :
    ∃ header files ext, m = .pool header files ext ∧ s.NewlyAttached header files := by
  obtain ⟨stream, hdr, received, ext, client, s₁, hstream, hrecv, rfl, hopen⟩ := waitHandshake_ok h
  obtain rfl : segs = stream := Option.some.inj (hans.symm.trans hstream)
  -- a fence cannot be taken for a bundle
  cases m with
  | fence header file =>
      cases hsegs
      have hone : (create.reconnect [⟨header.encode, [file]⟩]).client.stream = [⟨header.encode, [file]⟩] := rfl
      obtain ⟨e, c', herr, -⟩ := SidecarClient.recvPoolHandshake_fence hone
      cases herr.symm.trans hrecv
  | pool header files ext' =>
      have hall : (create.reconnect segs).client.stream = segs ++ [] := (List.append_nil segs).symm
      have hok := SidecarClient.recvPoolHandshake_arrives hdel (Message.arrives_of_segments hsegs) hall
      have heq := hok.symm.trans hrecv
      simp only [Prod.mk.injEq, Except.ok.injEq] at heq
      obtain ⟨⟨hhdr, hreceived, hext⟩, hclient⟩ := heq
      subst hhdr hreceived hext hclient
      refine ⟨header, files, ext', rfl, ?_⟩
      generalize hadopt : adopt _ header _ = s₁ at hopen
      obtain ⟨hstream₁, hfences₁, hclientClosed₁, hclosed₁, hfds₁, hgen₁⟩ : s₁.client.stream = [] ∧
          s₁.fences = create.fences.closeFences ∧ s₁.client.closed = [] ∧ s₁.closed = [] ∧
          s₁.fds.map (·.file) = files ∧ s₁.poolGeneration = header.poolGeneration := by
        rw [← hadopt]
        exact ⟨rfl, rfl, rfl, rfl, map_file_installFds _ _, rfl⟩
      obtain ⟨hclient, hfences, hclosed, hfds, hgen, hnbufs⟩ := s₁.attach_frame build header ext' ans
      unfold openMetadata at hopen
      split at hopen
      · cases hopen
      · cases hopen
        refine ⟨(congrArg SidecarClient.stream hclient).trans hstream₁, hfences.trans hfences₁, ?_,
          hgen.trans hgen₁, ?_, Option.some_ne_none _, ?_⟩
        · exact (congrArg _ hfds).trans hfds₁
        · rw [← hfds₁, List.length_map]
          exact hnbufs
        · rintro fd (hc | hc | hc)
          · have hnil : create.fences.closeFences.closed = [] := by decide
            rw [hfences, hfences₁, hnil] at hc
            cases hc
          · rw [hclient, hclientClosed₁] at hc
            cases hc
          · rw [hclosed, hclosed₁] at hc
            cases hc

/-- Two subscribers that accept the same frames. -/
structure SameGate (s s' : TensorSubscriber) : Prop where
  client : s'.client = s.client
  fences : s'.fences = s.fences
  closed : s'.closed = s.closed
  poolGeneration : s'.poolGeneration = s.poolGeneration
  nbufs : s'.nbufs = s.nbufs
  metadata : s'.metadata = s.metadata

/-- Looking at a frame changes nothing about which frames are accepted. -/
theorem latestView_sameGate (s : TensorSubscriber) (notify : UInt32) (read : Option TensorDescriptor)
    (retries : ℕ) (now : UInt64) : s.SameGate (s.latestView notify read retries now).2 := by
  have hc := s.latestView_cases notify read retries now
  generalize s.latestView notify read retries now = r at hc ⊢
  cases hc <;> exact ⟨rfl, rfl, rfl, rfl, rfl, rfl⟩

end TensorSubscriber

namespace Stream

/-- **The consumer's side of the invariant**: it has attached all buffers of the pool, and its ring holds the
last fences of those it has taken off the socket, all of them open. -/
structure Drains (a : Announcement) (s : Stream) : Prop where
  client : s.sub.client.stream = []
  generation : s.sub.poolGeneration = .ofNat a.upTo
  nbufs : s.sub.nbufs = (a.buffers a.upTo).length
  opened : s.sub.metadata ≠ none
  taken : s.received.length ≤ s.sent.length
  installed : ∀ (k : ℕ) (m : Message) (fds : List Fd), s.sent[k]? = some m → s.received[k]? = some fds →
    fds.map (·.file) = m.files
  ring : s.sub.fences.ring.Holds (fun slot => slot.fd = none) s.stored
  fds : OpenBelow s.sub.fences.ring s.sub.Closed s.sub.client.nextFd

namespace Drains

variable {a : Announcement} {s : Stream}

/-- More messages sent, and a consumer that accepts the same frames. -/
theorem same (h : s.Drains a) {s' : Stream} (hsent : s.sent <+: s'.sent)
    (hreceived : s'.received = s.received) (hsub : s.sub.SameGate s'.sub) : s'.Drains a := by
  obtain ⟨ms, hms⟩ := hsent
  obtain ⟨hclient, hfences, hclosed, hgen, hnbufs, hmeta⟩ := hsub
  -- the messages received were sent before the new ones
  have hstored : s'.stored = s.stored := by
    rw [stored, hreceived, ← hms, zip_append_of_le h.taken, stored]
  refine ⟨hclient ▸ h.client, hgen ▸ h.generation, hnbufs ▸ h.nbufs, hmeta ▸ h.opened, ?_,
    fun k m fds hk hfds => ?_, ?_, ?_⟩
  · rw [hreceived, ← hms, List.length_append]
    exact Nat.le_add_right_of_le h.taken
  · rw [hreceived] at hfds
    have hlt : k < s.sent.length := (List.getElem?_eq_some_iff.mp hfds).1.trans_le h.taken
    rw [← hms, List.getElem?_append_left hlt] at hk
    exact h.installed k m fds hk hfds
  · rw [hfences, hstored]
    exact h.ring
  · rw [hfences, hclient]
    refine h.fds.mono le_rfl fun fd hc => .inl ?_
    rw [TensorSubscriber.Closed, hfences, hclient, hclosed] at hc
    exact hc

/-- The history of a consumer that has received one more message. -/
theorem received_snoc (h : s.Drains a) {m : Message} {n : ℕ} (s' : Stream) (hsent : s'.sent = s.sent)
    (hreceived : s'.received = s.received ++ [installFds n m.files])
    (hm : s.sent[s.received.length]? = some m) :
    s'.received.length ≤ s'.sent.length ∧
      (∀ (k : ℕ) (m' : Message) (fds : List Fd), s'.sent[k]? = some m' → s'.received[k]? = some fds →
        fds.map (·.file) = m'.files) ∧
      s'.stored = s.stored ++ (fenceSlot (m, installFds n m.files)).toList := by
  refine ⟨?_, fun k m' fds hk hfds => ?_, ?_⟩
  · rw [hsent, hreceived, List.length_append, List.length_singleton]
    exact (List.getElem?_eq_some_iff.mp hm).1
  · rw [hsent] at hk
    rw [hreceived] at hfds
    -- a message received before, or the one received now
    rcases Nat.lt_trichotomy k s.received.length with hlt | rfl | hgt
    · rw [List.getElem?_append_left hlt] at hfds
      exact h.installed k m' fds hk hfds
    · rw [List.getElem?_concat_length] at hfds
      obtain rfl := Option.some.inj hfds
      obtain rfl := Option.some.inj (hm.symm.trans hk)
      exact map_file_installFds _ _
    · rw [List.getElem?_eq_none (by simp; omega)] at hfds
      cases hfds
  -- it is stored if it is a fence
  · rw [stored, hsent, hreceived, zip_snoc _ hm, List.filterMap_append, stored]
    cases hslot : fenceSlot (m, installFds n m.files) with
    | none => simp [hslot]
    | some slot => simp [hslot]

/-- **Taking a message off the socket**: a bundle is closed again, a fence goes to the ring. -/
theorem takeMessage (h : s.Drains a) {m : Message} {pieces : List (List UInt8)} {segs : List Segment}
    (hm : s.sent[s.received.length]? = some m) (hdel : m.Deliverable)
    (hsegs : m.segments pieces = some segs) :
    (s.takeMessage m segs).Drains a ∧ (s.takeMessage m segs).call = .draining := by
  -- everything before has been consumed, so this message is the whole stream
  have hall : (s.sub.client.arrive segs).stream = segs ++ [] := by simp [SidecarClient.arrive, h.client]
  have hround := SidecarClient.pollRound_arrives FenceCache.storeFence
    (s := ⟨0, s.sub.fences, s.sub.client.arrive segs⟩) hdel (Message.arrives_of_segments hsegs) hall
  -- what one round of `drain_fences` leaves
  set r := SidecarClient.consume FenceCache.storeFence
    ⟨0, s.sub.fences, s.sub.client.arrive segs⟩ m [] with hr
  have hclient : (s.takeMessage m segs).sub.client = r.client := congrArg (fun r => r.2.client) hround
  have hfences : (s.takeMessage m segs).sub.fences = r.ctx := congrArg (fun r => r.2.ctx) hround
  obtain ⟨htaken, hinstalled, hstored⟩ := h.received_snoc (s.takeMessage m segs) rfl rfl hm
  refine ⟨⟨?_, h.generation, h.nbufs, h.opened, htaken, hinstalled, ?_, ?_⟩, ?_⟩
  · rw [hclient, hr]
    cases m <;> rfl
  · rw [hstored, hfences, hr]
    cases m with
    | pool header files ext =>
        show s.sub.fences.ring.Holds _ (s.stored ++ [])
        rw [List.append_nil]
        exact h.ring
    | fence header file => exact h.ring.store _
  · have hclosed : ∀ fd, (s.takeMessage m segs).sub.Closed fd →
        fd ∈ r.ctx.closed ∨ fd ∈ r.client.closed ∨ fd ∈ s.sub.closed := by
      intro fd hc
      rw [← hfences, ← hclient]
      exact hc
    rw [hfences, hclient]
    cases m with
    | pool header files ext =>
        refine h.fds.mono (Nat.le_add_right _ _) fun fd hc => ?_
        rcases hclosed fd hc with hc | hc | hc
        · exact .inl (.inl hc)
        · rcases List.mem_append.mp hc with hc | hc
          · exact .inl (.inr (.inl hc))
          · exact .inr (num_of_mem_installFds hc)
        · exact .inl (.inr (.inr hc))
    | fence header file =>
        refine h.fds.store rfl fun fd hc => ?_
        rcases hclosed fd hc with hc | hc | hc
        · rcases List.mem_append.mp hc with hc | hc
          · exact .inl (.inl hc)
          · exact .inr (Option.mem_toList.mp hc)
        · exact .inl (.inr (.inl hc))
        · exact .inl (.inr (.inr hc))
  · show (if (SidecarClient.pollRound _ _).1 then ConsumerPhase.draining else .idle) = .draining
    rw [hround]
    rfl

/-- **A new consumer that attaches** has all buffers of the pool and no fence. -/
theorem attach (hs : s.Sends a) (hnew : s.sub = .create) {build : BuildConfig} {ans : HandshakeAnswers}
    {m : Message} {pieces : List (List UInt8)} {segs : List Segment} {sub : TensorSubscriber}
    (hm : s.sent.head? = some m) (hdel : m.Deliverable) (hann : m.Announced a)
    (hsegs : m.segments pieces = some segs) (hans : ans.connect = some segs)
    (hsub : s.sub.waitHandshake build ans = (.ok (), sub)) :
    Drains a { s with
      sub := sub
      call := .idle
      received := [sub.fds] } := by
  rw [hnew] at hsub
  obtain ⟨header, files, ext, rfl, hatt⟩ := TensorSubscriber.newlyAttached hdel hsegs hans hsub
  obtain ⟨-, -, g, hfirst, hupTo, hgen, rfl⟩ := hann
  -- one generation has been announced
  obtain rfl : g = a.upTo := le_antisymm hupTo (hs.upTo.trans_le (hs.first ▸ hfirst))
  obtain ⟨rest, hrest⟩ := List.head?_eq_some_iff.mp hm
  have hblank := FenceCache.holds_closeFences TensorSubscriber.create.fences
  refine ⟨hatt.stream, hatt.poolGeneration.trans hgen, hatt.nbufs, hatt.metadata, ?_,
    fun k m fds hk hfds => ?_, ?_, ?_⟩
  · show 1 ≤ s.sent.length
    rw [hrest]
    exact Nat.succ_pos _
  · obtain ⟨hk0, hget⟩ := List.getElem?_eq_some_iff.mp hfds
    obtain rfl : k = 0 := Nat.lt_one_iff.mp hk0
    obtain rfl : sub.fds = fds := hget
    change s.sent[0]? = some m at hk
    rw [hrest] at hk
    obtain rfl := Option.some.inj hk
    exact hatt.fds
  · show sub.fences.ring.Holds _ ((s.sent.zip [sub.fds]).filterMap fenceSlot)
    rw [hrest, hatt.fences, List.zip_cons_cons, List.zip_nil_right, List.filterMap_cons_none rfl]
    exact hblank
  · show OpenBelow sub.fences.ring _ _
    rw [hatt.fences]
    exact .of_blank hblank fun fd hc => absurd hc (hatt.closed fd)

end Drains

/-- **The invariant of a stream over a fixed pool.** -/
structure Gates (a : Announcement) (s : Stream) : Prop where
  publishes : s.Publishes
  views : s.Views
  sends : s.Sends a
  new : s.call = .detached → s.sub = .create
  drains : s.call ≠ .detached → s.Drains a

namespace Gates

variable {a : Announcement} {s : Stream}

/-- Everything sent to the consumer is as the publisher announces it. -/
theorem genuine (h : s.Gates a) {m : Message} (hm : m ∈ s.sent) : m.Genuine a :=
  h.sends.announces.pub.sent.of_sent ⟨s.conn, hm⟩

/-- **Every event of a run with a fixed pool keeps the invariant.** -/
theorem step {build : BuildConfig} {e : StreamEv} {s' : Stream} (h : s.Gates a) (hfixed : s.FixedPool e)
    (hs : s.step build e = some s') : s'.Gates a := by
  have hpublishes := h.publishes.step hs
  have hviews := h.views.step h.publishes hs
  have hsends := h.sends.step h.publishes hfixed hs
  have hprefix := sent_prefix_of_step hs
  have hself : s.sub.SameGate s.sub := ⟨rfl, rfl, rfl, rfl, rfl, rfl⟩
  -- the publisher's events leave the consumer as it is, and the consumer's the publisher
  cases step_cases build hs with
  | tick | prod | refuse | stamp | sendFence | beginWrite | commitWrite | finishWrite | pickUp =>
      exact ⟨hpublishes, hviews, hsends, h.new, fun hcall => (h.drains hcall).same hprefix rfl hself⟩
  | attach pieces ans m segs sub hcall hm hsegs hsub =>
      have hgenuine := h.genuine (List.mem_of_mem_head? hm)
      exact ⟨hpublishes, hviews, hsends, nofun, fun _ => .attach h.sends (h.new hcall) hm
        hgenuine.deliverable hgenuine.announced hsegs rfl hsub⟩
  | drainCall hcall =>
      exact ⟨hpublishes, hviews, hsends, nofun,
        fun _ => (h.drains (by rw [hcall]; exact nofun)).same hprefix rfl hself⟩
  | drainOne pieces m segs hcall hm hsegs =>
      have hgenuine := h.genuine (List.mem_of_getElem? hm)
      obtain ⟨hdrains, hcall'⟩ := (h.drains (by rw [hcall]; exact nofun)).takeMessage hm
        hgenuine.deliverable hsegs
      exact ⟨hpublishes, hviews, hsends, fun hc => (by cases hcall'.symm.trans hc), fun _ => hdrains⟩
  | drainRet hcall hall =>
      exact ⟨hpublishes, hviews, hsends, nofun,
        fun _ => (h.drains (by rw [hcall]; exact nofun)).same hprefix rfl hself⟩
  | viewCall maxRetry slot hcall hslot =>
      exact ⟨hpublishes, hviews, hsends, nofun,
        fun _ => (h.drains (by rw [hcall]; exact nofun)).same hprefix rfl hself⟩
  | readRet res slot hcall hslot =>
      exact ⟨hpublishes, hviews, hsends, nofun,
        fun _ => (h.drains (by rw [hcall]; exact nofun)).same hprefix rfl hself⟩
  | viewRet notify retries res hcall =>
      exact ⟨hpublishes, hviews, hsends, nofun,
        fun _ => (h.drains (by rw [hcall]; exact nofun)).same hprefix rfl
          (s.sub.latestView_sameGate notify res retries s.now)⟩

/-- The invariant holds throughout an execution over a fixed pool. -/
theorem exec {build : BuildConfig} {evs : List StreamEv} {s' : Stream} (h : s.Gates a)
    (hs : (streamMachine build).exec s evs = some s')
    (hfixed : (streamMachine build).Meets FixedPool s evs) : s'.Gates a :=
  hfixed.invariant (P := Gates a) hs h fun _ _ _ h hc hs => h.step hc hs

end Gates

/-- **In every run over a fixed pool** the invariant holds. -/
theorem gates_of_run {build : BuildConfig} {tr : List StreamEv} {s : Stream}
    (h : (streamMachine build).RunWhere FixedPool tr s) : ∃ a, s.Gates a := by
  refine h.invariant (P := fun _ s => ∃ a, Stream.Gates a s) ?_ ?_
  · intro s hinit
    -- at first nothing has been sent, and nobody is attached
    obtain ⟨hpublishes, hviews⟩ := publishes_views_of_run (.nil hinit)
    obtain ⟨hprod, hphase, -, hframes, hsub, hcall, -, -⟩ := hinit
    obtain ⟨hserver, hgen⟩ : s.prod.pub.server = .create ∧ s.prod.pool.generation = 1 := by
      obtain ⟨build', cfg, sys, hcreate⟩ := hprod
      exact ⟨(Producer.create_spec hcreate).1.server, (Producer.create_spec hcreate).2⟩
    refine ⟨_, hpublishes, hviews, ⟨Producer.announces_of_create hprod, hgen, hgen, ?_, ?_, ?_, ?_, ?_, ?_⟩,
      fun _ => hsub, fun hc => absurd hcall hc⟩
    · simp [hframes]
    · rw [hphase]
      exact nofun
    · rw [hserver]
      exact fun c hc => absurd hc List.not_mem_nil
    · simp [hframes]
    · intro k header file hk
      rw [sent, hserver] at hk
      cases hk
    · simp [hframes]
  · intro _ s e s' _ ⟨a, h⟩ hfixed hs
    exact ⟨a, h.step hfixed hs⟩

end Stream

end Axon
