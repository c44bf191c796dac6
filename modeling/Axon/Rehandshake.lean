import Axon.HandshakeTruncation

/-! # Handshakes that fail on an attached subscriber

A subscriber may shake hands again while buffers are attached, and that may fail. `failed_handshake_keeps_iff` says
when the attachment survives: the early refusals leave it alone, and the late ones come after `detach`. -/

namespace Axon

open Foundation

/-! ## The FDs of a failed handshake -/

namespace SidecarClient

/-- One `recvmsg` closes and returns FDs that it has installed. -/
theorem recvFds_new (c : SidecarClient) (n : ℕ) :
    (∀ fd ∈ (c.recvFds n).2.closed, fd ∈ c.closed ∨ c.nextFd ≤ fd.num) ∧
    ∀ raw fds, (c.recvFds n).1 = .ok (raw, fds) → ∀ fd ∈ fds, c.nextFd ≤ fd.num := by
  have hnew : ∀ fd ∈ installFds c.nextFd (recvmsg n c.stream).files, c.nextFd ≤ fd.num :=
    fun fd hfd => (num_of_mem_installFds hfd).1
  rcases c.recvFds_cases n with ⟨-, heq⟩ | ⟨-, heq⟩ | ⟨-, heq⟩
  · rw [heq]
    exact ⟨fun fd => .inl, nofun⟩
  · rw [heq]
    exact ⟨fun fd hfd => (List.mem_append.mp hfd).imp_right (hnew fd), nofun⟩
  · rw [heq]
    refine ⟨fun fd => .inl, ?_⟩
    rintro raw fds ⟨⟩
    exact hnew

/-- A handshake closes and returns FDs that it has installed. -/
theorem recvPoolHandshake_new (c : SidecarClient) :
    (∀ fd ∈ c.recvPoolHandshake.2.closed, fd ∈ c.closed ∨ c.nextFd ≤ fd.num) ∧
    ∀ hdr fds ext, c.recvPoolHandshake.1 = .ok (hdr, fds, ext) → ∀ fd ∈ fds, c.nextFd ≤ fd.num := by
  obtain ⟨hclosed, hnew⟩ := c.recvFds_new PoolHandshakeHeader.size
  unfold recvPoolHandshake
  split_ifs
  · exact ⟨fun fd => .inl, nofun⟩
  · split
    · rename_i e c₁ heq
      rw [heq] at hclosed
      exact ⟨hclosed, nofun⟩
    · rename_i raw fds c₁ heq
      rw [heq] at hclosed hnew
      have hfds := hnew raw fds rfl
      have hrefused : ∀ fd ∈ c₁.closed ++ fds, fd ∈ c.closed ∨ c.nextFd ≤ fd.num := fun fd hfd =>
        (List.mem_append.mp hfd).elim (hclosed fd) fun hfd => .inr (hfds fd hfd)
      dsimp only
      split_ifs
      · exact ⟨hrefused, nofun⟩
      · -- reading the blob concerns no FD
        split
        · rename_i e c₂ hread
          rw [show c₂ = (c₁.readExact _).2 by rw [hread]]
          exact ⟨hrefused, nofun⟩
        · rename_i ext c₂ hread
          rw [show c₂ = (c₁.readExact _).2 by rw [hread]]
          refine ⟨hclosed, ?_⟩
          rintro hdr fds' ext' ⟨⟩
          exact hfds
      · refine ⟨hclosed, ?_⟩
        rintro hdr fds' ext' ⟨⟩
        exact hfds

end SidecarClient

namespace TensorSubscriber

/-! ## What an attachment is good for -/

/-- **A working attachment**: the metadata plane is open, and the buffers are of a kind this build can use. -/
structure Working (s : TensorSubscriber) (build : BuildConfig) : Prop where
  metadata : s.metadata ≠ none
  supported : s.deviceBacked = true → build.cuda = true

/-- What one call of `latest_view` finds: the notify word, the descriptor read, after how many retries, and the
clock. -/
structure ViewInput where
  notify : UInt32
  read : Option TensorDescriptor
  retries : ℕ
  now : UInt64

/-- What a series of `latest_view` calls returns. -/
def viewsOf : TensorSubscriber → List ViewInput → List (Option TensorView)
  | _, [] => []
  | s, i :: is =>
      let r := s.latestView i.notify i.read i.retries i.now
      r.1 :: viewsOf r.2 is

/-- The subscriber over another connection, with other FDs closed. -/
def withClient (s : TensorSubscriber) (client : SidecarClient) (closed : List Fd) : TensorSubscriber :=
  { s with client := client, closed := closed }

/-- **The attachment is as it was**: nothing has changed but the connection and what was closed, no FD of a buffer
was, and `latest_view` returns the same from then on, the last good frame in particular. -/
structure KeepsAttachment (s s' : TensorSubscriber) : Prop where
  unchanged : s'.withClient s.client s.closed = s
  open_fds : ∀ fd ∈ s.fds, fd ∈ s'.closed ∨ fd ∈ s'.client.closed → fd ∈ s.closed ∨ fd ∈ s.client.closed
  views : ∀ is, s'.viewsOf is = s.viewsOf is
  lastGood : s.fallback = .LastKnownGood → ∀ v, s.lastGood = some v → ∀ notify retries now,
    (s'.latestView notify none retries now).1 = some { v with
      stalenessNs := now - s.lastGoodPublishTsNs, seqlockRetries := retries }

/-- A bundle of this wire version is received over the new connection. -/
def Receives (s : TensorSubscriber) (ans : HandshakeAnswers) : Prop :=
  ∃ stream hdr received ext client, ans.connect = some stream ∧
    (s.reconnect stream).client.recvPoolHandshake = (.ok (hdr, received, ext), client) ∧
    hdr.wireVersion = kWireVersion

variable {s s' : TensorSubscriber} {build : BuildConfig} {ans : HandshakeAnswers} {e : Errno}

/-- Attaching buffers does not decide whose memory they are. -/
theorem attach_deviceBacked (s : TensorSubscriber) (build : BuildConfig) (hdr : PoolHandshakeHeader)
    (ext : List UInt8) (ans : HandshakeAnswers) : (s.attach build hdr ext ans).deviceBacked = s.deviceBacked := by
  unfold attach
  split_ifs
  · rfl
  · unfold importSurfaces
    dsimp only
    split_ifs <;> rfl
  · rfl

/-- **A handshake that succeeds** leaves a working attachment. -/
theorem working_of_waitHandshake (h : s.waitHandshake build ans = (.ok (), s')) : s'.Working build := by
  obtain ⟨stream, hdr, received, ext, client, s₁, hconnect, hrecv, rfl, hopen⟩ := waitHandshake_ok h
  by_cases hversion : hdr.wireVersion = kWireVersion
  · rw [waitHandshake_of_eq hconnect hrecv hversion] at h
    dsimp only at h
    -- a device bundle in a build without CUDA would have failed
    split_ifs at h with hcuda
    · cases h
    · unfold openMetadata at hopen
      split at hopen
      · cases hopen
      · rename_i ch hch
        cases hopen
        refine ⟨Option.some_ne_none ch, fun hdevice => ?_⟩
        have hadopted := (attach_deviceBacked _ build hdr ext ans).symm.trans hdevice
        exact (Bool.not_eq_false _).mp fun hno => hcuda ⟨hadopted, hno⟩
  -- so would have another version
  · rw [waitHandshake_of_ne hconnect hrecv hversion] at h
    cases h

/-- Handing out a view does not look at the link. -/
theorem handOut_withClient (s : TensorSubscriber) (client : SidecarClient) (closed : List Fd) (notify_now : UInt32)
    (read : Option TensorDescriptor) (retries : ℕ) (now : UInt64) :
    (s.withClient client closed).handOut notify_now read retries now =
      let r := s.handOut notify_now read retries now
      (r.1, r.2.withClient client closed) := by
  unfold handOut
  cases read with
  | none => rfl
  | some desc =>
      have hiff : (s.withClient client closed).Accepts desc ↔ s.Accepts desc := Iff.rfl
      by_cases hacc : s.Accepts desc
      · simp only [if_pos hacc, if_pos (hiff.mpr hacc)]
        rfl
      · simp only [if_neg hacc, if_neg (mt hiff.mp hacc)]
        rfl

/-- Neither the connection nor what is closed matters to `latest_view`. -/
theorem latestView_withClient (s : TensorSubscriber) (client : SidecarClient) (closed : List Fd) (i : ViewInput) :
    (s.withClient client closed).latestView i.notify i.read i.retries i.now =
      let r := s.latestView i.notify i.read i.retries i.now
      (r.1, r.2.withClient client closed) := by
  have hmeta : (s.withClient client closed).metadata = s.metadata := rfl
  unfold latestView
  rw [hmeta]
  cases s.metadata with
  | none => rfl
  | some ch => exact s.handOut_withClient client closed _ i.read i.retries i.now

/-- Nor does any series of views. -/
theorem viewsOf_withClient (s : TensorSubscriber) (client : SidecarClient) (closed : List Fd) (is : List ViewInput) :
    (s.withClient client closed).viewsOf is = s.viewsOf is := by
  induction is generalizing s with
  | nil => rfl
  | cons i is ih =>
      rw [viewsOf, latestView_withClient]
      exact congrArg _ (ih _)

/-- **The fallback returns the last good frame** as long as the metadata plane is open. -/
theorem latestView_lastGood (hmeta : s.metadata ≠ none) (hpolicy : s.fallback = .LastKnownGood) {v : TensorView}
    (hgood : s.lastGood = some v) (notify : UInt32) (retries : ℕ) (now : UInt64) :
    (s.latestView notify none retries now).1 = some { v with
      stalenessNs := now - s.lastGoodPublishTsNs, seqlockRetries := retries } := by
  obtain ⟨ch, hch⟩ := Option.ne_none_iff_exists'.mp hmeta
  rw [latestView, hch]
  show s.fallbackView retries now = _
  rw [fallbackView, hpolicy, hgood]
  rfl

/-- A change of the connection alone keeps the attachment. -/
theorem KeepsAttachment.of_client (hmeta : s.metadata ≠ none) {client : SidecarClient} {closed : List Fd}
    (hfds : ∀ fd ∈ s.fds, fd ∈ closed ∨ fd ∈ client.closed → fd ∈ s.closed ∨ fd ∈ s.client.closed) :
    s.KeepsAttachment (s.withClient client closed) where
  unchanged := rfl
  open_fds := hfds
  views := s.viewsOf_withClient client closed
  lastGood hpolicy _ hgood := latestView_lastGood (s := s.withClient client closed) hmeta hpolicy hgood

/-- **A failed handshake without a bundle** changes only the connection, and closes only FDs that came over it. -/
theorem waitHandshake_early (hnot : ¬ s.Receives ans) (hfail : s.waitHandshake build ans = (.error e, s')) :
    ∃ client closed, s' = s.withClient client closed ∧ ∀ fd, fd ∈ closed ∨ fd ∈ client.closed →
      (fd ∈ s.closed ∨ fd ∈ s.client.closed) ∨ s.client.nextFd ≤ fd.num := by
  cases hconnect : ans.connect with
  | none =>
      rw [waitHandshake, hconnect] at hfail
      cases hfail
      exact ⟨s.client, s.closed, rfl, fun fd => .inl⟩
  | some stream =>
      -- what is closed on the way has been installed on the way
      obtain ⟨hclosed, hnew⟩ := (s.reconnect stream).client.recvPoolHandshake_new
      generalize hrecv : (s.reconnect stream).client.recvPoolHandshake = r at hclosed hnew
      obtain ⟨res, client⟩ := r
      cases res with
      | error e =>
          rw [waitHandshake_of_error hconnect hrecv] at hfail
          cases hfail
          refine ⟨client, s.closed, rfl, fun fd hfd => ?_⟩
          rcases hfd with hfd | hfd
          · exact .inl (.inl hfd)
          · exact (hclosed fd hfd).imp_left .inr
      | ok bundle =>
          -- a bundle of another wire version is closed again
          obtain ⟨hdr, received, ext⟩ := bundle
          have hversion : hdr.wireVersion ≠ kWireVersion := fun heq =>
            hnot ⟨stream, hdr, received, ext, client, hconnect, hrecv, heq⟩
          rw [waitHandshake_of_ne hconnect hrecv hversion] at hfail
          cases hfail
          refine ⟨client, s.closed ++ received, rfl, fun fd hfd => ?_⟩
          rcases hfd with hfd | hfd
          · exact (List.mem_append.mp hfd).imp .inl (hnew hdr received ext rfl fd)
          · exact (hclosed fd hfd).imp_left .inr

/-- **A failed handshake that has received a bundle** leaves no working attachment. -/
theorem not_working_of_receives (hreceives : s.Receives ans)
    (hfail : s.waitHandshake build ans = (.error e, s')) : ¬ s'.Working build := by
  obtain ⟨stream, hdr, received, ext, client, hconnect, hrecv, hversion⟩ := hreceives
  intro hworking
  rw [waitHandshake_of_eq hconnect hrecv hversion] at hfail
  dsimp only at hfail
  split_ifs at hfail with hcuda
  · -- without CUDA the bundle's buffers are adopted and cannot be used
    cases hfail
    rw [hworking.supported hcuda.1] at hcuda
    cases hcuda.2
  · unfold openMetadata at hfail
    split at hfail
    · cases hfail
      exact hworking.metadata rfl
    · cases hfail

/-- An attachment that is kept still works. -/
theorem KeepsAttachment.working (h : s.KeepsAttachment s') (hworking : s.Working build) : s'.Working build := by
  have hmeta := congrArg (fun s : TensorSubscriber => s.metadata) h.unchanged
  have hdevice := congrArg (fun s : TensorSubscriber => s.deviceBacked) h.unchanged
  refine ⟨fun hnone => hworking.metadata (hmeta.symm.trans hnone), fun hbacked => ?_⟩
  exact hworking.supported (hdevice.symm.trans hbacked)

end TensorSubscriber

/-- **When a failed handshake keeps the attachment**: on a subscriber with a working attachment, in any state it can
get into, exactly when no bundle of this wire version was received. -/
theorem failed_handshake_keeps_iff {build : BuildConfig} {tr : List SubscriberEv} {s : TensorSubscriber}
    (hexec : (subscriberMachine build).exec .create tr = some s) (hworking : s.Working build)
    {ans : HandshakeAnswers} {e : Errno} {s' : TensorSubscriber}
    (hfail : s.waitHandshake build ans = (.error e, s')) : s.KeepsAttachment s' ↔ ¬ s.Receives ans := by
  have hnumbered := TensorSubscriber.numbered_of_exec hexec
  constructor
  · intro hkeeps hreceives
    exact TensorSubscriber.not_working_of_receives hreceives hfail (hkeeps.working hworking)
  · intro hnot
    obtain ⟨client, closed, rfl, hclosed⟩ := TensorSubscriber.waitHandshake_early hnot hfail
    refine .of_client hworking.metadata fun fd hfd hc => (hclosed fd hc).resolve_right fun hnew => ?_
    exact absurd (hnumbered fd (.inl hfd)) (not_lt.mpr hnew)

/-- A handshake, and a frame of the pool attached. -/
def attachedTrace : List SubscriberEv :=
  [.waitHandshake (.connected (twoBufferBundle.delivered 2 [])),
    .latestView 1 (some { (default : TensorDescriptor) with poolGeneration := 1 }) 0 7]

/-- A publisher of another wire version is refused, and the frame remains. -/
theorem failed_handshake_keeps_version : ∃ s s',
    (subscriberMachine ⟨false, false⟩).exec .create attachedTrace = some s ∧
    s.waitHandshake ⟨false, false⟩
      (.connected ({ twoBufferBundle with wireVersion := kWireVersion + 1 }.delivered 2 [])) = (.error .EPROTO, s') ∧
    s.KeepsAttachment s' ∧ (s'.latestView 1 none 0 9).1.isSome = true := by
  obtain ⟨s, hs⟩ : ∃ s, (subscriberMachine ⟨false, false⟩).exec .create attachedTrace = some s := ⟨_, rfl⟩
  obtain ⟨s', hs'⟩ : ∃ s', s.waitHandshake ⟨false, false⟩
      (.connected ({ twoBufferBundle with wireVersion := kWireVersion + 1 }.delivered 2 [])) =
    (.error .EPROTO, s') := ⟨_, by cases hs; rfl⟩
  -- two memfd buffers are usable in any build
  have hworking : s.Working ⟨false, false⟩ := by
    cases hs
    exact ⟨Option.some_ne_none _, nofun⟩
  refine ⟨s, s', hs, hs', (failed_handshake_keeps_iff hs hworking hs').mpr ?_, ?_⟩
  -- no bundle of this version is received
  · rintro ⟨stream, hdr, received, ext, client, hconnect, hrecv, hversion⟩
    cases hconnect
    cases hs
    cases hrecv
    revert hversion
    decide
  · cases hs
    cases hs'
    rfl

/-- **The attachment is lost when the metadata plane does not open**: the bundle has replaced it by then. -/
theorem failed_handshake_detaches : ¬ ∀ (build : BuildConfig) (tr : List SubscriberEv) (s : TensorSubscriber),
    (subscriberMachine build).exec .create tr = some s → s.Working build → ∀ (ans : HandshakeAnswers) (e : Errno)
      (s' : TensorSubscriber), s.waitHandshake build ans = (.error e, s') → s.KeepsAttachment s' := by
  intro h
  obtain ⟨s, hs⟩ : ∃ s, (subscriberMachine ⟨false, false⟩).exec .create attachedTrace = some s := ⟨_, rfl⟩
  have hkeeps := h ⟨false, false⟩ attachedTrace s hs
  cases hs
  have hunchanged := (hkeeps ⟨Option.some_ne_none _, nofun⟩
    { HandshakeAnswers.connected (twoBufferBundle.delivered 2 []) with metadata := none } _ _ rfl).unchanged
  have hgood := congrArg (fun s : TensorSubscriber => s.lastGood) hunchanged
  cases hgood

end Axon
