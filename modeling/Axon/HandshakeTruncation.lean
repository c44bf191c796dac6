import Axon.Sidecar.Framing
import Axon.Sidecar.RoundTrip
import Axon.Subscriber

/-! # Bundles that arrive with fewer FDs

Near its FD limit a receiver may have only the first of a message's FDs installed. The header still states how
many there are, and nobody compares the two. `attachesWhole_iff` says when a handshake attaches the whole pool,
or fails without keeping anything of it. -/

namespace Axon

open Foundation

/-! ## What the client does with FDs -/

namespace SidecarClient

/-- **A client later on**: it has closed only FDs that it had installed meanwhile. -/
structure Later (c c' : SidecarClient) : Prop where
  nextFd : c.nextFd ≤ c'.nextFd
  closed : ∀ fd ∈ c'.closed, fd ∈ c.closed ∨ fd.num < c'.nextFd

namespace Later

variable {c c' c'' : SidecarClient}

/-- A client that has opened and closed nothing. -/
theorem of_eq (hclosed : c'.closed = c.closed) (hnext : c'.nextFd = c.nextFd) : c.Later c' :=
  ⟨hnext.ge, fun _ hfd => .inl (hclosed ▸ hfd)⟩

/-- Later and later still. -/
theorem trans (h : c.Later c') (h' : c'.Later c'') : c.Later c'' := by
  refine ⟨h.nextFd.trans h'.nextFd, fun fd hfd => ?_⟩
  rcases h'.closed fd hfd with hfd | hlt
  · exact (h.closed fd hfd).imp_right fun hlt => hlt.trans_le h'.nextFd
  · exact .inr hlt

/-- What is closed has been opened. -/
theorem close (h : c.Later c') {fds : List Fd} (hfds : ∀ fd ∈ fds, fd.num < c'.nextFd) :
    c.Later (c'.close fds) := by
  refine ⟨h.nextFd, fun fd hfd => ?_⟩
  rcases List.mem_append.mp hfd with hfd | hfd
  · exact h.closed fd hfd
  · exact .inr (hfds fd hfd)

end Later

/-- One `recvmsg` returns FDs that it has installed, or closes them. -/
theorem recvFds_later (c : SidecarClient) (n : ℕ) : c.Later (c.recvFds n).2 ∧
    ∀ raw fds, (c.recvFds n).1 = .ok (raw, fds) → ∀ fd ∈ fds, fd.num < (c.recvFds n).2.nextFd := by
  have hlater : c.Later (c.received n) := ⟨Nat.le_add_right _ _, fun fd => .inl⟩
  have hnew : ∀ fd ∈ installFds c.nextFd (recvmsg n c.stream).files, fd.num < (c.received n).nextFd :=
    fun fd hfd => (num_of_mem_installFds hfd).2
  rcases c.recvFds_cases n with ⟨-, heq⟩ | ⟨-, heq⟩ | ⟨-, heq⟩
  · rw [heq]
    exact ⟨hlater, nofun⟩
  · rw [heq]
    exact ⟨hlater.close hnew, nofun⟩
  · rw [heq]
    refine ⟨hlater, fun raw fds hok => ?_⟩
    cases hok
    exact hnew

/-- A handshake returns FDs that it has installed, or closes them. -/
theorem recvPoolHandshake_later (c : SidecarClient) : c.Later c.recvPoolHandshake.2 ∧
    ∀ hdr fds ext, c.recvPoolHandshake.1 = .ok (hdr, fds, ext) →
      ∀ fd ∈ fds, fd.num < c.recvPoolHandshake.2.nextFd := by
  obtain ⟨hlater, hnew⟩ := c.recvFds_later PoolHandshakeHeader.size
  unfold recvPoolHandshake
  -- nothing has arrived, and nothing is read
  split_ifs
  · exact ⟨.of_eq rfl rfl, nofun⟩
  · split
    · rename_i e c₁ heq
      rw [heq] at hlater
      exact ⟨hlater, nofun⟩
    · rename_i raw fds c₁ heq
      rw [heq] at hlater hnew
      have hfds := hnew raw fds rfl
      dsimp only at hlater hfds ⊢
      split_ifs
      · exact ⟨hlater.close hfds, nofun⟩
      -- a blob is read behind the header, and its failure closes the FDs
      · split
        · rename_i e c₂ hread
          have hc₂ : c₁.Later c₂ := by
            rw [show c₂ = (c₁.readExact _).2 by rw [hread]]
            exact .of_eq rfl rfl
          exact ⟨(hlater.trans hc₂).close fun fd hfd => (hfds fd hfd).trans_le hc₂.nextFd, nofun⟩
        · rename_i ext c₂ hread
          have hc₂ : c₁.Later c₂ := by
            rw [show c₂ = (c₁.readExact _).2 by rw [hread]]
            exact .of_eq rfl rfl
          refine ⟨hlater.trans hc₂, fun hdr fds' ext' hok => ?_⟩
          cases hok
          exact fun fd hfd => (hfds fd hfd).trans_le hc₂.nextFd
      · refine ⟨hlater, fun hdr fds' ext' hok => ?_⟩
        cases hok
        exact hfds

/-- A round delivers or closes FDs that it has installed. -/
theorem pollRound_later {σ : Type} (sink : σ → UInt64 → Fd → σ) (s : PollState σ) :
    s.client.Later (pollRound (some sink) s).2.client := by
  cases hpeek : s.client.peek with
  | none =>
      rw [show pollRound (some sink) s = (false, s) by simp only [pollRound, hpeek]]
      exact .of_eq rfl rfl
  | some tag =>
      obtain ⟨hlater, hnew⟩ := s.client.recvFds_later (headerSize tag)
      cases hrecv : s.client.recvFds (headerSize tag) with
      | mk r c =>
          rw [hrecv] at hlater hnew
          cases r with
          | error e =>
              rw [pollRound_error hpeek hrecv]
              exact hlater
          | ok res =>
              obtain ⟨raw, fds⟩ := res
              have hfds := hnew raw fds rfl
              rcases pollRound_fds (some sink) hpeek hrecv with ⟨token, fd, -, hround⟩ | ⟨-, hclosed, hnext⟩
              · rw [hround]
                exact hlater
              -- the FDs closed now were installed by this very read
              · refine hlater.trans ⟨hnext.ge, fun fd hfd => ?_⟩
                rw [hclosed] at hfd
                rw [hnext]
                exact (List.mem_append.mp hfd).imp_right (hfds fd)

/-- **Polling** opens FDs and closes only these. -/
theorem pollLoop_later {σ : Type} (sink : σ → UInt64 → Fd → σ) (ready : ℕ) (s : PollState σ) :
    s.client.Later (pollLoop (some sink) ready s).client := by
  induction ready generalizing s with
  | zero => exact .of_eq rfl rfl
  | succ ready ih =>
      have hround := pollRound_later sink s
      rw [pollLoop]
      split
      · rename_i s₁ heq
        rw [heq] at hround
        exact hround.trans (ih s₁)
      · rename_i s₁ heq
        rw [heq] at hround
        exact hround

end SidecarClient

/-! ## Subscribers and their FDs -/

/-- What happens to a subscriber. -/
inductive SubscriberEv
  /-- Data of any kind arrives. -/
  | arrive (segs : List Segment)
  /-- The publisher closes its end. -/
  | hangup
  | waitHandshake (ans : HandshakeAnswers)
  | drainFences (ready : ℕ)
  | latestView (notify : UInt32) (read : Option TensorDescriptor) (retries : ℕ) (now : UInt64)
  | setFallbackPolicy (p : FallbackPolicy)

namespace TensorSubscriber

variable (build : BuildConfig)

/-- One of these steps. -/
def step (s : TensorSubscriber) : SubscriberEv → Option TensorSubscriber
  | .arrive segs => some { s with client := s.client.arrive segs }
  | .hangup => some { s with client := { s.client with eof := true } }
  | .waitHandshake ans => some (s.waitHandshake build ans).2
  | .drainFences ready => some (s.drainFences ready).2
  | .latestView notify read retries now => some (s.latestView notify read retries now).2
  | .setFallbackPolicy p => some (s.setFallbackPolicy p)

/-- **The FDs the subscriber holds or has closed** were installed before. -/
def Numbered (s : TensorSubscriber) : Prop :=
  ∀ fd, fd ∈ s.fds ∨ fd ∈ s.closed ∨ fd ∈ s.client.closed → fd.num < s.client.nextFd

variable {build : BuildConfig} {s s' : TensorSubscriber}

/-- FDs that stay as they are stay numbered. -/
theorem Numbered.later (h : s.Numbered) (hlater : s.client.Later s'.client) (hfds : s'.fds = s.fds)
    (hclosed : s'.closed = s.closed) : s'.Numbered := by
  intro fd hfd
  rw [hfds, hclosed] at hfd
  rcases hfd with hfd | hfd | hfd
  · exact (h fd (.inl hfd)).trans_le hlater.nextFd
  · exact (h fd (.inr (.inl hfd))).trans_le hlater.nextFd
  · rcases hlater.closed fd hfd with hfd | hlt
    · exact (h fd (.inr (.inr hfd))).trans_le hlater.nextFd
    · exact hlt

/-- `wait_handshake` keeps track of the FDs. -/
theorem Numbered.waitHandshake (h : s.Numbered) (ans : HandshakeAnswers) :
    (s.waitHandshake build ans).2.Numbered := by
  unfold TensorSubscriber.waitHandshake
  split
  · exact h
  · rename_i stream _
    obtain ⟨hlater, hnew⟩ := (s.reconnect stream).client.recvPoolHandshake_later
    have hreconnect : s.client.Later (s.reconnect stream).client := .of_eq rfl rfl
    dsimp only
    split
    · rename_i e client heq
      rw [heq] at hlater
      exact h.later (hreconnect.trans hlater) rfl rfl
    · rename_i hdr received ext client heq
      rw [heq] at hlater hnew
      have hreceived := hnew hdr received ext rfl
      have hclient := hreconnect.trans hlater
      dsimp only at hreceived hclient
      -- the FDs received are numbered, and those of the attachment before are closed
      have hall : TensorSubscriber.Numbered { s with client := client } := h.later hclient rfl rfl
      have hadopt : (adopt { s.reconnect stream with client := client } hdr received).Numbered := by
        rintro fd (hfd | hfd | hfd)
        · exact hreceived fd hfd
        · rcases List.mem_append.mp hfd with hfd | hfd
          · exact hall fd (.inr (.inl hfd))
          · exact hall fd (.inl hfd)
        · exact hall fd (.inr (.inr hfd))
      split_ifs
      · rintro fd (hfd | hfd | hfd)
        · exact hall fd (.inl hfd)
        · rcases List.mem_append.mp hfd with hfd | hfd
          · exact hall fd (.inr (.inl hfd))
          · exact hreceived fd hfd
        · exact hall fd (.inr (.inr hfd))
      · exact hadopt
      · obtain ⟨hclient', -, hclosed, hfds, -⟩ := attach_frame
          (adopt { s.reconnect stream with client := client } hdr received) build hdr ext ans
        obtain ⟨hclient'', hfds', hclosed'⟩ := openMetadata_frame
          ((adopt { s.reconnect stream with client := client } hdr received).attach build hdr ext ans) ans
        have hsame := hclient''.trans hclient'
        exact hadopt.later (.of_eq (congrArg _ hsame) (congrArg _ hsame)) (hfds'.trans hfds) (hclosed'.trans hclosed)

/-- **A step keeps the numbering.** -/
theorem Numbered.step {e : SubscriberEv} (h : s.Numbered) (hs : s.step build e = some s') : s'.Numbered := by
  cases e with
  | arrive segs =>
      cases hs
      exact h
  | hangup =>
      cases hs
      exact h
  | waitHandshake ans =>
      cases hs
      exact h.waitHandshake ans
  -- draining reads on from the same client
  | drainFences ready =>
      cases hs
      exact h.later (SidecarClient.pollLoop_later FenceCache.storeFence ready ⟨0, s.fences, s.client⟩) rfl rfl
  | latestView notify read retries now =>
      cases hs
      have hcase := s.latestView_cases notify read retries now
      generalize s.latestView notify read retries now = r at hcase
      cases hcase <;> exact h
  | setFallbackPolicy p =>
      cases hs
      exact h

end TensorSubscriber

/-- A subscriber built as `build`, from its creation. -/
def subscriberMachine (build : BuildConfig) : Machine TensorSubscriber SubscriberEv where
  init s := s = .create
  step := TensorSubscriber.step build

/-- **In every run** FDs are numbered in the order in which they arrive. -/
theorem TensorSubscriber.numbered_of_exec {build : BuildConfig} {tr : List SubscriberEv} {s : TensorSubscriber}
    (hexec : (subscriberMachine build).exec .create tr = some s) : s.Numbered := by
  refine Machine.exec_invariant hexec ?_ fun s₁ e s₂ _ h hs _ => TensorSubscriber.Numbered.step h hs
  rintro fd (hfd | hfd | hfd) <;> cases hfd

/-! ## Bundles cut short -/

namespace PoolBundle

/-- The header of the bundle's message. -/
def header (b : PoolBundle) : PoolHandshakeHeader where
  msg := SidecarMsg.PoolHandshake
  backend := b.backend
  extLen := .ofNat b.ext.length
  wireVersion := b.wireVersion
  poolGeneration := b.poolGeneration
  nBuffers := .ofNat b.fds.length
  bufferSize := b.bufferSize

/-- The publisher's files, in their order. -/
def files (b : PoolBundle) : List File := b.fds.map (·.file)

/-- **The bundle as it arrives** when the kernel installs only the first `k` of its FDs: the header with them,
and of the bytes behind it whatever has come. -/
def delivered (b : PoolBundle) (k : ℕ) (behind : List Segment) : List Segment :=
  ⟨b.header.encode, b.files.take k⟩ :: behind

/-- The whole blob is there. -/
def BlobArrived (b : PoolBundle) (behind : List Segment) : Prop :=
  b.ext.length ≤ byteCount behind

/-- Whether the blob has arrived can be read off what is behind the header. -/
instance (b : PoolBundle) (behind : List Segment) : Decidable (b.BlobArrived behind) :=
  inferInstanceAs (Decidable (_ ≤ _))

/-- **What a handshake reads of a bundle that arrives with `k` FDs**: it succeeds with them when the blob is
there, and closes them otherwise. -/
theorem recv_delivered {b : PoolBundle} (hb : b.Carriable) {k : ℕ} {behind : List Segment} {c : SidecarClient}
    (hs : c.stream = b.delivered k behind) :
    (b.BlobArrived behind ∧ ∃ ext c',
      c.recvPoolHandshake = (.ok (b.header, installFds c.nextFd (b.files.take k), ext), c') ∧
      c'.closed = c.closed) ∨
    (¬ b.BlobArrived behind ∧ ∃ e c', c.recvPoolHandshake = (.error e, c') ∧
      c'.closed = c.closed ++ installFds c.nextFd (b.files.take k)) := by
  have hfew : (b.files.take k).length ≤ kMaxSidecarFds := by
    rw [List.length_take, files, List.length_map]
    exact (min_le_right _ _).trans hb.1
  have hlen : b.header.extLen.toNat = b.ext.length := by
    have hext := hb.2
    unfold kMaxHandshakeExt at hext
    show (UInt16.ofNat b.ext.length).toNat = _
    rw [UInt16.toNat_ofNat', Nat.mod_eq_of_lt (by omega)]
  have hrecv := SidecarClient.recvFds_header hs b.header.length_encode hfew
  unfold SidecarClient.recvPoolHandshake
  rw [if_neg (by simp [hs, delivered]), hrecv]
  dsimp only
  rw [PoolHandshakeHeader.decode_encode, if_neg (by simp [header])]
  by_cases hpos : 0 < b.header.extLen
  · rw [if_pos hpos, hlen]
    by_cases hblob : b.BlobArrived behind
    · obtain ⟨ext, left, hread, -⟩ := SidecarClient.readExact_enough (n := b.ext.length) (c := { c with
        stream := behind, nextFd := c.nextFd + (b.files.take k).length }) hblob
      rw [hread]
      exact .inl ⟨hblob, ext, _, rfl, rfl⟩
    · obtain ⟨e, hread⟩ := SidecarClient.readExact_short (n := b.ext.length) (c := { c with
        stream := behind, nextFd := c.nextFd + (b.files.take k).length }) (not_le.mp hblob)
      rw [hread]
      exact .inr ⟨hblob, e, _, rfl, rfl⟩
  · -- a bundle without a blob
    have hnone : b.ext.length = 0 := by
      rw [← hlen]
      simpa [UInt16.lt_iff_toNat_lt] using hpos
    rw [if_neg hpos]
    exact .inl ⟨by rw [BlobArrived, hnone]; exact Nat.zero_le _, [], _, rfl, rfl⟩

end PoolBundle

namespace TensorSubscriber

/-- **The handshake attaches the whole pool**: when it succeeds, the subscriber holds as many FDs as the header
states, the publisher's files in their order; and when fewer than all were installed it fails, and has closed
them. -/
def AttachesWhole (s : TensorSubscriber) (build : BuildConfig) (ans : HandshakeAnswers) (b : PoolBundle) (k : ℕ) :
    Prop :=
  ((s.waitHandshake build ans).1 = .ok () →
    (s.waitHandshake build ans).2.fds.length = b.header.nBuffers.toNat ∧
      (s.waitHandshake build ans).2.fds.map (·.file) = b.files) ∧
  (k < b.fds.length → (s.waitHandshake build ans).1 ≠ .ok () ∧
    ∀ fd ∈ installFds s.client.nextFd (b.files.take k),
      fd ∈ (s.waitHandshake build ans).2.closed ∨ fd ∈ (s.waitHandshake build ans).2.client.closed)

variable {s s' : TensorSubscriber} {build : BuildConfig} {ans : HandshakeAnswers} {b : PoolBundle} {k : ℕ}

/-- A handshake that fails and closes the FDs installed. -/
theorem AttachesWhole.of_closed {e : Errno} (hw : s.waitHandshake build ans = (.error e, s'))
    (hclosed : ∀ fd ∈ installFds s.client.nextFd (b.files.take k), fd ∈ s'.closed ∨ fd ∈ s'.client.closed) :
    s.AttachesWhole build ans b k := by
  unfold AttachesWhole
  rw [hw]
  exact ⟨nofun, fun _ => ⟨nofun, hclosed⟩⟩

/-- **A handshake that fails late** has closed what was attached before, but not the FDs just installed. -/
theorem attachesWhole_late_iff {e : Errno} (hs : s.Numbered) (hw : s.waitHandshake build ans = (.error e, s'))
    (hclosed : s'.closed = s.closed ++ s.fds) (hclient : s'.client.closed = s.client.closed) :
    s.AttachesWhole build ans b k ↔ b.fds.length ≤ k ∨ k = 0 := by
  unfold AttachesWhole
  rw [hw, hclosed, hclient]
  constructor
  · rintro ⟨-, hshort⟩
    by_contra! hmissing
    obtain ⟨-, hall⟩ := hshort hmissing.1
    -- the first FD installed is a new one
    have hlen : 0 < (installFds s.client.nextFd (b.files.take k)).length := by
      rw [length_installFds, List.length_take, PoolBundle.files, List.length_map]
      omega
    obtain ⟨fd, hfd⟩ := List.exists_mem_of_length_pos hlen
    have hnew := (num_of_mem_installFds hfd).1
    have hold : fd.num < s.client.nextFd := by
      rcases hall fd hfd with hmem | hmem
      · rcases List.mem_append.mp hmem with hmem | hmem
        · exact hs fd (.inr (.inl hmem))
        · exact hs fd (.inl hmem)
      · exact hs fd (.inr (.inr hmem))
    omega
  · intro hnone
    refine ⟨nofun, fun hlt => ⟨nofun, fun fd hfd => ?_⟩⟩
    rcases hnone with hle | rfl
    · exact absurd hlt (not_lt.mpr hle)
    · cases hfd

/-- A handshake that succeeds attaches what was installed. -/
theorem attachesWhole_ok_iff (hb : b.Carriable) (hw : s.waitHandshake build ans = (.ok (), s'))
    (hfds : s'.fds = installFds s.client.nextFd (b.files.take k)) :
    s.AttachesWhole build ans b k ↔ b.fds.length ≤ k := by
  unfold AttachesWhole
  rw [hw, hfds]
  constructor
  -- too few FDs, and the handshake succeeded
  · rintro ⟨-, hshort⟩
    by_contra hlt
    exact (hshort (not_le.mp hlt)).1 rfl
  · intro hle
    have hall : b.files.take k = b.files := List.take_of_length_le (by simpa [PoolBundle.files] using hle)
    -- the header counts the FDs of the bundle, which are few enough not to wrap
    have hcount : b.header.nBuffers.toNat = b.fds.length := by
      have hfew := hb.1
      unfold kMaxSidecarFds at hfew
      show (UInt32.ofNat b.fds.length).toNat = _
      rw [UInt32.toNat_ofNat', Nat.mod_eq_of_lt (by omega)]
    refine ⟨fun _ => ⟨?_, ?_⟩, fun hlt => absurd hlt (not_lt.mpr hle)⟩
    · rw [length_installFds, hall, hcount, PoolBundle.files, List.length_map]
    · rw [map_file_installFds, hall]

/-- The subscriber once it has adopted the FDs that were installed. -/
def adopted (s : TensorSubscriber) (b : PoolBundle) (k : ℕ) (client : SidecarClient) : TensorSubscriber :=
  adopt { s with client := client } b.header (installFds s.client.nextFd (b.files.take k))

end TensorSubscriber

/-- The subscriber refuses the bundle once it has adopted its FDs: without a CUDA build for device buffers, or
when the metadata plane does not open. -/
def PoolBundle.RefusedLate (b : PoolBundle) (build : BuildConfig) (ans : HandshakeAnswers) : Prop :=
  (b.backend = PoolBackend.Accelerator.toByte ∧ build.cuda = false) ∨ ans.metadata = none

/-- **A bundle that is adopted** is attached whole when all its FDs were installed, or not one of a bundle that is
refused late. -/
theorem TensorSubscriber.attachesWhole_adopted_iff {s : TensorSubscriber} {build : BuildConfig}
    {ans : HandshakeAnswers} {b : PoolBundle} {k : ℕ} {client : SidecarClient} {ext : List UInt8}
    (hs : s.Numbered) (hb : b.Carriable)
    (hw : s.waitHandshake build ans =
      if (s.adopted b k client).deviceBacked = true ∧ build.cuda = false
      then (.error .ENOTSUP, s.adopted b k client)
      else ((s.adopted b k client).attach build b.header ext ans).openMetadata ans)
    (hclient : client.closed = s.client.closed) :
    s.AttachesWhole build ans b k ↔ b.fds.length ≤ k ∨ (k = 0 ∧ b.RefusedLate build ans) := by
  have hdevice : (s.adopted b k client).deviceBacked = true ↔ b.backend = PoolBackend.Accelerator.toByte :=
    decide_eq_true_iff
  have hclosed : (s.adopted b k client).closed = s.closed ++ s.fds := rfl
  unfold PoolBundle.RefusedLate
  rw [← hdevice]
  -- refused late for lack of CUDA, or attached
  by_cases hcuda : (s.adopted b k client).deviceBacked = true ∧ build.cuda = false
  · rw [if_pos hcuda] at hw
    rw [attachesWhole_late_iff hs hw hclosed hclient, and_iff_left (.inl hcuda)]
  · rw [if_neg hcuda] at hw
    obtain ⟨hclient', -, hclosed', hfds', -⟩ := (s.adopted b k client).attach_frame build b.header ext ans
    rw [or_iff_right hcuda]
    -- refused late as the slot does not open, or successful
    cases hmeta : ans.metadata with
    | none =>
        rw [openMetadata, hmeta] at hw
        rw [attachesWhole_late_iff hs hw (hclosed'.trans hclosed) ((congrArg _ hclient').trans hclient),
          and_iff_left rfl]
    | some channel =>
        rw [openMetadata, hmeta] at hw
        rw [attachesWhole_ok_iff hb hw hfds']
        simp

/-- **When the FDs that are missing do no harm**: there are none, or the bundle is refused before it is adopted,
or there is not one FD and the bundle is refused in the end. -/
def PoolBundle.Unharmed (b : PoolBundle) (k : ℕ) (behind : List Segment) (build : BuildConfig)
    (ans : HandshakeAnswers) : Prop :=
  b.fds.length ≤ k ∨ ¬ b.BlobArrived behind ∨ b.wireVersion ≠ kWireVersion ∨ (k = 0 ∧ b.RefusedLate build ans)

/-- **When a handshake attaches the whole pool.** Of a bundle sent to a subscriber in any state it can get
into, the kernel installs the first `k` FDs, and any bytes have arrived behind the header. -/
theorem attachesWhole_iff {build : BuildConfig} {tr : List SubscriberEv} {s : TensorSubscriber}
    (hexec : (subscriberMachine build).exec .create tr = some s) {b : PoolBundle} (hb : b.Carriable) {k : ℕ}
    {behind : List Segment} {ans : HandshakeAnswers} (hconnect : ans.connect = some (b.delivered k behind)) :
    s.AttachesWhole build ans b k ↔ b.Unharmed k behind build ans := by
  have hnumbered := TensorSubscriber.numbered_of_exec hexec
  unfold PoolBundle.Unharmed
  -- the whole bundle is received, or its blob is not and the FDs are closed
  rcases PoolBundle.recv_delivered hb (c := (s.reconnect (b.delivered k behind)).client) rfl with
    ⟨hblob, ext, client, hrecv, hclient⟩ | ⟨hblob, e, client, hrecv, hclient⟩
  · by_cases hversion : b.wireVersion = kWireVersion
    · rw [or_iff_right (not_not.mpr hblob), or_iff_right (not_not.mpr hversion)]
      exact TensorSubscriber.attachesWhole_adopted_iff hnumbered hb
        (TensorSubscriber.waitHandshake_of_eq hconnect hrecv hversion) hclient
    · refine iff_of_true (.of_closed (TensorSubscriber.waitHandshake_of_ne hconnect hrecv hversion)
        fun fd hfd => .inl ?_) (.inr (.inr (.inl hversion)))
      exact List.mem_append_right _ hfd
  · refine iff_of_true (.of_closed (TensorSubscriber.waitHandshake_of_error hconnect hrecv)
      fun fd hfd => .inr ?_) (.inr (.inl hblob))
    show fd ∈ client.closed
    rw [hclient]
    exact List.mem_append_right _ hfd

/-- Two buffers without a blob. -/
def twoBufferBundle : PoolBundle where
  fds := [⟨3, ⟨1, 4096⟩⟩, ⟨4, ⟨2, 4096⟩⟩]
  poolGeneration := 1
  bufferSize := 4096
  wireVersion := kWireVersion
  backend := PoolBackend.toByte .Custom
  ext := []

/-- The answers of a system on which everything succeeds, with `stream` on the connection. -/
def HandshakeAnswers.connected (stream : List Segment) : HandshakeAnswers :=
  { HandshakeAnswers.obliging fun _ => true with connect := some stream }

/-- With both FDs installed, a subscriber that handshakes a second time holds both. -/
theorem attachesWhole_again : ∃ s, (subscriberMachine ⟨false, false⟩).exec .create
      [.waitHandshake (.connected (twoBufferBundle.delivered 2 []))] = some s ∧
    s.fds.length = 2 ∧
    s.AttachesWhole ⟨false, false⟩ (.connected (twoBufferBundle.delivered 2 [])) twoBufferBundle 2 := by
  obtain ⟨s, hs⟩ : ∃ s, (subscriberMachine ⟨false, false⟩).exec .create
      [.waitHandshake (.connected (twoBufferBundle.delivered 2 []))] = some s := ⟨_, rfl⟩
  have hb : twoBufferBundle.Carriable := ⟨by decide, by decide⟩
  refine ⟨s, hs, ?_, (attachesWhole_iff hs hb rfl).mpr (.inl le_rfl)⟩
  cases hs
  rfl

/-- **A handshake succeeds with half the pool**: of two FDs only the first is installed, `wait_handshake` returns
zero, and frames in the other buffer are refused from then on. -/
theorem truncated_handshake_succeeds : ∃ s, (TensorSubscriber.create.waitHandshake ⟨false, false⟩
      (.connected (twoBufferBundle.delivered 1 []))) = (.ok (), s) ∧
    twoBufferBundle.header.nBuffers = 2 ∧ s.fds.length = 1 ∧ s.nbufs = 1 ∧
    ¬ TensorSubscriber.create.AttachesWhole ⟨false, false⟩ (.connected (twoBufferBundle.delivered 1 []))
      twoBufferBundle 1 := by
  refine ⟨_, rfl, rfl, rfl, rfl, fun hwhole => ?_⟩
  exact (hwhole.2 (by decide)).1 rfl

end Axon
