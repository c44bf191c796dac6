import Axon.Foundation.Machine
import Axon.Publisher

/-! # The producer process and its consumers' sockets

`producerMachine` runs one publisher on its pool. Its owner acquires and publishes frames, replaces the
pool and announces it again; the consumers connect, read their sockets at their own pace and hang up. -/

namespace Axon

open Foundation

/-- A pool with its publisher, on one system. -/
structure Producer where
  sys : Sys
  pool : TensorPool
  pub : TensorPublisher

/-- What the producer's owner and the consumers do. -/
inductive ProducerEv
  | handshake
  | acquire
  /-- `publish` of a descriptor filled in by the caller, at clock `now`. -/
  | publish (now : UInt64) (d : AcquiredDescriptor) (syncFd : Option Fd)
  | reallocate (newBufferSize : UInt64)
  | reannounce
  /-- A consumer's new connection enters the backlog, with its capacity and whether it is still alive. -/
  | connect (id capacity : ℕ) (alive : Bool)
  /-- The next connection in the backlog cannot be accepted. -/
  | acceptFails (e : Errno)
  /-- The consumer at position `i` of the client list reads up to `k` bytes. -/
  | read (i k : ℕ)
  /-- The consumer at position `i` of the client list closes its end. -/
  | hangup (i : ℕ)

/-- Change the client at position `i`. -/
def SidecarServer.modifyClient (s : SidecarServer) (i : ℕ) (f : Conn → Conn) : SidecarServer :=
  { s with clients := s.clients.modify i f }

/-- Changing a client but not what was sent to it keeps what is true of all messages sent. -/
theorem SidecarServer.AllSent.modifyClient {P : Message → Prop} {s : SidecarServer} (h : s.AllSent P)
    (i : ℕ) {f : Conn → Conn} (hf : ∀ c, (f c).sent = c.sent) : (s.modifyClient i f).AllSent P := by
  refine ⟨fun c' hc' m hm => ?_, h.2⟩
  obtain ⟨j, hj⟩ := List.mem_iff_getElem?.mp hc'
  rw [SidecarServer.modifyClient, List.getElem?_modify] at hj
  obtain ⟨c, hc, rfl⟩ := Option.map_eq_some_iff.mp hj
  have hmem : c ∈ s.clients := List.mem_iff_getElem?.mpr ⟨j, hc⟩
  split_ifs at hm
  · exact h.1 c hmem m (hf c ▸ hm)
  · exact h.1 c hmem m hm

/-- The consumer's side of a connection changes nothing that was sent. -/
theorem SidecarServer.sentTo_modifyClient (s : SidecarServer) (i : ℕ) {f : Conn → Conn}
    (hf : ∀ c, (f c).sent = c.sent) (j : ℕ) : (s.modifyClient i f).sentTo j = s.sentTo j := by
  unfold SidecarServer.sentTo SidecarServer.modifyClient
  rw [List.getElem?_modify]
  cases s.clients[j]? with
  | none => rfl
  | some c =>
      simp only [Option.elim_some]
      split_ifs
      · exact hf c
      · rfl

/-- Read up to `k` bytes of what is in the FIFO. -/
def Conn.readBytes (k : ℕ) (c : Conn) : Conn := { c with read := c.read + min k c.unread }

/-- The consumer closes its end. -/
def Conn.hangup (c : Conn) : Conn := { c with peerOpen := false }

namespace Producer

/-- The producer with another server state. -/
def setServer (s : Producer) (server : SidecarServer) : Producer :=
  { s with pub := { s.pub with server := server } }

/-- One event. A call of the owner that would have to wait for a consumer does not happen: `none`. -/
def step (s : Producer) : ProducerEv → Option Producer
  | .handshake => (s.pub.handshakePool s.pool).map fun r => { s with pub := r.2 }
  | .acquire => some { s with pub := (s.pub.acquireDescriptor s.pool).2 }
  | .publish now d syncFd => (s.pub.publish s.pool now d syncFd).map fun r => { s with pub := r.2 }
  | .reallocate n =>
      let (pool, sys) := s.pool.retireAndReallocate n s.sys
      some { s with pool := pool, sys := sys }
  | .reannounce => (s.pub.reannouncePool s.pool s.sys).map fun r => { s with pub := r.2.1, sys := r.2.2 }
  | .connect id capacity alive =>
      some (s.setServer { s.pub.server with
        backlog := s.pub.server.backlog ++ [.ok ⟨id, [], 0, capacity, alive⟩] })
  | .acceptFails e =>
      some (s.setServer { s.pub.server with backlog := s.pub.server.backlog ++ [.error e] })
  | .read i k => some (s.setServer (s.pub.server.modifyClient i (Conn.readBytes k)))
  | .hangup i => some (s.setServer (s.pub.server.modifyClient i Conn.hangup))

/-- Create the pool and the publisher on it. -/
def create (build : BuildConfig) (cfg : TensorPoolConfig) (sys : Sys) : Option Producer :=
  match TensorPool.create build cfg sys with
  | (none, _) => none
  | (some pool, sys) =>
      match TensorPublisher.create pool sys with
      | (.error _, _) => none
      | (.ok pub, sys) => some ⟨sys, pool, pub⟩

end Producer

namespace Producer

/-- **What a step adds**: nothing that was sent or published is lost, and only `publish` sends anything but
bundles. -/
theorem grows_step {P : Message → Prop} {s s' : Producer} {e : ProducerEv}
    (hpool : ∀ header files ext, P (.pool header files ext))
    (hfence : ∀ now d syncFd, e = .publish now d syncFd →
      ∀ token fd, P (SidecarServer.fenceMessage token fd))
    (hbacklog : s.pub.server.BacklogSent P) (h : s.step e = some s') :
    TensorPublisher.Grows P s.pub s'.pub := by
  cases e with
  | handshake =>
      obtain ⟨r, hr, rfl⟩ := Option.map_eq_some_iff.mp h
      obtain ⟨r', hacc, rfl⟩ := Option.map_eq_some_iff.mp hr
      have hcache : TensorPublisher.Grows P s.pub (s.pub.cachePool s.pool false) := .cachePool _ _ _
      exact hcache.trans (.accept hpool (hcache.backlog hbacklog) hacc)
  | acquire =>
      cases h
      unfold TensorPublisher.acquireDescriptor
      split_ifs <;> exact ⟨.refl _, List.prefix_rfl, id⟩
  | publish now d syncFd =>
      obtain ⟨⟨res, p'⟩, hr, rfl⟩ := Option.map_eq_some_iff.mp h
      exact .publish hpool (hfence _ _ _ rfl) hbacklog hr
  | reallocate n =>
      cases h
      exact .refl _
  | reannounce =>
      obtain ⟨r, hr, rfl⟩ := Option.map_eq_some_iff.mp h
      exact .reannounce hpool hbacklog hr
  -- a new connection has been sent nothing
  | connect id capacity alive =>
      cases h
      refine ⟨.of_sentTo fun _ => rfl, List.prefix_rfl, fun hb c hc m hm => ?_⟩
      rcases List.mem_append.mp hc with hc | hc
      · exact hb c hc m hm
      · cases List.mem_singleton.mp hc
        cases hm
  | acceptFails e =>
      cases h
      refine ⟨.of_sentTo fun _ => rfl, List.prefix_rfl, fun hb c hc => ?_⟩
      rcases List.mem_append.mp hc with hc | hc
      · exact hb c hc
      · cases List.mem_singleton.mp hc
  | read i k =>
      cases h
      exact ⟨.of_sentTo (SidecarServer.sentTo_modifyClient _ i fun _ => rfl), List.prefix_rfl, id⟩
  | hangup i =>
      cases h
      exact ⟨.of_sentTo (SidecarServer.sentTo_modifyClient _ i fun _ => rfl), List.prefix_rfl, id⟩

/-- Only `publish` changes the record of its calls. -/
theorem sameRecord_of_step {s s' : Producer} {e : ProducerEv}
    (he : ∀ now d syncFd, e ≠ .publish now d syncFd) (h : s.step e = some s') :
    s.pub.SameRecord s'.pub := by
  cases e with
  | handshake =>
      obtain ⟨r, hr, rfl⟩ := Option.map_eq_some_iff.mp h
      obtain ⟨r', -, rfl⟩ := Option.map_eq_some_iff.mp hr
      -- caching a bundle keeps the record of what was published
      obtain ⟨hseqno, hrejected, hpublished⟩ := s.pub.cachePool_sameRecord s.pool false
      exact ⟨hseqno, hrejected, hpublished⟩
  | acquire =>
      cases h
      unfold TensorPublisher.acquireDescriptor
      split_ifs <;> exact ⟨rfl, rfl, rfl⟩
  | publish now d syncFd => exact absurd rfl (he now d syncFd)
  | reannounce =>
      obtain ⟨r, hr, rfl⟩ := Option.map_eq_some_iff.mp h
      obtain ⟨rb, ra, -, -, heq⟩ := TensorPublisher.reannounce_cases hr
      obtain ⟨hseqno, hrejected, hpublished⟩ :=
        (s.pub.mapViews s.pool s.sys).1.cachePool_sameRecord s.pool true
      rw [heq]
      exact ⟨hseqno, hrejected, hpublished⟩
  -- these do not touch the publisher's record
  | reallocate | connect | acceptFails | read | hangup =>
      cases h
      exact ⟨rfl, rfl, rfl⟩

/-- A producer is created in two parts. -/
theorem create_parts {build : BuildConfig} {cfg : TensorPoolConfig} {sys : Sys} {s : Producer}
    (h : create build cfg sys = some s) : ∃ sys₁, TensorPool.create build cfg sys = (some s.pool, sys₁) ∧
      TensorPublisher.create s.pool sys₁ = (.ok s.pub, s.sys) := by
  unfold create at h
  split at h
  · cases h
  · rename_i pool sys₁ hpool
    split at h
    · cases h
    · rename_i pub sys₂ hpub
      cases h
      exact ⟨sys₁, hpool, hpub⟩

/-- What a producer is created with. -/
theorem create_spec {build : BuildConfig} {cfg : TensorPoolConfig} {sys : Sys} {s : Producer}
    (h : create build cfg sys = some s) : s.pub.Unused ∧ s.pool.generation = 1 := by
  obtain ⟨sys₁, hpool, hpub⟩ := create_parts h
  exact ⟨TensorPublisher.unused_of_create hpub, TensorPool.gen_of_create hpool⟩

end Producer

/-- **The producer machine.** -/
def producerMachine : Machine Producer ProducerEv where
  init s := ∃ build cfg sys, Producer.create build cfg sys = some s
  step := Producer.step

/-- A system in which every call succeeds. -/
def Sys.obliging : Sys where
  page := 4096
  answer _ := .ok 0
  calls := 0
  nextFd := 3
  opened := []
  closed := []
  mapParams _ := []

/-- A pool of one memfd. -/
def TensorPoolConfig.oneBuffer (bufferSize : UInt64) : TensorPoolConfig where
  nBuffers := 1
  bufferSize := bufferSize
  backend := .Custom
  v4l2Device := none

/-- A pool of memfds. -/
def TensorPoolConfig.memfds (nBuffers : ℕ) (bufferSize : UInt64) : TensorPoolConfig where
  nBuffers := nBuffers
  bufferSize := bufferSize
  backend := .Custom
  v4l2Device := none

/-- A frame of `size` bytes in buffer `0`, with or without a fence. -/
def AcquiredDescriptor.bytesFrame (size : UInt64) (kind : SyncFenceKind) : AcquiredDescriptor where
  desc := { (default : TensorDescriptor) with
    rank := 1
    shape := #v[size.toUInt32, 0, 0, 0, 0, 0, 0, 0]
    dtype := .U8
    size := size
    syncFenceKind := kind }
  bufferIndex := 0
  hostView := none

end Axon
