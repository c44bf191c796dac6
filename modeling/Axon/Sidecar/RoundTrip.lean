import Axon.Sidecar.Decode
import Axon.Sidecar.Server

/-! # The sidecar stream round trip

What the server puts on one connection (`serve_eq_some`), put together with what the client reads off
it: `sidecar_round_trip`. -/

namespace Axon

/-! ## The server's side of one connection -/

/-- The arguments of `set_pool`: a pool bundle to announce. -/
structure PoolBundle where
  fds : List Fd
  poolGeneration : UInt32
  bufferSize : UInt64
  wireVersion : UInt32
  backend : UInt8
  ext : List UInt8

/-- `set_pool` with the arguments in a bundle. -/
def SidecarServer.setBundle (s : SidecarServer) (b : PoolBundle) : SidecarServer :=
  (s.setPool b.fds b.poolGeneration b.bufferSize b.wireVersion b.backend b.ext).2

/-- The message that announces a bundle. -/
def PoolBundle.message (b : PoolBundle) : Message := (SidecarServer.create.setBundle b).bundle

/-- One message can carry the bundle. -/
def PoolBundle.Carriable (b : PoolBundle) : Prop :=
  b.fds.length ≤ kMaxSidecarFds ∧ b.ext.length ≤ kMaxHandshakeExt

/-- An operation of the server on its connections. -/
inductive SidecarOp
  /-- `set_pool` and `broadcast_pool`. -/
  | announce (b : PoolBundle)
  | fence (token : UInt64) (syncFd : Fd)

namespace SidecarOp

/-- The message an operation sends on every connection. -/
def message : SidecarOp → Message
  | announce b => b.message
  | fence token syncFd => SidecarServer.fenceMessage token syncFd

/-- The fence sent, if it is one. -/
def fence? : SidecarOp → Option (UInt64 × File)
  | announce _ => none
  | fence token syncFd => some (token, syncFd.file)

/-- The FDs of the bundle announced, if it is one. -/
def poolFiles : SidecarOp → List File
  | announce b => b.fds.map (·.file)
  | fence _ _ => []

/-- One message can carry what the operation sends. -/
def Carriable : SidecarOp → Prop
  | announce b => b.Carriable
  | fence _ _ => True

end SidecarOp

/-- Perform an operation; `none` when it has to wait. -/
def SidecarServer.perform (s : SidecarServer) : SidecarOp → Option SidecarServer
  | .announce b => (s.setBundle b).broadcastPool.map (·.2)
  | .fence token syncFd => (s.broadcastSyncFence token syncFd).map (·.2)

/-- **A server's life on one connection**: cache the first bundle, accept the connection, perform the
operations. -/
def serve (b : PoolBundle) (c : Conn) (ops : List SidecarOp) : Option SidecarServer :=
  ({ SidecarServer.create with backlog := [.ok c] }.setBundle b).acceptAndHandshake.bind fun r =>
    ops.foldlM SidecarServer.perform r.2

/-- The cached bundle is the one set last. -/
theorem SidecarServer.bundle_setBundle (s : SidecarServer) (b : PoolBundle) :
    (s.setBundle b).bundle = b.message := by
  unfold PoolBundle.message setBundle setPool
  dsimp only
  split_ifs <;> rfl

/-- Caching a bundle leaves the clients. -/
@[simp] theorem SidecarServer.clients_setBundle (s : SidecarServer) (b : PoolBundle) :
    (s.setBundle b).clients = s.clients := by
  unfold setBundle setPool
  dsimp only
  split_ifs <;> rfl

/-- Caching a bundle leaves the pending connections. -/
@[simp] theorem SidecarServer.backlog_setBundle (s : SidecarServer) (b : PoolBundle) :
    (s.setBundle b).backlog = s.backlog := by
  unfold setBundle setPool
  dsimp only
  split_ifs <;> rfl

/-- **What a carriable bundle looks like on the wire.** -/
theorem PoolBundle.message_eq {b : PoolBundle} (h : b.Carriable) :
    b.message = .pool
      { msg := SidecarMsg.PoolHandshake
        backend := b.backend
        extLen := .ofNat b.ext.length
        wireVersion := b.wireVersion
        poolGeneration := b.poolGeneration
        nBuffers := .ofNat b.fds.length
        bufferSize := b.bufferSize } (b.fds.map (·.file)) b.ext := by
  unfold PoolBundle.message SidecarServer.setBundle SidecarServer.setPool
  dsimp only
  -- an empty blob is announced as none
  split_ifs with hext
  · rfl
  · have hzero : b.ext = [] := by
      have := h.2
      rw [← List.length_eq_zero_iff]
      omega
    rw [hzero]
    rfl

/-- A bundle that can be carried can be delivered. -/
theorem PoolBundle.deliverable_message {b : PoolBundle} (h : b.Carriable) :
    b.message.Deliverable := by
  rw [PoolBundle.message_eq h]
  refine ⟨⟨rfl, ?_⟩, by simpa [Message.files] using h.1⟩
  have := h.2
  rw [UInt16.toNat_ofNat', Nat.mod_eq_of_lt (by unfold kMaxHandshakeExt at this; omega)]

/-- So can whatever an operation sends. -/
theorem SidecarOp.deliverable_message {op : SidecarOp} (h : op.Carriable) :
    op.message.Deliverable := by
  cases op with
  | announce b => exact PoolBundle.deliverable_message h
  | fence token syncFd => exact ⟨rfl, by simp [message, SidecarServer.fenceMessage, Message.files, kMaxSidecarFds]⟩

/-- A message that can be delivered to a live peer is sent, or the call waits. -/
theorem sendFds_eq_some {c : Conn} {m : Message} {r : Except Errno Conn} (hm : m.Deliverable)
    (hopen : c.peerOpen = true) (h : sendFds c m = some r) :
    r = .ok { c with sent := c.sent ++ [m] } := by
  unfold sendFds at h
  rw [if_neg (not_lt.mpr hm.2), if_neg (by simp [hopen])] at h
  split_ifs at h
  exact (Option.some.inj h).symm

/-- Broadcasting to one live connection. -/
theorem SidecarServer.sendAll_single {c : Conn} {m : Message} {r : ℕ × List Conn}
    (hm : m.Deliverable) (hopen : c.peerOpen = true) (h : sendAll m [c] = some r) :
    r.2 = [{ c with sent := c.sent ++ [m] }] := by
  unfold sendAll at h
  split at h
  · cases h
  · rename_i e he
    cases sendFds_eq_some hm hopen he
  · rename_i c' hc
    cases sendFds_eq_some hm hopen hc
    cases h
    rfl

/-- One operation adds its message to the connection. -/
theorem SidecarServer.perform_single {s s' : SidecarServer} {c : Conn} {op : SidecarOp}
    (hop : op.Carriable) (hs : s.clients = [c]) (hopen : c.peerOpen = true)
    (h : s.perform op = some s') : s'.clients = [{ c with sent := c.sent ++ [op.message] }] := by
  cases op with
  -- the bundle is cached, then sent
  | announce b =>
      obtain ⟨⟨k, s₁⟩, hb, rfl⟩ := Option.map_eq_some_iff.mp h
      obtain ⟨⟨k', cs⟩, hsend, hr⟩ := Option.map_eq_some_iff.mp hb
      rw [SidecarServer.bundle_setBundle, clients_setBundle, hs] at hsend
      cases hr
      exact sendAll_single (PoolBundle.deliverable_message hop) hopen hsend
  | fence token syncFd =>
      obtain ⟨⟨k, s₁⟩, hb, rfl⟩ := Option.map_eq_some_iff.mp h
      obtain ⟨⟨k', cs⟩, hsend, hr⟩ := Option.map_eq_some_iff.mp hb
      rw [hs] at hsend
      cases hr
      have hdel : (SidecarOp.fence token syncFd).message.Deliverable := SidecarOp.deliverable_message hop
      exact sendAll_single hdel hopen hsend

/-- Accepting one live connection sends it the bundle. -/
theorem SidecarServer.accept_single {s : SidecarServer} {c : Conn} {r : ℤ × SidecarServer}
    (hm : s.bundle.Deliverable) (hopen : c.peerOpen = true) (hclients : s.clients = [])
    (hbacklog : s.backlog = [.ok c]) (h : s.acceptAndHandshake = some r) :
    r.2.clients = [{ c with sent := c.sent ++ [s.bundle] }] := by
  rw [acceptAndHandshake, hbacklog, acceptLoop] at h
  cases hsend : s.sendPoolTo c with
  | none => simp [hsend] at h
  | some res =>
      obtain rfl := sendFds_eq_some hm hopen hsend
      simp only [hsend, acceptLoop, hclients, List.nil_append, Option.some.injEq] at h
      rw [← h]

/-- All operations add their messages, in order. -/
theorem SidecarServer.foldlM_perform_single {s s' : SidecarServer} {c : Conn} {ops : List SidecarOp}
    (hops : ∀ op ∈ ops, op.Carriable) (hs : s.clients = [c]) (hopen : c.peerOpen = true)
    (h : ops.foldlM SidecarServer.perform s = some s') :
    s'.clients = [{ c with sent := c.sent ++ ops.map SidecarOp.message }] := by
  induction ops generalizing s c with
  | nil =>
      cases h
      simpa using hs
  | cons op ops ih =>
      rw [List.foldlM_cons, Option.bind_eq_bind, Option.bind_eq_some_iff] at h
      obtain ⟨s₁, h₁, h⟩ := h
      have hs₁ := perform_single (hops op List.mem_cons_self) hs hopen h₁
      have := ih (fun op' hop' => hops op' (List.mem_cons_of_mem op hop')) hs₁ hopen h
      simpa using this

/-- **What the server has sent** on the connection: the first bundle, then a message per operation. -/
theorem serve_eq_some {b : PoolBundle} {c : Conn} {ops : List SidecarOp} {srv : SidecarServer}
    (hb : b.Carriable) (hops : ∀ op ∈ ops, op.Carriable) (hopen : c.peerOpen = true)
    (h : serve b c ops = some srv) :
    srv.clients = [{ c with sent := c.sent ++ (b.message :: ops.map SidecarOp.message) }] := by
  unfold serve at h
  rw [Option.bind_eq_some_iff] at h
  obtain ⟨⟨k, s⟩, hacc, h⟩ := h
  have hm : ({ SidecarServer.create with backlog := [.ok c] }.setBundle b).bundle.Deliverable := by
    rw [SidecarServer.bundle_setBundle]
    exact PoolBundle.deliverable_message hb
  have hs := SidecarServer.accept_single hm hopen
    (by rw [SidecarServer.clients_setBundle]; rfl) (by rw [SidecarServer.backlog_setBundle]) hacc
  rw [SidecarServer.bundle_setBundle] at hs
  have := SidecarServer.foldlM_perform_single hops hs hopen h
  simpa using this

/-! ## The round trip -/

/-- The fences among the operations' messages are the fences sent. -/
theorem map_fencesOf (n : ℕ) {ops : List SidecarOp} (hops : ∀ op ∈ ops, op.Carriable) :
    (fencesOf n (ops.map SidecarOp.message)).map (fun p => (p.1, p.2.file)) =
      ops.filterMap SidecarOp.fence? := by
  induction ops generalizing n with
  | nil => rfl
  | cons op ops ih =>
      have ih := fun n => ih n fun op' hop' => hops op' (List.mem_cons_of_mem op hop')
      cases op with
      | announce b =>
          have hb : b.Carriable := hops _ List.mem_cons_self
          rw [List.map_cons, SidecarOp.message, PoolBundle.message_eq hb, fencesOf, ih]
          rfl
      | fence token syncFd =>
          rw [List.map_cons, SidecarOp.message, SidecarServer.fenceMessage, fencesOf, List.map_cons, ih]
          rfl

/-- The bundle FDs among the operations' messages are those of the bundles announced. -/
theorem map_poolFdsOf (n : ℕ) {ops : List SidecarOp} (hops : ∀ op ∈ ops, op.Carriable) :
    (poolFdsOf n (ops.map SidecarOp.message)).map (·.file) = ops.flatMap SidecarOp.poolFiles := by
  induction ops generalizing n with
  | nil => rfl
  | cons op ops ih =>
      have ih := fun n => ih n fun op' hop' => hops op' (List.mem_cons_of_mem op hop')
      cases op with
      | announce b =>
          have hb : b.Carriable := hops _ List.mem_cons_self
          rw [List.map_cons, SidecarOp.message, PoolBundle.message_eq hb, poolFdsOf, List.map_append,
            map_file_installFds, ih]
          rfl
      | fence token syncFd =>
          rw [List.map_cons, SidecarOp.message, SidecarServer.fenceMessage, poolFdsOf, ih]
          rfl

/-- What `poll_sync_fences` hands out in the round trip: a log of the tokens and FDs. -/
def logSink (log : List (UInt64 × Fd)) (token : UInt64) (fd : Fd) : List (UInt64 × Fd) :=
  log ++ [(token, fd)]

/-- The log has the fences handed over, in their order. -/
theorem foldl_logSink (log ps : List (UInt64 × Fd)) :
    ps.foldl (fun ctx p => logSink ctx p.1 p.2) log = log ++ ps := by
  induction ps generalizing log with
  | nil => simp
  | cons p ps ih => rw [List.foldl_cons, ih, logSink, List.append_assoc, List.singleton_append]

/-- **The sidecar stream round trip.** On a connection over which the server has sent a first bundle and
then performed any operations, in however many pieces the blobs arrive: the pool handshake decodes the
first bundle, and any number of calls of `poll_sync_fences`, with any timeouts, consume the messages of
the operations in order. Every fence consumed went to the sink once, with its token and file, every FD
of a bundle announced again was closed and no fence's FD was, and what is left of the stream begins with
the first message not consumed. -/
theorem sidecar_round_trip {b : PoolBundle} {ops : List SidecarOp} {c : Conn} {srv : SidecarServer}
    (hb : b.Carriable) (hops : ∀ op ∈ ops, op.Carriable) (hopen : c.peerOpen = true)
    (hnew : c.sent = []) (hrun : serve b c ops = some srv) :
    ∃ conn, srv.clients = [conn] ∧ ∀ segs n, Message.ArriveAll conn.sent segs →
      ∃ header fds client,
        (SidecarClient.onStream segs n).recvPoolHandshake = (.ok (header, fds, b.ext), client) ∧
        header.backend = b.backend ∧ header.poolGeneration = b.poolGeneration ∧
        header.bufferSize = b.bufferSize ∧ fds.map (·.file) = b.fds.map (·.file) ∧
        client.closed = [] ∧
        ∀ calls : List ℕ,
          let taken := ops.take calls.sum
          let r := SidecarClient.pollCalls (some logSink) calls [] client
          r.1.map (fun p => (p.1, p.2.file)) = taken.filterMap SidecarOp.fence? ∧
          r.2.closed.map (·.file) = taken.flatMap SidecarOp.poolFiles ∧
          (∀ p ∈ r.1, p.2 ∉ fds ∧ p.2 ∉ r.2.closed) ∧ (∀ fd ∈ fds, fd ∉ r.2.closed) ∧
          Message.ArriveAll ((ops.drop calls.sum).map SidecarOp.message) r.2.stream ∧
          (ops.length ≤ calls.sum → r.2.stream = []) := by
  refine ⟨_, serve_eq_some hb hops hopen hrun, fun segs n harr => ?_⟩
  rw [hnew, List.nil_append] at harr
  cases harr with
  | @cons _ _ segs rest hfirst hrest =>
      rw [PoolBundle.message_eq hb] at hfirst
      have hm := PoolBundle.deliverable_message hb
      rw [PoolBundle.message_eq hb] at hm
      have hrecv := SidecarClient.recvPoolHandshake_arrives
        (c := SidecarClient.onStream (segs ++ rest) n) hm hfirst rfl
      refine ⟨_, _, _, hrecv, rfl, rfl, rfl, map_file_installFds _ _, rfl, fun calls => ?_⟩
      have htaken : ∀ op ∈ ops.take calls.sum, op.Carriable := fun op hop =>
        hops op (List.mem_of_mem_take hop)
      have hcons := SidecarClient.pollCalls_arriveAll logSink calls []
        (c := { SidecarClient.onStream (segs ++ rest) n with
          stream := rest, nextFd := n + (b.fds.map (·.file)).length })
        (fun m hm => by
          obtain ⟨op, hop, rfl⟩ := List.mem_map.mp hm
          exact SidecarOp.deliverable_message (hops op hop)) hrest
      obtain ⟨hctx, -, hclosed, hleft⟩ := hcons
      rw [foldl_logSink, List.nil_append, ← List.map_take] at hctx
      rw [← List.map_take] at hclosed
      rw [← List.map_drop] at hleft
      simp only [SidecarClient.onStream, List.nil_append] at hctx hclosed hleft ⊢
      refine ⟨by rw [hctx, map_fencesOf _ htaken], by rw [hclosed, map_poolFdsOf _ htaken],
        fun p hp => ⟨fun hfd => ?_, ?_⟩, fun fd hfd hmem => ?_, hleft, fun hall => ?_⟩
      · -- the bundle's FDs were installed first
        rw [hctx] at hp
        have h1 := le_num_of_mem_fencesOf hp
        have h2 := (num_of_mem_installFds hfd).2
        omega
      · rw [hctx] at hp
        rw [hclosed]
        exact fencesOf_disjoint_poolFdsOf hp
      · rw [hclosed] at hmem
        have h1 := le_num_of_mem_poolFdsOf hmem
        have h2 := (num_of_mem_installFds hfd).2
        omega
      · rw [List.drop_of_length_le hall, List.map_nil] at hleft
        generalize (SidecarClient.pollCalls _ _ _ _).2.stream = left at hleft
        cases hleft
        rfl

/-- A bundle of one buffer with a blob of three bytes. -/
def oneBufferBundle : PoolBundle where
  fds := [⟨3, ⟨1, 4096⟩⟩]
  poolGeneration := 1
  bufferSize := 4096
  wireVersion := kWireVersion
  backend := PoolBackend.toByte .NvBufSurface
  ext := [[7], [8, 9]].flatten

/-- The bundle, a fence and the bundle again, over a connection with room for all of them: the fence
reaches the sink in the first of two calls. -/
theorem sidecar_round_trip_oneBuffer : ∃ segs header fds client,
    (SidecarClient.onStream segs 0).recvPoolHandshake = (.ok (header, fds, [7, 8, 9]), client) ∧
    (SidecarClient.pollCalls (some logSink) [1, 1] [] client).1.map (fun p => (p.1, p.2.file)) =
      [(42, ⟨5, 0⟩)] ∧
    (SidecarClient.pollCalls (some logSink) [1, 1] [] client).2.stream = [] := by
  have hb : oneBufferBundle.Carriable := ⟨by decide, by decide⟩
  let ops : List SidecarOp := [.fence 42 ⟨8, ⟨5, 0⟩⟩, .announce oneBufferBundle]
  have hops : ∀ op ∈ ops, op.Carriable := by
    intro op hop
    rcases List.mem_cons.mp hop with rfl | hop
    · exact trivial
    · obtain rfl := List.mem_singleton.mp hop
      exact hb
  obtain ⟨srv, hrun⟩ : ∃ srv, serve oneBufferBundle ⟨0, [], 0, 1000, true⟩ ops = some srv :=
    ⟨_, rfl⟩
  obtain ⟨conn, hconn, hall⟩ := sidecar_round_trip hb hops rfl rfl hrun
  obtain rfl : conn = ⟨0, [oneBufferBundle.message, SidecarServer.fenceMessage 42 ⟨8, ⟨5, 0⟩⟩,
      oneBufferBundle.message], 0, 1000, true⟩ := by
    cases hrun
    exact (List.singleton_inj.mp hconn).symm
  -- the second announcement arrives with its blob in two pieces
  obtain ⟨segs, hbundle⟩ : ∃ segs, oneBufferBundle.message.Arrives segs := by
    rw [PoolBundle.message_eq hb]
    exact ⟨_, .pool _ _ [[7], [8, 9]] (by decide)⟩
  obtain ⟨header, fds, client, hrecv, -, -, -, -, -, hpoll⟩ :=
    hall _ 0 (.cons hbundle (.cons (.fence _ _) (.cons hbundle .nil)))
  obtain ⟨hfences, -, -, -, -, hend⟩ := hpoll [1, 1]
  exact ⟨_, header, fds, client, hrecv, hfences, hend le_rfl⟩

end Axon
