import Axon.Sidecar.Wire

/-! # The sidecar server

`SidecarServer` owns the listening socket and the connected consumers, and caches the pool bundle. Its
sends are blocking calls on sockets of bounded capacity: a function that would have to wait for a
consumer to read returns `none`, and this is the only way it can fail to return. -/

namespace Axon

/-- The server's end of one connection: a FIFO of `capacity` bytes towards the consumer. -/
structure Conn where
  id : ℕ
  /-- Everything sent on the connection so far, oldest first. -/
  sent : List Message
  /-- How many bytes the consumer has read. -/
  read : ℕ
  capacity : ℕ
  /-- The consumer has not closed its end. -/
  peerOpen : Bool
  deriving DecidableEq

/-- How many bytes of the stream a list of messages takes. -/
def streamSize (ms : List Message) : ℕ := (ms.map Message.size).sum

/-- The bytes sent that the consumer has not read. -/
def Conn.unread (c : Conn) : ℕ := streamSize c.sent - c.read

/-- The FIFO has room for `n` more bytes. -/
def Conn.HasRoom (c : Conn) (n : ℕ) : Prop := c.unread + n ≤ c.capacity

/-- Whether there is room is a comparison. -/
instance (c : Conn) (n : ℕ) : Decidable (c.HasRoom n) := inferInstanceAs (Decidable (_ ≤ _))

/-- **`send_fds`**, followed by the send loop of a blob: an error, the connection with the message in
its FIFO, or `none` when the call has to wait for the consumer. -/
def sendFds (c : Conn) (m : Message) : Option (Except Errno Conn) :=
  if kMaxSidecarFds < m.files.length then some (.error .EINVAL)
  else if c.peerOpen = false then some (.error .EPIPE)
  else if c.HasRoom m.size then some (.ok { c with sent := c.sent ++ [m] })
  else none

/-- The server, with its backlog of connections waiting to be accepted. -/
structure SidecarServer where
  clients : List Conn
  /-- What the next calls of `accept4` will return. -/
  backlog : List (Except Errno Conn)
  /-- The cached pool bundle. -/
  poolFds : List Fd
  header : PoolHandshakeHeader
  ext : List UInt8
  /-- Connections closed because the bundle could not be sent to them. -/
  closed : List ℕ

namespace SidecarServer

/-- A server that has just been created. -/
def create : SidecarServer where
  clients := []
  backlog := []
  poolFds := []
  header := default
  ext := []
  closed := []

/-- **`set_pool`**: cache the current pool bundle. The result is false when a blob was given but cannot
be carried. -/
def setPool (s : SidecarServer) (fds : List Fd) (poolGeneration : UInt32) (bufferSize : UInt64)
    (wireVersion : UInt32) (backend : UInt8) (ext : List UInt8) : Bool × SidecarServer :=
  let header : PoolHandshakeHeader :=
    { msg := SidecarMsg.PoolHandshake
      backend := backend
      extLen := .ofNat ext.length
      wireVersion := wireVersion
      poolGeneration := poolGeneration
      nBuffers := .ofNat fds.length
      bufferSize := bufferSize }
  if 0 < ext.length ∧ ext.length ≤ kMaxHandshakeExt then
    (true, { s with poolFds := fds, header := header, ext := ext })
  else
    (decide (ext.length = 0), { s with poolFds := fds, header := { header with extLen := 0 }, ext := [] })

/-- The cached bundle as a message. -/
def bundle (s : SidecarServer) : Message := .pool s.header (s.poolFds.map (·.file)) s.ext

/-- `send_pool_to`: send the cached bundle on one connection. -/
def sendPoolTo (s : SidecarServer) (c : Conn) : Option (Except Errno Conn) := sendFds c s.bundle

/-- The accept loop: take connections off the backlog until it is empty or something fails. -/
def acceptLoop (s : SidecarServer) (accepted : ℕ) :
    List (Except Errno Conn) → Option (ℤ × SidecarServer)
  | [] => some (accepted, { s with backlog := [] })
  | .error _ :: rest => some (-1, { s with backlog := rest })
  | .ok c :: rest =>
      match s.sendPoolTo c with
      | none => none
      | some (.error _) => some (-1, { s with backlog := rest, closed := s.closed ++ [c.id] })
      | some (.ok c') => acceptLoop { s with clients := s.clients ++ [c'] } (accepted + 1) rest

/-- **`accept_and_handshake`**: accept every pending consumer and send it the cached bundle. -/
def acceptAndHandshake (s : SidecarServer) : Option (ℤ × SidecarServer) :=
  s.acceptLoop 0 s.backlog

/-- Send a message on every connection in turn, skipping those that fail; the result counts the
successes. -/
def sendAll (m : Message) : List Conn → Option (ℕ × List Conn)
  | [] => some (0, [])
  | c :: cs =>
      match sendFds c m with
      | none => none
      | some (.error _) => (sendAll m cs).map fun r => (r.1, c :: r.2)
      | some (.ok c') => (sendAll m cs).map fun r => (r.1 + 1, c' :: r.2)

/-- `broadcast_pool`: resend the cached bundle to all connected consumers. -/
def broadcastPool (s : SidecarServer) : Option (ℕ × SidecarServer) :=
  (sendAll s.bundle s.clients).map fun r => (r.1, { s with clients := r.2 })

/-- The message that carries one fence. -/
def fenceMessage (token : UInt64) (syncFd : Fd) : Message :=
  .fence { msg := SidecarMsg.SyncFence, syncFenceToken := token } syncFd.file

/-- `broadcast_sync_fence`: deliver one sync_file FD to all connected consumers. -/
def broadcastSyncFence (s : SidecarServer) (token : UInt64) (syncFd : Fd) :
    Option (ℕ × SidecarServer) :=
  (sendAll (fenceMessage token syncFd) s.clients).map fun r => (r.1, { s with clients := r.2 })

/-! ## When the server has to wait -/

/-- A send returns unless the peer is alive and its FIFO has no room for the message. -/
theorem sendFds_isSome {c : Conn} {m : Message} : (sendFds c m).isSome = true ↔
    kMaxSidecarFds < m.files.length ∨ c.peerOpen = false ∨ c.HasRoom m.size := by
  unfold sendFds
  split_ifs with hfds hopen hroom
  · exact iff_of_true rfl (.inl hfds)
  · exact iff_of_true rfl (.inr (.inl hopen))
  · exact iff_of_true rfl (.inr (.inr hroom))
  · exact iff_of_false (by simp) (by simp [hfds, hopen, hroom])

/-- A broadcast returns when every single send does. -/
theorem sendAll_isSome {m : Message} {cs : List Conn} :
    (sendAll m cs).isSome = true ↔ ∀ c ∈ cs, (sendFds c m).isSome = true := by
  induction cs with
  | nil => simp [sendAll]
  | cons c cs ih =>
      rw [List.forall_mem_cons, ← ih, sendAll]
      cases sendFds c m with
      | none => simp
      | some r => cases r <;> simp

/-- **The pending connections leave the accept loop no need to wait** for a message with `files` FDs and
`size` bytes: each, up to the first that fails, has room for it. -/
def PendingFit (files size : ℕ) : List (Except Errno Conn) → Prop
  | [] => True
  | .error _ :: _ => True
  | .ok c :: rest =>
      kMaxSidecarFds < files ∨ c.peerOpen = false ∨ (c.HasRoom size ∧ PendingFit files size rest)

/-- **The accept loop returns** unless one of the pending connections makes it wait. -/
theorem acceptLoop_isSome {s : SidecarServer} {k : ℕ} {pending : List (Except Errno Conn)} :
    (s.acceptLoop k pending).isSome = true ↔
      PendingFit s.bundle.files.length s.bundle.size pending := by
  induction pending generalizing s k with
  | nil => simp [acceptLoop, PendingFit]
  | cons r rest ih =>
      -- the loop waits at the first connection that is open but has no room
      cases r with
      | error e => simp [acceptLoop, PendingFit]
      | ok c =>
          have hsend := sendFds_isSome (c := c) (m := s.bundle)
          rw [acceptLoop, PendingFit, sendPoolTo]
          unfold sendFds at hsend ⊢
          split_ifs with hfds hopen hroom
          · exact iff_of_true rfl (.inl hfds)
          · exact iff_of_true rfl (.inr (.inl hopen))
          · rw [ih]
            exact ⟨fun h => .inr (.inr ⟨hroom, h⟩),
              fun h => ((h.resolve_left hfds).resolve_left hopen).2⟩
          · exact iff_of_false (by simp) (by simp [hfds, hopen, hroom])

/-! ## What the operations leave alone, and what they send -/

/-- Every message on every connection of the server, accepted or pending, satisfies `P`. -/
def AllSent (P : Message → Prop) (s : SidecarServer) : Prop :=
  (∀ c ∈ s.clients, ∀ m ∈ c.sent, P m) ∧ ∀ c, .ok c ∈ s.backlog → ∀ m ∈ c.sent, P m

/-- A weaker fact about what was sent. -/
theorem AllSent.mono {P Q : Message → Prop} {s : SidecarServer} (h : s.AllSent P)
    (hPQ : ∀ m, P m → Q m) : s.AllSent Q :=
  ⟨fun c hc m hm => hPQ m (h.1 c hc m hm), fun c hc m hm => hPQ m (h.2 c hc m hm)⟩

/-- A send that succeeds adds its message, which then had no more FDs than one message may carry. -/
theorem sendFds_sent {c c' : Conn} {m : Message} (h : sendFds c m = some (.ok c')) :
    m.files.length ≤ kMaxSidecarFds ∧ c' = { c with sent := c.sent ++ [m] } := by
  unfold sendFds at h
  split_ifs at h with hfds <;> cases h
  exact ⟨not_lt.mp hfds, rfl⟩

/-- What a send can do to a connection: add the message to its FIFO, or nothing. -/
def Delivered (m : Message) (c c' : Conn) : Prop :=
  c' = c ∨ (m.files.length ≤ kMaxSidecarFds ∧ c' = { c with sent := c.sent ++ [m] })

/-- A broadcast keeps every connection in its place and adds the message to some of them. -/
theorem forall₂_sendAll {m : Message} {cs : List Conn} {r : ℕ × List Conn}
    (h : sendAll m cs = some r) : List.Forall₂ (Delivered m) cs r.2 := by
  induction cs generalizing r with
  | nil =>
      cases h
      exact .nil
  | cons c cs ih =>
      rw [sendAll] at h
      split at h
      · cases h
      · obtain ⟨r', hr', rfl⟩ := Option.map_eq_some_iff.mp h
        exact .cons (.inl rfl) (ih hr')
      · rename_i c₁ hc₁
        obtain ⟨r', hr', rfl⟩ := Option.map_eq_some_iff.mp h
        exact .cons (.inr (sendFds_sent hc₁)) (ih hr')

/-- Every connection after a broadcast was there before it. -/
theorem mem_sendAll {m : Message} {cs : List Conn} {r : ℕ × List Conn} (h : sendAll m cs = some r)
    {c' : Conn} (hc' : c' ∈ r.2) : ∃ c ∈ cs, Delivered m c c' := by
  obtain ⟨i, hi, rfl⟩ := List.getElem_of_mem hc'
  have hf := forall₂_sendAll h
  have hlt : i < cs.length := hf.length_eq ▸ hi
  exact ⟨cs[i], List.getElem_mem hlt, hf.get hlt hi⟩

/-- A broadcast of a message that satisfies `P` keeps it. -/
theorem AllSent.sendAll {P : Message → Prop} {s : SidecarServer} {m : Message} {r : ℕ × List Conn}
    (h : s.AllSent P) (hm : m.files.length ≤ kMaxSidecarFds → P m)
    (hr : SidecarServer.sendAll m s.clients = some r) : AllSent P { s with clients := r.2 } := by
  refine ⟨fun c' hc' m' hm' => ?_, h.2⟩
  obtain ⟨c, hc, rfl | ⟨hfds, rfl⟩⟩ := mem_sendAll hr hc'
  · exact h.1 _ hc m' hm'
  · rcases List.mem_append.mp hm' with hm' | hm'
    · exact h.1 c hc m' hm'
    · rw [List.mem_singleton.mp hm']
      exact hm hfds

/-- The accept loop changes neither the cached bundle nor, if the bundle satisfies `P`, that every message
sent does. -/
theorem acceptLoop_spec {P : Message → Prop} {s : SidecarServer} {k : ℕ}
    {pending : List (Except Errno Conn)} {r : ℤ × SidecarServer}
    (hbundle : s.bundle.files.length ≤ kMaxSidecarFds → P s.bundle)
    (hclients : ∀ c ∈ s.clients, ∀ m ∈ c.sent, P m)
    (hpending : ∀ c, .ok c ∈ pending → ∀ m ∈ c.sent, P m) (h : s.acceptLoop k pending = some r) :
    r.2.header = s.header ∧ r.2.poolFds = s.poolFds ∧ r.2.ext = s.ext ∧ r.2.AllSent P := by
  induction pending generalizing s k with
  | nil =>
      cases h
      exact ⟨rfl, rfl, rfl, hclients, by simp⟩
  | cons p rest ih =>
      have hrest : ∀ c, .ok c ∈ rest → ∀ m ∈ c.sent, P m := fun c hc =>
        hpending c (List.mem_cons_of_mem _ hc)
      cases p with
      | error e =>
          cases h
          exact ⟨rfl, rfl, rfl, hclients, hrest⟩
      | ok c =>
          rw [acceptLoop] at h
          split at h
          · cases h
          · cases h
            exact ⟨rfl, rfl, rfl, hclients, hrest⟩
          · rename_i c' hc'
            -- the connection accepted has been sent the cached bundle
            refine ih (s := { s with clients := s.clients ++ [c'] }) hbundle ?_ hrest h
            intro c₁ hc₁ m hm
            rcases List.mem_append.mp hc₁ with hc₁ | hc₁
            · exact hclients c₁ hc₁ m hm
            · obtain ⟨hfds, hsent⟩ := sendFds_sent hc'
              rw [List.mem_singleton.mp hc₁, hsent] at hm
              rcases List.mem_append.mp hm with hm | hm
              · exact hpending c List.mem_cons_self m hm
              · rw [List.mem_singleton.mp hm]
                exact hbundle hfds

/-! ## What was sent stays sent -/

/-- Everything sent so far to the client in place `i`. -/
def sentTo (s : SidecarServer) (i : ℕ) : List Message := (s.clients[i]?).elim [] (·.sent)

/-- **Every connection of `s` is in the same place in `s'`**, and what has been sent on it since satisfies
`P`. -/
def Extends (P : Message → Prop) (s s' : SidecarServer) : Prop :=
  ∀ i, ∃ ms, s'.sentTo i = s.sentTo i ++ ms ∧ ∀ m ∈ ms, P m

namespace Extends

variable {P : Message → Prop} {s s' s'' : SidecarServer}

/-- The same messages sent. -/
theorem of_sentTo (h : ∀ i, s'.sentTo i = s.sentTo i) : s.Extends P s' := fun i =>
  ⟨[], by rw [h, List.append_nil], by simp⟩

/-- Nothing has been sent. -/
theorem refl (s : SidecarServer) : s.Extends P s := of_sentTo fun _ => rfl

/-- What is sent adds up. -/
theorem trans (h : s.Extends P s') (h' : s'.Extends P s'') : s.Extends P s'' := by
  intro i
  obtain ⟨ms, heq, hms⟩ := h i
  obtain ⟨ms', heq', hms'⟩ := h' i
  refine ⟨ms ++ ms', by rw [heq', heq, List.append_assoc], fun m hm => ?_⟩
  rcases List.mem_append.mp hm with hm | hm
  · exact hms m hm
  · exact hms' m hm

/-- What a connection was sent stays sent. -/
theorem isPrefix (h : s.Extends P s') (i : ℕ) : s.sentTo i <+: s'.sentTo i := by
  obtain ⟨ms, heq, -⟩ := h i
  rw [heq]
  exact List.prefix_append _ _

end Extends

/-- What a broadcast adds to what was sent in place `i`. -/
theorem sentTo_sendAll {s : SidecarServer} {m : Message} {r : ℕ × List Conn}
    (h : sendAll m s.clients = some r) (i : ℕ) :
    sentTo { s with clients := r.2 } i = s.sentTo i ∨
      sentTo { s with clients := r.2 } i = s.sentTo i ++ [m] := by
  have hf := forall₂_sendAll h
  unfold sentTo
  dsimp only
  -- the consumer at this place, if there is one
  cases hc : s.clients[i]? with
  | none =>
      have hlen : s.clients.length ≤ i := List.getElem?_eq_none_iff.mp hc
      rw [List.getElem?_eq_none (hf.length_eq ▸ hlen)]
      exact .inl rfl
  | some c =>
      obtain ⟨hlt, rfl⟩ := List.getElem?_eq_some_iff.mp hc
      have hi : i < r.2.length := hf.length_eq ▸ hlt
      rw [List.getElem?_eq_getElem hi]
      rcases hf.get hlt hi with heq | ⟨-, heq⟩
      · exact .inl (congrArg Conn.sent heq)
      · exact .inr (congrArg Conn.sent heq)

/-- **A broadcast** adds its message to some connections. -/
theorem Extends.sendAll {P : Message → Prop} {s : SidecarServer} {m : Message} {r : ℕ × List Conn}
    (hm : P m) (h : SidecarServer.sendAll m s.clients = some r) :
    s.Extends P { s with clients := r.2 } := by
  intro i
  rcases sentTo_sendAll h i with heq | heq
  · exact ⟨[], by rw [heq, List.append_nil], by simp⟩
  · refine ⟨[m], heq, fun m' hm' => ?_⟩
    rw [List.mem_singleton.mp hm']
    exact hm

/-- Another connection at the end of the client list. -/
theorem Extends.snoc {P : Message → Prop} {s : SidecarServer} {c : Conn} (hc : ∀ m ∈ c.sent, P m) :
    s.Extends P { s with clients := s.clients ++ [c] } := by
  intro i
  unfold sentTo
  dsimp only
  rcases lt_trichotomy i s.clients.length with hlt | rfl | hgt
  · rw [List.getElem?_append_left hlt]
    exact ⟨[], by rw [List.append_nil], by simp⟩
  · rw [List.getElem?_append_right le_rfl, List.getElem?_eq_none le_rfl, Nat.sub_self]
    exact ⟨c.sent, rfl, hc⟩
  · rw [List.getElem?_eq_none (by simp only [List.length_append, List.length_singleton]; omega),
      List.getElem?_eq_none hgt.le]
    exact ⟨[], rfl, by simp⟩

/-- **Accepting consumers** adds the bundle to their connections. -/
theorem Extends.acceptLoop {P : Message → Prop} {s : SidecarServer} {k : ℕ}
    {pending : List (Except Errno Conn)} {r : ℤ × SidecarServer} (hbundle : P s.bundle)
    (hpending : ∀ c, .ok c ∈ pending → ∀ m ∈ c.sent, P m) (h : s.acceptLoop k pending = some r) :
    s.Extends P r.2 := by
  induction pending generalizing s k with
  | nil =>
      cases h
      exact .of_sentTo fun _ => rfl
  | cons p rest ih =>
      have hrest : ∀ c, .ok c ∈ rest → ∀ m ∈ c.sent, P m := fun c hc =>
        hpending c (List.mem_cons_of_mem _ hc)
      cases p with
      | error e =>
          cases h
          exact .of_sentTo fun _ => rfl
      | ok c =>
          rw [SidecarServer.acceptLoop] at h
          split at h
          · cases h
          · cases h
            exact .of_sentTo fun _ => rfl
          · rename_i c' hc'
            -- a client is added in a place of its own
            have hnew : s.Extends P { s with clients := s.clients ++ [c'] } := by
              refine .snoc fun m hm => ?_
              rw [(sendFds_sent hc').2] at hm
              rcases List.mem_append.mp hm with hm | hm
              · exact hpending c List.mem_cons_self m hm
              · rw [List.mem_singleton.mp hm]
                exact hbundle
            exact hnew.trans (ih (s := { s with clients := s.clients ++ [c'] }) hbundle hrest h)

/-- A message has been sent on one of the server's connections. -/
def Sent (s : SidecarServer) (m : Message) : Prop := ∃ i, m ∈ s.sentTo i

/-- What was sent stays sent. -/
theorem Sent.mono {P : Message → Prop} {s s' : SidecarServer} {m : Message}
    (h : s.Sent m) (hext : s.Extends P s') : s'.Sent m := by
  obtain ⟨i, hm⟩ := h
  exact ⟨i, (hext.isPrefix i).subset hm⟩

/-- What holds of everything sent holds of this message. -/
theorem AllSent.of_sent {P : Message → Prop} {s : SidecarServer} {m : Message}
    (h : s.AllSent P) (hm : s.Sent m) : P m := by
  obtain ⟨i, hm⟩ := hm
  unfold sentTo at hm
  cases hc : s.clients[i]? with
  | none => simp [hc] at hm
  | some c =>
      rw [hc] at hm
      exact h.1 c (List.mem_of_getElem? hc) m hm

/-- Every message on a connection that is not accepted yet satisfies `P`. -/
def BacklogSent (P : Message → Prop) (s : SidecarServer) : Prop :=
  ∀ c, .ok c ∈ s.backlog → ∀ m ∈ c.sent, P m

/-- The accept loop only takes connections off the backlog. -/
theorem mem_backlog_acceptLoop {s : SidecarServer} {k : ℕ} {pending : List (Except Errno Conn)}
    {r : ℤ × SidecarServer} (h : s.acceptLoop k pending = some r) {x : Except Errno Conn}
    (hx : x ∈ r.2.backlog) : x ∈ pending := by
  induction pending generalizing s k with
  | nil =>
      cases h
      cases hx
  | cons p rest ih =>
      cases p with
      | error e =>
          cases h
          exact List.mem_cons_of_mem _ hx
      -- the one accepted is gone from the backlog
      | ok c =>
          rw [SidecarServer.acceptLoop] at h
          split at h
          · cases h
          · cases h
            exact List.mem_cons_of_mem _ hx
          · exact List.mem_cons_of_mem _ (ih h)

/-- **Accepting** appends connections that are open at the far end. -/
theorem clients_acceptLoop {s : SidecarServer} {k : ℕ} {pending : List (Except Errno Conn)}
    {r : ℤ × SidecarServer} (h : s.acceptLoop k pending = some r) :
    ∃ new, r.2.clients = s.clients ++ new ∧ ∀ c ∈ new, c.peerOpen = true := by
  induction pending generalizing s k with
  | nil =>
      cases h
      exact ⟨[], (List.append_nil _).symm, by simp⟩
  | cons p rest ih =>
      cases p with
      | error e =>
          cases h
          exact ⟨[], (List.append_nil _).symm, by simp⟩
      | ok c =>
          rw [acceptLoop] at h
          split at h
          · cases h
          · cases h
            exact ⟨[], (List.append_nil _).symm, by simp⟩
          · rename_i c' hc'
            obtain ⟨new, hnew, hopen⟩ := ih (s := { s with clients := s.clients ++ [c'] }) h
            refine ⟨c' :: new, ?_, List.forall_mem_cons.mpr ⟨?_, hopen⟩⟩
            · rw [hnew, List.append_assoc, List.singleton_append]
            · -- a send to a closed connection fails
              unfold sendPoolTo sendFds at hc'
              split_ifs at hc' with hfds hpeer <;> cases hc'
              exact Bool.of_not_eq_false hpeer

end SidecarServer

end Axon
