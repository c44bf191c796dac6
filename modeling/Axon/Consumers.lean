import Axon.Producer

/-! # The consumers of a server

`linksMachine` puts consumer processes next to the producer. Each has a `SidecarClient` with at most one
connection: `connect` establishes a new one and then closes the old, and a process that exits closes its
own. The server learns of neither.

* **`SidecarServer.ends`** is what the server holds: its connections, and which of them are open at the far
  end. No call of the owner opens one again.
* **`broadcasts_clean_iff`**: the sockets kept after a broadcast are those of live consumers exactly when
  none of them was closed at the far end before. -/

namespace Axon

open Foundation

/-- A consumer process, with the connection of its `SidecarClient`. -/
inductive Consumer
  | running (sock : Option ℕ)
  | exited
  deriving DecidableEq

namespace Consumer

/-- The connection of a consumer, if it has one. -/
def sock : Consumer → Option ℕ
  | running sock => sock
  | exited => none

/-- The consumer has not exited. -/
def isRunning : Consumer → Bool
  | running _ => true
  | exited => false

end Consumer

/-- A producer, its consumers, and the name of the next connection. -/
structure Links where
  producer : Producer
  consumers : List Consumer
  nextConn : ℕ

/-- What producer and consumers do. -/
inductive LinksEv
  /-- A call of the producer's owner, or a consumer that reads its socket. -/
  | owner (e : ProducerEv)
  | start
  /-- `SidecarClient::connect` of consumer `j`. -/
  | connect (j capacity : ℕ)
  | exit (j : ℕ)

/-- The event is one of those that `Links` leaves to its consumers. -/
def ProducerEv.isConsumers : ProducerEv → Bool
  | connect .. => true
  | hangup _ => true
  | _ => false

/-- A connection is closed at the far end if it is connection `id`. -/
def Conn.hangupIf (id : Option ℕ) (c : Conn) : Conn := if some c.id = id then c.hangup else c

/-- A consumer closes its end of connection `id`, accepted or not. -/
def SidecarServer.closePeer (s : SidecarServer) (id : Option ℕ) : SidecarServer :=
  { s with
    clients := s.clients.map (Conn.hangupIf id)
    backlog := s.backlog.map fun r => r.map (Conn.hangupIf id) }

namespace Links

/-- The producer with a consumer's end closed. -/
def closePeer (p : Producer) (id : Option ℕ) : Producer := p.setServer (p.pub.server.closePeer id)

/-- One event. `connect` drops the old link once the new one is there. -/
def step (s : Links) : LinksEv → Option Links
  | .owner e =>
      if e.isConsumers = true then none
      else (s.producer.step e).map fun p => { s with producer := p }
  | .start => some { s with consumers := s.consumers ++ [.running none] }
  | .connect j capacity =>
      match s.consumers[j]? with
      | some (.running old) =>
          (s.producer.step (.connect s.nextConn capacity true)).map fun p =>
            { producer := closePeer p old
              consumers := s.consumers.set j (.running (some s.nextConn))
              nextConn := s.nextConn + 1 }
      | _ => none
  | .exit j =>
      match s.consumers[j]? with
      | some (.running sock) =>
          some { s with producer := closePeer s.producer sock, consumers := s.consumers.set j .exited }
      | _ => none

/-- The connections that consumers hold. -/
def links (s : Links) : List ℕ := s.consumers.filterMap Consumer.sock

/-- **`connected_count`**. -/
def connectedCount (s : Links) : ℕ := s.producer.pub.server.clients.length

/-- How many consumers are alive. -/
def liveConsumers (s : Links) : ℕ := s.consumers.countP Consumer.isRunning

/-- What an event broadcasts to the clients: a fence, or the bundle of the new pool. -/
def broadcast (s : Links) : LinksEv → Option Message
  | .owner (.publish now d (some syncFd)) =>
      let desc := s.producer.pub.stamp s.producer.pool now d
      if s.producer.pub.check d = none ∧ desc.syncFenceKind = .SyncFileViaSidecar then
        some (SidecarServer.fenceMessage desc.syncFenceToken syncFd)
      else none
  | .owner .reannounce =>
      some (s.producer.pub.remapped s.producer.pool s.producer.sys).server.bundle
  | _ => none

/-- **No dead consumers are kept** by a broadcast of `m` on the way from `s` to `s'`: no socket on which the
send failed is still in the client list, and those in the list are links of live consumers, so that there are
no more of them than live consumers. -/
structure Clean (m : Message) (s s' : Links) : Prop where
  failed : ∀ c ∈ s.producer.pub.server.clients, ∀ err, sendFds c m = some (.error err) →
    c.id ∉ s'.producer.pub.server.clients.map Conn.id
  live : ∀ c ∈ s'.producer.pub.server.clients, c.id ∈ s'.links
  count : s'.connectedCount ≤ s'.liveConsumers

/-- After a broadcast no dead consumers are kept. -/
def KeepsLive (s : Links) (e : LinksEv) : Prop :=
  ∀ m, s.broadcast e = some m → ∀ s', s.step e = some s' → Clean m s s'

/-- A broadcast finds no connection in the client list that has been closed at the far end, and has no more
FDs than a message may carry. -/
def Reaches (s : Links) (e : LinksEv) : Prop :=
  ∀ m, s.broadcast e = some m → ∀ c ∈ s.producer.pub.server.clients,
    c.peerOpen = true ∧ m.files.length ≤ kMaxSidecarFds

/-- Whether a step reaches its consumer can be read off the state. -/
instance (s : Links) (e : LinksEv) : Decidable (s.Reaches e) :=
  inferInstanceAs (Decidable (∀ m ∈ s.broadcast e, ∀ c ∈ s.producer.pub.server.clients,
    c.peerOpen = true ∧ m.files.length ≤ kMaxSidecarFds))

end Links

/-- **The machine of a producer and its consumers.** -/
def linksMachine : Machine Links LinksEv where
  init s := (∃ build cfg sys, Producer.create build cfg sys = some s.producer) ∧ s.consumers = [] ∧
    s.nextConn = 0
  step := Links.step

/-! ## What the server holds -/

/-- A connection's name, and whether it is open at the far end. -/
def Conn.farEnd (c : Conn) : ℕ × Bool := (c.id, c.peerOpen)

namespace SidecarServer

/-- **The far ends** of the server's connections, accepted or waiting. -/
def ends (s : SidecarServer) : List (ℕ × Bool) :=
  (s.clients ++ s.backlog.filterMap Except.toOption).map Conn.farEnd

variable {s s' : SidecarServer}

/-- The far ends are those of the connections. -/
theorem ends_congr (hclients : s'.clients = s.clients) (hbacklog : s'.backlog = s.backlog) :
    s'.ends = s.ends := by
  unfold ends
  rw [hclients, hbacklog]

/-- A client has a far end. -/
theorem mem_ends_of_client {c : Conn} (hc : c ∈ s.clients) : c.farEnd ∈ s.ends :=
  List.mem_map_of_mem (List.mem_append_left _ hc)

/-- A broadcast leaves every connection in the list. -/
theorem farEnds_of_delivered {m : Message} {cs cs' : List Conn} (h : List.Forall₂ (Delivered m) cs cs') :
    cs'.map Conn.farEnd = cs.map Conn.farEnd := by
  induction h with
  | nil => rfl
  | cons hd _ ih =>
      rw [List.map_cons, List.map_cons, ih]
      rcases hd with rfl | ⟨-, rfl⟩ <;> rfl

/-- A broadcast leaves the far ends. -/
theorem ends_sendAll {m : Message} {r : ℕ × List Conn} (h : sendAll m s.clients = some r) :
    ends { s with clients := r.2 } = s.ends := by
  unfold ends
  rw [List.map_append, List.map_append, farEnds_of_delivered (forall₂_sendAll h)]

/-- Accepting may drop a connection but makes none. -/
theorem ends_acceptLoop {k : ℕ} {pending : List (Except Errno Conn)} {r : ℤ × SidecarServer}
    (h : s.acceptLoop k pending = some r) :
    r.2.ends.Sublist ((s.clients ++ pending.filterMap Except.toOption).map Conn.farEnd) := by
  induction pending generalizing s k with
  | nil =>
      cases h
      exact .refl _
  | cons p rest ih =>
      -- the loop ends at the first failure; a connection that cannot be served is dropped
      cases p with
      | error e =>
          cases h
          exact .refl _
      | ok c =>
          rw [acceptLoop] at h
          split at h
          · cases h
          · cases h
            exact ((List.Sublist.refl _).append (List.sublist_cons_self c _)).map _
          · rename_i c' hc'
            have hfar : c'.farEnd = c.farEnd := by
              rw [(sendFds_sent hc').2]
              rfl
            have hrest := ih (s := { s with clients := s.clients ++ [c'] }) h
            rw [List.append_assoc, List.map_append, List.map_append, List.map_singleton, hfar] at hrest
            have hcons : (Except.ok c :: rest).filterMap Except.toOption =
                c :: rest.filterMap (Except.toOption (ε := Errno)) := rfl
            rw [hcons, List.map_append, List.map_cons]
            exact hrest

/-- Accepting consumers adds no far end. -/
theorem ends_accept {r : ℤ × SidecarServer} (h : s.acceptAndHandshake = some r) :
    r.2.ends.Sublist s.ends := ends_acceptLoop h

/-- Closing connection `id` at the far end. -/
theorem ends_closePeer (s : SidecarServer) (id : Option ℕ) :
    (s.closePeer id).ends = s.ends.map fun p => if some p.1 = id then (p.1, false) else p := by
  have hfar : Conn.farEnd ∘ Conn.hangupIf id =
      (fun p : ℕ × Bool => if some p.1 = id then (p.1, false) else p) ∘ Conn.farEnd := by
    funext c
    unfold Function.comp Conn.hangupIf Conn.farEnd
    dsimp only
    split_ifs <;> rfl
  -- connections still pending are closed like those accepted
  have hpending : ∀ pending : List (Except Errno Conn),
      (pending.map fun r => r.map (Conn.hangupIf id)).filterMap Except.toOption =
        (pending.filterMap Except.toOption).map (Conn.hangupIf id) := by
    intro pending
    induction pending with
    | nil => rfl
    | cons r rest ih =>
        cases r with
        | error e => exact ih
        | ok c => exact congrArg _ ih
  unfold ends closePeer
  rw [hpending, ← List.map_append, List.map_map, List.map_map, hfar]

end SidecarServer

/-- **No call of the owner makes a connection or opens one again.** -/
theorem Producer.ends_of_step {s s' : Producer} {e : ProducerEv} (he : e.isConsumers = false)
    (hs : s.step e = some s') : s'.pub.server.ends.Sublist s.pub.server.ends := by
  cases e with
  | handshake =>
      obtain ⟨r, hr, rfl⟩ := Option.map_eq_some_iff.mp hs
      obtain ⟨r', hacc, rfl⟩ := Option.map_eq_some_iff.mp hr
      obtain ⟨hclients, hbacklog⟩ := s.pub.cachePool_conns s.pool false
      have h := SidecarServer.ends_accept hacc
      rwa [SidecarServer.ends_congr hclients hbacklog] at h
  | publish now d syncFd =>
      obtain ⟨⟨res, pub⟩, hr, rfl⟩ := Option.map_eq_some_iff.mp hs
      obtain ⟨err, -, -, rfl⟩ | ⟨-, -, p₁, r, hsend, hacc, rfl⟩ := TensorPublisher.publish_cases hr
      · exact .refl _
      · obtain ⟨hclients, hbacklog⟩ :=
          (p₁.writeMeta (s.pub.stamp s.pool now d)).cachePool_conns s.pool false
        have h := SidecarServer.ends_accept hacc
        unfold TensorPublisher.afterPublish at h
        rw [SidecarServer.ends_congr hclients hbacklog] at h
        -- sending the fence leaves the ends as they are, and then consumers are accepted
        have hfenced : p₁.server.ends = s.pub.server.ends := by
          obtain ⟨clients, rfl, ⟨rfl, -⟩ | ⟨fd, n, -, -, hall⟩⟩ := TensorPublisher.sendFence_spec hsend
          · rfl
          · exact SidecarServer.ends_sendAll hall
        exact hfenced ▸ h
  | reannounce =>
      obtain ⟨⟨k, r⟩, hr, rfl⟩ := Option.map_eq_some_iff.mp hs
      obtain ⟨rb, ra, hsent, hacc, rfl⟩ := TensorPublisher.reannounce_cases hr
      obtain ⟨hclients, hbacklog⟩ := (s.pub.mapViews s.pool s.sys).1.cachePool_conns s.pool true
      have h := SidecarServer.ends_accept hacc
      rw [SidecarServer.ends_sendAll (s := (s.pub.remapped s.pool s.sys).server) hsent] at h
      unfold TensorPublisher.remapped at h
      rwa [SidecarServer.ends_congr hclients hbacklog] at h
  | acquire =>
      cases hs
      unfold TensorPublisher.acquireDescriptor
      split_ifs <;> exact .refl _
  | reallocate n =>
      cases hs
      exact .refl _
  | acceptFails err =>
      cases hs
      -- a failed accept is no connection
      have h : (s.pub.server.backlog ++ [Except.error err]).filterMap Except.toOption =
          s.pub.server.backlog.filterMap Except.toOption := by
        rw [List.filterMap_append]
        exact List.append_nil _
      unfold SidecarServer.ends setServer
      dsimp only
      rw [h]
  | read i k =>
      cases hs
      -- reading makes room at the far end, and leaves it open
      have h : (s.pub.server.clients.modify i (Conn.readBytes k)).map Conn.farEnd =
          s.pub.server.clients.map Conn.farEnd := by
        apply List.ext_getElem?
        intro j
        rw [List.getElem?_map, List.getElem?_map, List.getElem?_modify]
        cases s.pub.server.clients[j]? with
        | none => rfl
        | some c =>
            by_cases hij : i = j
            · simp only [hij, if_true]
              rfl
            · simp only [hij, if_false]
              rfl
      unfold SidecarServer.ends setServer SidecarServer.modifyClient
      dsimp only
      rw [List.map_append, List.map_append, h]
  | connect => cases he
  | hangup => cases he

namespace Links

variable {s s' : Links}

/-- **The invariant**: no two connections have one name, and one that is open at the far end is the link of
a consumer. -/
structure Inv (s : Links) : Prop where
  nodup : (s.producer.pub.server.ends.map Prod.fst).Nodup
  fresh : ∀ p ∈ s.producer.pub.server.ends, p.1 < s.nextConn
  live : ∀ p ∈ s.producer.pub.server.ends, p.2 = true → p.1 ∈ s.links

/-- At the beginning there are no consumers. -/
theorem Inv.of_init (h : linksMachine.init s) : s.Inv := by
  obtain ⟨⟨build, cfg, sys, hcreate⟩, -, -⟩ := h
  have hends : s.producer.pub.server.ends = [] := by
    rw [(Producer.create_spec hcreate).1.server]
    rfl
  refine ⟨?_, ?_, ?_⟩
  · rw [hends]
    exact .nil
  · rw [hends]
    exact fun p hp => absurd hp List.not_mem_nil
  · rw [hends]
    exact fun p hp => absurd hp List.not_mem_nil

/-- A link stays when another consumer's changes. -/
theorem mem_links_set {consumers : List Consumer} {j : ℕ} {old : Option ℕ} {c : Consumer}
    (hj : consumers[j]? = some (.running old)) {id : ℕ} (hid : id ∈ consumers.filterMap Consumer.sock)
    (hne : some id ≠ old) : id ∈ (consumers.set j c).filterMap Consumer.sock := by
  obtain ⟨c', hc', hsock⟩ := List.mem_filterMap.mp hid
  obtain ⟨i, hi⟩ := List.mem_iff_getElem?.mp hc'
  have hij : j ≠ i := by
    rintro rfl
    obtain rfl := Option.some.inj (hi.symm.trans hj)
    exact hne hsock.symm
  refine List.mem_filterMap.mpr ⟨c', List.mem_iff_getElem?.mpr ⟨i, ?_⟩, hsock⟩
  rw [List.getElem?_set_ne hij]
  exact hi

/-- Closing the link of consumer `j` at the far end, when the consumer gives it up. -/
theorem Inv.closePeer {p : Producer} {consumers : List Consumer} {next j : ℕ} {old : Option ℕ} {c : Consumer}
    (hnodup : (p.pub.server.ends.map Prod.fst).Nodup) (hfresh : ∀ q ∈ p.pub.server.ends, q.1 < next)
    (hj : consumers[j]? = some (.running old))
    (hlive : ∀ q ∈ p.pub.server.ends, q.2 = true →
      q.1 ∈ consumers.filterMap Consumer.sock ∨ q.1 ∈ (consumers.set j c).filterMap Consumer.sock) :
    Inv ⟨closePeer p old, consumers.set j c, next⟩ := by
  have hends : (Links.closePeer p old).pub.server.ends =
      p.pub.server.ends.map fun p => if some p.1 = old then (p.1, false) else p :=
    p.pub.server.ends_closePeer old
  have hname : Prod.fst ∘ (fun p : ℕ × Bool => if some p.1 = old then (p.1, false) else p) = Prod.fst := by
    funext q
    unfold Function.comp
    dsimp only
    split_ifs <;> rfl
  refine ⟨?_, ?_, ?_⟩
  · show ((Links.closePeer p old).pub.server.ends.map Prod.fst).Nodup
    rw [hends, List.map_map, hname]
    exact hnodup
  · intro q hq
    obtain ⟨q₀, hq₀, rfl⟩ := List.mem_map.mp (hends ▸ hq)
    have hlt := hfresh q₀ hq₀
    split_ifs <;> exact hlt
  · -- what is still open was not the link given up
    intro q hq hopen
    obtain ⟨q₀, hq₀, rfl⟩ := List.mem_map.mp (hends ▸ hq)
    split_ifs at hopen ⊢ with hold
    rcases hlive q₀ hq₀ hopen with hmem | hmem
    · exact mem_links_set hj hmem hold
    · exact hmem

/-- **A step keeps the invariant.** -/
theorem Inv.step {e : LinksEv} (h : s.Inv) (hs : s.step e = some s') : s'.Inv := by
  cases e with
  | owner e =>
      unfold Links.step at hs
      dsimp only at hs
      split_ifs at hs with he
      obtain ⟨p, hp, rfl⟩ := Option.map_eq_some_iff.mp hs
      have hsub := Producer.ends_of_step (Bool.eq_false_of_not_eq_true he) hp
      exact ⟨h.nodup.sublist (hsub.map _), fun q hq => h.fresh q (hsub.subset hq),
        fun q hq => h.live q (hsub.subset hq)⟩
  | start =>
      cases hs
      refine ⟨h.nodup, h.fresh, fun q hq hopen => ?_⟩
      show q.1 ∈ (s.consumers ++ [Consumer.running none]).filterMap Consumer.sock
      rw [List.filterMap_append]
      exact List.mem_append_left _ (h.live q hq hopen)
  | connect j capacity =>
      unfold Links.step at hs
      dsimp only at hs
      split at hs
      · rename_i old hj
        obtain ⟨p, hp, rfl⟩ := Option.map_eq_some_iff.mp hs
        obtain rfl := Option.some.inj hp
        -- the new connection is the last end, under a fresh name
        have hends : (s.producer.setServer { s.producer.pub.server with
            backlog := s.producer.pub.server.backlog ++
              [.ok ⟨s.nextConn, [], 0, capacity, true⟩] }).pub.server.ends =
            s.producer.pub.server.ends ++ [(s.nextConn, true)] := by
          unfold Producer.setServer SidecarServer.ends
          dsimp only
          rw [List.filterMap_append, ← List.append_assoc, List.map_append]
          rfl
        apply Inv.closePeer
        · rw [hends, List.map_append]
          refine h.nodup.append (List.nodup_singleton _) fun id hid hnext => ?_
          obtain ⟨q, hq, rfl⟩ := List.mem_map.mp hid
          exact absurd (List.mem_singleton.mp hnext) (h.fresh q hq).ne
        · rw [hends]
          intro q hq
          rcases List.mem_append.mp hq with hq | hq
          · exact (h.fresh q hq).trans (Nat.lt_succ_self _)
          · rw [List.mem_singleton.mp hq]
            exact Nat.lt_succ_self _
        · exact hj
        · rw [hends]
          intro q hq hopen
          rcases List.mem_append.mp hq with hq | hq
          · exact .inl (h.live q hq hopen)
          · -- the new link
            rw [List.mem_singleton.mp hq]
            obtain ⟨hlt, -⟩ := List.getElem?_eq_some_iff.mp hj
            exact .inr (List.mem_filterMap.mpr ⟨_, List.mem_set hlt _, rfl⟩)
      · cases hs
  | exit j =>
      unfold Links.step at hs
      dsimp only at hs
      split at hs
      · rename_i sock hj
        cases hs
        exact .closePeer h.nodup h.fresh hj fun q hq hopen => .inl (h.live q hq hopen)
      · cases hs

/-! ## Broadcasts -/

/-- **What a broadcast does**: the message goes to the clients in turn, and then connections are accepted. -/
theorem broadcast_cases {e : LinksEv} {m : Message} (hm : s.broadcast e = some m)
    (hs : s.step e = some s') : ∃ (sent : ℕ × List Conn) (srv : SidecarServer)
      (r : ℤ × SidecarServer), SidecarServer.sendAll m s.producer.pub.server.clients = some sent ∧ srv.clients = sent.2 ∧
      srv.acceptAndHandshake = some r ∧ s'.producer.pub.server = r.2 := by
  unfold broadcast at hm
  split at hm
  · rename_i now d syncFd
    dsimp only at hm
    split_ifs at hm with hsends
    obtain rfl := Option.some.inj hm
    obtain ⟨p, hp, rfl⟩ := Option.map_eq_some_iff.mp hs
    obtain ⟨⟨res, pub⟩, hr, rfl⟩ := Option.map_eq_some_iff.mp hp
    obtain ⟨err, hcheck, -⟩ | ⟨-, -, p₁, r, hsend, hacc, rfl⟩ := TensorPublisher.publish_cases hr
    · -- a frame that is refused sends nothing
      cases hsends.1.symm.trans hcheck
    · obtain ⟨hclients, -⟩ :=
        (p₁.writeMeta (s.producer.pub.stamp s.producer.pool now d)).cachePool_conns s.producer.pool false
      obtain ⟨clients, rfl, ⟨-, hnone | hkind⟩ | ⟨fd, n, hfd, -, hall⟩⟩ :=
        TensorPublisher.sendFence_spec hsend
      · cases hnone
      · exact absurd hsends.2 hkind
      · obtain rfl := Option.some.inj hfd
        exact ⟨_, _, r, hall, hclients, hacc, rfl⟩
  · obtain rfl := Option.some.inj hm
    obtain ⟨p, hp, rfl⟩ := Option.map_eq_some_iff.mp hs
    obtain ⟨⟨k, r⟩, hr, rfl⟩ := Option.map_eq_some_iff.mp hp
    obtain ⟨rb, ra, hsent, hacc, rfl⟩ := TensorPublisher.reannounce_cases hr
    -- caching the new bundle leaves the clients as they are
    have hclients : (s.producer.pub.remapped s.producer.pool s.producer.sys).server.clients =
        s.producer.pub.server.clients :=
      ((s.producer.pub.mapViews s.producer.pool s.producer.sys).1.cachePool_conns s.producer.pool true).1
    rw [hclients] at hsent
    exact ⟨rb, _, ra, hsent, rfl, hacc, rfl⟩
  · cases hm

/-- Every client is still in the list after a broadcast. -/
theorem kept_of_broadcast {e : LinksEv} {m : Message} (hm : s.broadcast e = some m)
    (hs : s.step e = some s') : ∃ kept new, s'.producer.pub.server.clients = kept ++ new ∧
      kept.map Conn.farEnd = s.producer.pub.server.clients.map Conn.farEnd ∧
      ∀ c ∈ new, c.peerOpen = true := by
  obtain ⟨sent, srv, r, hsent, hclients, hacc, hserver⟩ := broadcast_cases hm hs
  obtain ⟨new, hnew, hopen⟩ := SidecarServer.clients_acceptLoop hacc
  refine ⟨sent.2, new, ?_, SidecarServer.farEnds_of_delivered (SidecarServer.forall₂_sendAll hsent), hopen⟩
  rw [hserver, hnew, hclients]

/-- There are no more clients than live consumers when each is the link of one. -/
theorem Inv.count_le (h : s.Inv) (hlive : ∀ c ∈ s.producer.pub.server.clients, c.id ∈ s.links) :
    s.connectedCount ≤ s.liveConsumers := by
  -- a link is in the list once, so the clients are no more than the links
  have hnodup : (s.producer.pub.server.clients.map Conn.id).Nodup := by
    have hids : s.producer.pub.server.ends.map Prod.fst = (s.producer.pub.server.clients ++
        s.producer.pub.server.backlog.filterMap Except.toOption).map Conn.id := List.map_map
    have hall := h.nodup
    rw [hids, List.map_append] at hall
    exact hall.of_append_left
  -- every client is the link of a consumer
  have hsub : s.producer.pub.server.clients.map Conn.id ⊆ s.links := by
    intro id hid
    obtain ⟨c, hc, rfl⟩ := List.mem_map.mp hid
    exact hlive c hc
  calc s.connectedCount
      = (s.producer.pub.server.clients.map Conn.id).length := (List.length_map _).symm
    _ ≤ s.links.length := (List.subperm_of_subset hnodup hsub).length_le
    _ = s.consumers.countP fun c => c.sock.isSome := List.length_filterMap_eq_countP
    _ ≤ s.liveConsumers := List.countP_mono_left fun c _ hc => by
        cases c with
        | running => rfl
        | exited => cases hc

/-- **A broadcast leaves no dead consumers exactly when it reaches them all.** -/
theorem clean_iff {e : LinksEv} {m : Message} (h : s.Inv) (hm : s.broadcast e = some m)
    (hs : s.step e = some s') : Clean m s s' ↔ ∀ c ∈ s.producer.pub.server.clients,
      c.peerOpen = true ∧ m.files.length ≤ kMaxSidecarFds := by
  obtain ⟨kept, new, hclients, hkept, hnew⟩ := kept_of_broadcast hm hs
  constructor
  · intro hclean c hc
    -- the connection is still in the list, so the send did not fail
    have hmem : c.id ∈ s'.producer.pub.server.clients.map Conn.id := by
      obtain ⟨c', hc', hfar⟩ := List.mem_map.mp (hkept ▸ List.mem_map_of_mem (f := Conn.farEnd) hc)
      refine List.mem_map.mpr ⟨c', ?_, congrArg Prod.fst hfar⟩
      rw [hclients]
      exact List.mem_append_left _ hc'
    obtain ⟨sent, srv, r, hsent, -⟩ := broadcast_cases hm hs
    have hreturns := SidecarServer.sendAll_isSome.mp (Option.isSome_of_eq_some hsent) c hc
    have hnofail := fun err herr => hclean.failed c hc err herr hmem
    unfold sendFds at hreturns hnofail
    split_ifs at hreturns hnofail with hfds hopen hroom
    · exact absurd rfl (hnofail .EINVAL)
    · exact absurd rfl (hnofail .EPIPE)
    · exact ⟨Bool.of_not_eq_false hopen, not_lt.mp hfds⟩
    · cases hreturns
  · intro hreach
    have hopen : ∀ c ∈ s'.producer.pub.server.clients, c.peerOpen = true := by
      intro c hc
      rw [hclients] at hc
      rcases List.mem_append.mp hc with hc | hc
      · obtain ⟨c', hc', hfar⟩ := List.mem_map.mp (hkept ▸ List.mem_map_of_mem (f := Conn.farEnd) hc)
        exact (congrArg Prod.snd hfar).symm.trans (hreach c' hc').1
      · exact hnew c hc
    have hinv : s'.Inv := h.step hs
    have hlive : ∀ c ∈ s'.producer.pub.server.clients, c.id ∈ s'.links := fun c hc =>
      hinv.live _ (SidecarServer.mem_ends_of_client hc) (hopen c hc)
    refine ⟨fun c hc err herr => ?_, hlive, hinv.count_le hlive⟩
    obtain ⟨hpeer, hfds⟩ := hreach c hc
    unfold sendFds at herr
    split_ifs at herr with hfds'
    · exact absurd hfds' (not_lt.mpr hfds)
    · rename_i hclosed
      cases hpeer.symm.trans hclosed
    · cases herr

end Links

/-- **When the server keeps only live consumers**: in every run, no dead consumers are kept after any of the
broadcasts exactly when every broadcast found each connection in its list open at the far end and had no more
FDs than a message may carry. -/
theorem broadcasts_clean_iff {s₀ s : Links} {tr : List LinksEv} (h₀ : linksMachine.init s₀)
    (hexec : linksMachine.exec s₀ tr = some s) :
    linksMachine.Meets Links.KeepsLive s₀ tr ↔ linksMachine.Meets Links.Reaches s₀ tr := by
  refine Machine.meets_iff hexec (P := Links.Inv) (.of_init h₀) (fun _ _ _ h hs => h.step hs) ?_
  intro s e s' hinv hs
  constructor
  · intro hkeeps m hm
    exact (Links.clean_iff hinv hm hs).mp (hkeeps m hm s' hs)
  · intro hreaches m hm s₁ hs₁
    exact (Links.clean_iff hinv hm hs₁).mpr (hreaches m hm)

/-- A frame whose fence goes to every client. -/
def fencedFrame : LinksEv := .owner (.publish 0 (.bytesFrame 16 .SyncFileViaSidecar) (some ⟨9, ⟨9, 0⟩⟩))

/-- One consumer, which connects three times. -/
def reconnects : List LinksEv :=
  [.start, .connect 0 4096, .owner .handshake, .connect 0 4096, .owner .handshake, .connect 0 4096,
    .owner .handshake]

/-- After the broadcast the server holds three sockets for one live consumer: on two of them the send has
failed. -/
theorem dead_links_kept : ∃ (s s' : Links) (m : Message), linksMachine.Run reconnects s ∧
    s.broadcast fencedFrame = some m ∧ s.step fencedFrame = some s' ∧
    (∃ c ∈ s.producer.pub.server.clients, sendFds c m = some (.error .EPIPE) ∧
      c.id ∈ s'.producer.pub.server.clients.map Conn.id) ∧
    s'.connectedCount = 3 ∧ s'.liveConsumers = 1 := by
  have hcreate : ∃ p, Producer.create ⟨false, false⟩ (.oneBuffer 4096) .obliging = some p := ⟨_, rfl⟩
  obtain ⟨p, hcreate⟩ := hcreate
  -- the first send fails, and all three clients are kept though one consumer is alive
  have hexec : ((linksMachine.exec ⟨p, [], 0⟩ reconnects).bind fun s =>
      (s.broadcast fencedFrame).bind fun m => (s.step fencedFrame).map fun s' =>
        ((s.producer.pub.server.clients.head?).map fun c =>
            (sendFds c m, decide (c.id ∈ s'.producer.pub.server.clients.map Conn.id)),
          s'.connectedCount, s'.liveConsumers)) =
      some (some (some (.error .EPIPE), true), 3, 1) := by
    cases hcreate
    decide +kernel
  obtain ⟨s, hs, hres⟩ := Option.bind_eq_some_iff.mp hexec
  obtain ⟨m, hm, hres⟩ := Option.bind_eq_some_iff.mp hres
  obtain ⟨s', hs', hres⟩ := Option.map_eq_some_iff.mp hres
  simp only [Prod.mk.injEq] at hres
  obtain ⟨hhead, hcount, hlive⟩ := hres
  obtain ⟨c, hc, hfailed⟩ := Option.map_eq_some_iff.mp hhead
  obtain ⟨hsend, hkept⟩ := Prod.mk.inj hfailed
  exact ⟨s, s', m, .of_exec ⟨⟨_, _, _, hcreate⟩, rfl, rfl⟩ hs, hm, hs',
    ⟨c, List.mem_of_mem_head? hc, hsend, of_decide_eq_true hkept⟩, hcount, hlive⟩

/-- A fence is broadcast to two live consumers. -/
theorem broadcasts_clean_iff_two_live : ∃ s₀ s : Links,
    linksMachine.exec s₀ [.start, .start, .connect 0 4096, .connect 1 4096, .owner .handshake, fencedFrame] =
      some s ∧ s.connectedCount = 2 ∧
    linksMachine.Meets Links.KeepsLive s₀
      [.start, .start, .connect 0 4096, .connect 1 4096, .owner .handshake, fencedFrame] := by
  have hcreate : ∃ p, Producer.create ⟨false, false⟩ (.oneBuffer 4096) .obliging = some p := ⟨_, rfl⟩
  obtain ⟨p, hcreate⟩ := hcreate
  have hexec : (linksMachine.exec ⟨p, [], 0⟩ [.start, .start, .connect 0 4096, .connect 1 4096,
      .owner .handshake, fencedFrame]).map Links.connectedCount = some 2 := by
    cases hcreate
    decide +kernel
  -- both consumers are connected when the frame is broadcast
  have hreaches : linksMachine.Meets Links.Reaches ⟨p, [], 0⟩ [.start, .start, .connect 0 4096,
      .connect 1 4096, .owner .handshake, fencedFrame] := by
    cases hcreate
    decide +kernel
  obtain ⟨s, hs, hcount⟩ := Option.map_eq_some_iff.mp hexec
  exact ⟨_, s, hs, hcount, (broadcasts_clean_iff ⟨⟨_, _, _, hcreate⟩, rfl, rfl⟩ hs).mpr hreaches⟩

end Axon
