import Axon.PoolHandover
import Axon.ProducerBlocking

/-! # Consumers that connect late

`accept_and_handshake` goes through the pending connections and gives up at the first that it cannot serve.
`late_joiners_served_iff` says for which queues every live consumer is served all the same. -/

namespace Axon

open Foundation

/-- A pending connection whose consumer has not closed it. -/
def IsLive : Except Errno Conn → Prop
  | .ok c => c.peerOpen = true
  | .error _ => False

/-- **Nothing dead stands before a live connection** in the queue. -/
def LiveFirst (pending : List (Except Errno Conn)) : Prop :=
  pending.Pairwise fun ahead behind => IsLive behind → IsLive ahead

/-- Whether a connection is alive can be read off it. -/
instance (x : Except Errno Conn) : Decidable (IsLive x) :=
  match x with
  | .ok c => inferInstanceAs (Decidable (c.peerOpen = true))
  | .error _ => inferInstanceAs (Decidable False)

/-- Whether the live connections come first can be read off the list. -/
instance (pending : List (Except Errno Conn)) : Decidable (LiveFirst pending) :=
  inferInstanceAs (Decidable (pending.Pairwise _))

/-- Behind a dead connection there is nothing live. -/
theorem liveFirst_cons_dead {x : Except Errno Conn} (hx : ¬ IsLive x) {rest : List (Except Errno Conn)} :
    LiveFirst (x :: rest) ↔ ∀ y ∈ rest, ¬ IsLive y := by
  unfold LiveFirst
  rw [List.pairwise_cons]
  constructor
  · intro h y hy hlive
    exact hx (h.1 y hy hlive)
  · intro h
    refine ⟨fun y hy hlive => absurd hlive (h y hy), ?_⟩
    exact List.pairwise_of_forall_mem_list fun a _ b hb hlive => absurd hlive (h b hb)

/-- Behind a live connection nothing changes. -/
theorem liveFirst_cons_live {x : Except Errno Conn} (hx : IsLive x) {rest : List (Except Errno Conn)} :
    LiveFirst (x :: rest) ↔ LiveFirst rest := by
  unfold LiveFirst
  rw [List.pairwise_cons]
  exact and_iff_right fun _ _ _ => hx

namespace SidecarServer

/-- The server once it has sent the bundle on a connection and registered it. -/
def serve (s : SidecarServer) (c : Conn) : SidecarServer :=
  { s with clients := s.clients ++ [{ c with sent := c.sent ++ [s.bundle] }] }

/-- A live connection is sent the bundle and registered, and the loop goes on. -/
theorem acceptLoop_live {s : SidecarServer} {k : ℕ} {c : Conn} {rest : List (Except Errno Conn)}
    {r : ℤ × SidecarServer} (hfds : s.bundle.files.length ≤ kMaxSidecarFds) (hopen : c.peerOpen = true)
    (h : s.acceptLoop k (.ok c :: rest) = some r) : (s.serve c).acceptLoop (k + 1) rest = some r := by
  have hsend : s.sendPoolTo c = if c.HasRoom s.bundle.size then
      some (.ok { c with sent := c.sent ++ [s.bundle] }) else none := by
    rw [sendPoolTo, sendFds, if_neg (not_lt.mpr hfds), if_neg (by simp [hopen])]
  rw [acceptLoop, hsend] at h
  split_ifs at h
  exact h

/-- A dead connection, or a failing accept, ends the loop with the rest still pending. -/
theorem acceptLoop_dead {s : SidecarServer} {k : ℕ} {x : Except Errno Conn} {rest : List (Except Errno Conn)}
    {r : ℤ × SidecarServer} (hfds : s.bundle.files.length ≤ kMaxSidecarFds) (hx : ¬ IsLive x)
    (h : s.acceptLoop k (x :: rest) = some r) : r.2.backlog = rest := by
  cases x with
  | error e =>
      cases h
      rfl
  | ok c =>
      have hclosed : c.peerOpen = false := Bool.eq_false_of_not_eq_true hx
      rw [acceptLoop, sendPoolTo, sendFds, if_neg (not_lt.mpr hfds), if_pos hclosed] at h
      cases h
      rfl

/-- **When the accept loop leaves no live connection pending.** -/
theorem acceptLoop_drains_iff {s : SidecarServer} {k : ℕ} {pending : List (Except Errno Conn)}
    {r : ℤ × SidecarServer} (hfds : s.bundle.files.length ≤ kMaxSidecarFds)
    (h : s.acceptLoop k pending = some r) : (∀ x ∈ r.2.backlog, ¬ IsLive x) ↔ LiveFirst pending := by
  induction pending generalizing s k with
  | nil =>
      cases h
      exact iff_of_true (fun x hx => absurd hx List.not_mem_nil) .nil
  | cons x rest ih =>
      by_cases hx : IsLive x
      · rw [liveFirst_cons_live hx]
        cases x with
        | error e => exact hx.elim
        | ok c => exact ih (s := s.serve c) hfds (acceptLoop_live hfds hx h)
      · rw [liveFirst_cons_dead hx, acceptLoop_dead hfds hx h]

/-- Where nothing dead stands before a live connection, each live one is sent the bundle and registered. -/
theorem acceptLoop_serves {s : SidecarServer} {k : ℕ} {pending : List (Except Errno Conn)}
    {r : ℤ × SidecarServer} (hfds : s.bundle.files.length ≤ kMaxSidecarFds) (hfirst : LiveFirst pending)
    (h : s.acceptLoop k pending = some r) {c : Conn} (hc : .ok c ∈ pending) (hopen : c.peerOpen = true) :
    { c with sent := c.sent ++ [s.bundle] } ∈ r.2.clients := by
  induction pending generalizing s k with
  | nil => exact absurd hc List.not_mem_nil
  | cons x rest ih =>
      by_cases hx : IsLive x
      · cases x with
        | error e => exact hx.elim
        | ok c₀ =>
            have hrest := acceptLoop_live hfds hx h
            rcases List.mem_cons.mp hc with heq | hc
            · -- the one just registered stays registered
              cases heq
              obtain ⟨new, hnew, -⟩ := clients_acceptLoop hrest
              rw [hnew]
              exact List.mem_append_left _ (List.mem_append_right _ (List.mem_singleton_self _))
            · exact ih (s := s.serve c₀) hfds ((liveFirst_cons_live hx).mp hfirst) hrest hc
      · have hnone := (liveFirst_cons_dead hx).mp hfirst
        rcases List.mem_cons.mp hc with heq | hc
        · exact absurd (heq ▸ hopen) hx
        · exact absurd hopen (hnone _ hc)

/-- Where every live connection has room for the bundle, the accept loop returns. -/
theorem pendingFit_of_room {files size : ℕ} {pending : List (Except Errno Conn)}
    (hroom : ∀ c, .ok c ∈ pending → c.peerOpen = true → c.HasRoom size) : PendingFit files size pending := by
  induction pending with
  | nil => trivial
  | cons x rest ih =>
      cases x with
      | error e => trivial
      | ok c =>
          cases hopen : c.peerOpen with
          | false => exact .inr (.inl hopen)
          | true =>
              have hrest := ih fun c' hc' => hroom c' (List.mem_cons_of_mem _ hc')
              exact .inr (.inr ⟨hroom c List.mem_cons_self hopen, hrest⟩)

end SidecarServer

namespace Producer

/-- **Every live late joiner is served**: it has been sent the bundle of the pool under generation `gen`, with
all FDs and import parameters, it is registered, and none is left pending. -/
def Serves (s : Producer) (gen : PoolGeneration) (server : SidecarServer) : Prop :=
  (∀ c, .ok c ∈ s.pub.server.backlog → c.peerOpen = true →
    ∃ header, header.poolGeneration = .ofNat gen ∧
      { c with sent := c.sent ++ [.pool header (s.pool.dmaBufFds.map (·.file)) s.pool.importParams] } ∈
        server.clients) ∧
  ∀ x ∈ server.backlog, ¬ IsLive x

/-- The accept loop, run with the bundle of the pool. -/
theorem serves_iff {s : Producer} {srv : SidecarServer}
    (hcaches : (TensorPublisher.bundleOf s.pub.bufferSize s.pool).SameBundle srv)
    (hbacklog : srv.backlog = s.pub.server.backlog) (hpool : s.pool.Carriable) {r : ℤ × SidecarServer}
    (h : srv.acceptAndHandshake = some r) :
    s.Serves s.pool.generation r.2 ↔ LiveFirst s.pub.server.backlog := by
  obtain ⟨hfds₀, hgen₀, -, hext₀⟩ := TensorPublisher.bundleOf_spec s.pub.bufferSize s.pool hpool.2
  have hfds : srv.poolFds = s.pool.dmaBufFds := hcaches.poolFds.trans hfds₀
  have hext : srv.ext = s.pool.importParams := hcaches.ext.trans hext₀
  have hgen : srv.header.poolGeneration = .ofNat s.pool.generation := by rw [hcaches.header, hgen₀]
  -- the server's bundle is that of the pool, with as many files as one message carries
  have hbundle : srv.bundle = .pool srv.header (s.pool.dmaBufFds.map (·.file)) s.pool.importParams := by
    rw [SidecarServer.bundle, hfds, hext]
  have hfiles : srv.bundle.files.length ≤ kMaxSidecarFds := by
    rw [hbundle]
    simpa [Message.files] using hpool.1
  rw [Serves, ← hbacklog, ← SidecarServer.acceptLoop_drains_iff hfiles h]
  -- once the backlog is drained, every consumer in it has been served
  refine and_iff_right_of_imp fun hdrained c hc hopen => ⟨srv.header, hgen, ?_⟩
  have hfirst := (SidecarServer.acceptLoop_drains_iff hfiles h).mp hdrained
  have hserved := SidecarServer.acceptLoop_serves hfiles hfirst h hc hopen
  rwa [hbundle] at hserved

/-- A live consumer has room for the pool's bundle. -/
def RoomForBundle (s : Producer) : Prop :=
  ∀ c, .ok c ∈ s.pub.server.backlog → c.peerOpen = true → c.HasRoom (s.pub.nextBundle s.pool).size

/-- When `handshake_pool` serves the live consumers. -/
theorem handshake_serves_iff {s : Producer} (hcurrent : s.pub.CacheCurrent s.pool) (hpool : s.pool.Carriable)
    (hroom : s.RoomForBundle) :
    (∃ r, s.pub.handshakePool s.pool = some r ∧ s.Serves s.pool.generation r.2.server) ↔
      LiveFirst s.pub.server.backlog := by
  have hcaches := transmitter_caches (e := .handshake) hcurrent rfl
  have hbacklog := (s.pub.cachePool_conns s.pool false).2
  -- the bundle finds room, so no send blocks
  have hreturns : (s.pub.handshakePool s.pool).isSome = true := by
    rw [TensorPublisher.handshakePool, Option.isSome_map, SidecarServer.acceptAndHandshake,
      SidecarServer.acceptLoop_isSome, hbacklog]
    exact SidecarServer.pendingFit_of_room hroom
  obtain ⟨r, hr⟩ := Option.isSome_iff_exists.mp hreturns
  obtain ⟨r', hacc, hr'⟩ := Option.map_eq_some_iff.mp hr
  rw [← serves_iff hcaches hbacklog hpool hacc]
  -- the one result there is serves or does not
  constructor
  · rintro ⟨r₁, hr₁, hserves⟩
    obtain rfl := Option.some.inj (hr.symm.trans hr₁)
    rwa [← hr'] at hserves
  · intro hserves
    exact ⟨r, hr, by rwa [← hr']⟩

/-- When a `publish` that accepts its frame serves them. -/
theorem publish_serves_iff {s : Producer} (hcurrent : s.pub.CacheCurrent s.pool) (hpool : s.pool.Carriable)
    (hroom : s.RoomForBundle) {now : UInt64} {d : AcquiredDescriptor} {syncFd : Option Fd}
    (hcheck : s.pub.check d = none) (hfence : s.pub.FenceFits d syncFd) :
    (∃ p', s.pub.publish s.pool now d syncFd = some (.ok (), p') ∧
      s.Serves (s.pub.stamp s.pool now d).poolGeneration p'.server) ↔ LiveFirst s.pub.server.backlog := by
  have hreturns : (s.pub.publish s.pool now d syncFd).isSome = true :=
    TensorPublisher.publish_isSome.mpr (.inr ⟨hfence, SidecarServer.pendingFit_of_room hroom⟩)
  obtain ⟨⟨res, p'⟩, hr⟩ := Option.isSome_iff_exists.mp hreturns
  -- the frame is not refused
  obtain ⟨e, he, -, -⟩ | ⟨-, rfl, p₁, r, hsend, hacc, rfl⟩ := TensorPublisher.publish_cases hr
  · rw [hcheck] at he
    cases he
  -- the server that accepts has cached the current bundle
  have hcaches : (TensorPublisher.bundleOf s.pub.bufferSize s.pool).SameBundle
      (p₁.afterPublish s.pool (s.pub.stamp s.pool now d)).server := by
    refine transmitter_caches (e := .publish now d syncFd) hcurrent ?_
    unfold transmitter
    dsimp only
    rw [hcheck, hsend]
    rfl
  have hbacklog := afterPublish_backlog hsend s.pool (s.pub.stamp s.pool now d)
  rw [← serves_iff hcaches hbacklog hpool hacc]
  constructor
  · rintro ⟨p', hp', hserves⟩
    cases hr.symm.trans hp'
    exact hserves
  · intro hserves
    exact ⟨_, hr, hserves⟩

end Producer

/-- **When live late joiners are served**, with a pool that a handshake can carry, whatever has happened before:
`handshake_pool`, and every `publish` that accepts its frame and has not to wait for a fence to be read, sends
every live pending consumer the bundle of the generation it stamps, registers it and leaves none pending,
exactly when nothing dead stands before a live connection in the queue. -/
theorem late_joiners_served_iff {pool : TensorPool} {sys sys' : Sys} {pub : TensorPublisher}
    (hcreate : TensorPublisher.create pool sys = (.ok pub, sys')) {tr : List ProducerEv} {s : Producer}
    (hexec : producerMachine.exec ⟨sys', pool, pub⟩ tr = some s) (hpool : s.pool.Carriable)
    (hroom : s.RoomForBundle) :
    ((∃ r, s.pub.handshakePool s.pool = some r ∧ s.Serves s.pool.generation r.2.server) ↔
      LiveFirst s.pub.server.backlog) ∧
    ∀ now d syncFd, s.pub.check d = none → s.pub.FenceFits d syncFd →
      ((∃ p', s.pub.publish s.pool now d syncFd = some (.ok (), p') ∧
        s.Serves (s.pub.stamp s.pool now d).poolGeneration p'.server) ↔ LiveFirst s.pub.server.backlog) := by
  have hcurrent := Producer.cacheCurrent_of_exec hcreate hexec
  refine ⟨Producer.handshake_serves_iff hcurrent hpool hroom, ?_⟩
  intro now d syncFd hcheck hfence
  exact Producer.publish_serves_iff hcurrent hpool hroom hcheck hfence

/-- Two live consumers and, behind them, one that has gone: `publish` serves both. -/
theorem late_joiners_served_two : ∃ (s : Producer) (p' : TensorPublisher),
    s.pub.publish s.pool 7 (.bytesFrame 16 .None) none = some (.ok (), p') ∧ s.Serves 1 p'.server ∧
    p'.server.clients.map (·.id) = [0, 1] := by
  obtain ⟨s₀, hs₀⟩ : ∃ s, Producer.create ⟨false, false⟩ (.memfds 3 4096) .obliging = some s := ⟨_, rfl⟩
  obtain ⟨sys₁, -, hpub⟩ := Producer.create_parts hs₀
  -- two consumers wait, and a third has hung up behind them
  obtain ⟨s, hs⟩ : ∃ s, producerMachine.exec s₀
      [.connect 0 4096 true, .connect 1 4096 true, .connect 2 4096 false] = some s := by
    cases hs₀
    exact ⟨_, rfl⟩
  have hcarriable : s.pool.Carriable := by
    cases hs₀
    cases hs
    exact ⟨by decide, by decide⟩
  have hbacklog : s.pub.server.backlog =
      [.ok ⟨0, [], 0, 4096, true⟩, .ok ⟨1, [], 0, 4096, true⟩, .ok ⟨2, [], 0, 4096, false⟩] := by
    cases hs₀
    cases hs
    rfl
  -- the bundle is no more than its header
  have hroom : s.RoomForBundle := by
    intro c hc _
    rw [hbacklog] at hc
    have hsize : (s.pub.nextBundle s.pool).size = 24 := by
      cases hs₀
      cases hs
      rfl
    rw [hsize]
    simp only [List.mem_cons, Except.ok.injEq, List.not_mem_nil, or_false] at hc
    rcases hc with rfl | rfl | rfl <;> decide
  obtain ⟨p', hp', hserves⟩ := ((late_joiners_served_iff hpub hs hcarriable hroom).2 7
    (.bytesFrame 16 .None) none (by cases hs₀; cases hs; rfl) (fun h => absurd rfl h)).mpr
      (by rw [hbacklog]; decide)
  refine ⟨s, p', hp', ?_, ?_⟩
  · cases hs₀
    cases hs
    exact hserves
  · cases hs₀
    cases hs
    cases hp'
    rfl

/-- **One dead consumer delays the others**: of two pending consumers the first has gone, and `publish`, which
returns 0, leaves the second pending without the bundle. -/
theorem dead_consumer_delays : ∃ (s : Producer) (p' : TensorPublisher),
    s.pool.Carriable ∧ s.RoomForBundle ∧
    s.pub.server.backlog = [.ok ⟨0, [], 0, 4096, false⟩, .ok ⟨1, [], 0, 4096, true⟩] ∧
    s.pub.publish s.pool 7 (.bytesFrame 16 .None) none = some (.ok (), p') ∧
    p'.server.clients = [] ∧ p'.server.backlog = [.ok ⟨1, [], 0, 4096, true⟩] ∧
    ¬ s.Serves (s.pub.stamp s.pool 7 (.bytesFrame 16 .None)).poolGeneration p'.server := by
  obtain ⟨s₀, hs₀⟩ : ∃ s, Producer.create ⟨false, false⟩ (.memfds 3 4096) .obliging = some s := ⟨_, rfl⟩
  obtain ⟨s, hs⟩ : ∃ s, producerMachine.exec s₀ [.connect 0 4096 false, .connect 1 4096 true] = some s := by
    cases hs₀
    exact ⟨_, rfl⟩
  obtain ⟨p', hp'⟩ : ∃ p', s.pub.publish s.pool 7 (.bytesFrame 16 .None) none = some (.ok (), p') := by
    cases hs₀
    cases hs
    exact ⟨_, rfl⟩
  have hbacklog : s.pub.server.backlog = [.ok ⟨0, [], 0, 4096, false⟩, .ok ⟨1, [], 0, 4096, true⟩] := by
    cases hs₀
    cases hs
    rfl
  -- the loop ended at the closed connection, with the live one still waiting
  have hleft : p'.server.backlog = [.ok ⟨1, [], 0, 4096, true⟩] := by
    cases hs₀
    cases hs
    cases hp'
    rfl
  refine ⟨s, p', ?_, ?_, hbacklog, hp', ?_, hleft, fun h => ?_⟩
  · cases hs₀
    cases hs
    exact ⟨by decide, by decide⟩
  · intro c hc _
    rw [hbacklog] at hc
    have hsize : (s.pub.nextBundle s.pool).size = 24 := by
      cases hs₀
      cases hs
      rfl
    rw [hsize]
    simp only [List.mem_cons, Except.ok.injEq, List.not_mem_nil, or_false] at hc
    rcases hc with rfl | rfl <;> decide
  · cases hs₀
    cases hs
    cases hp'
    rfl
  -- the one still waiting is live, so it should have been served
  · have hlive : IsLive (.ok ⟨1, [], 0, 4096, true⟩) := rfl
    refine h.2 _ ?_ hlive
    rw [hleft]
    exact List.mem_singleton_self _

end Axon
