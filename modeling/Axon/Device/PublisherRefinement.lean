import Axon.Device.PoolRefinement
import Axon.Device.PublisherImpl
import Axon.Publisher

/-! # The publisher with its resources refines the publisher of the message level

Beside the pool's FDs, a publisher has mappings, a listening socket and connections. On the message level the answers
of the system decide on the mappings, and the consumers that connect decide on the connections: one that has room for
the bundle where the calls succeed, one that is gone where they fail.

* **`Server.acceptAndHandshake_follows`**: there are consumers for which both levels accept the same number.
* **`publisher_refines`**: `create`, `handshake_pool`, `publish` and `reannounce_pool`, for every pool that is the same
  on both levels. -/

namespace Axon.Device

open Foundation Prog

variable {psz : ℕ} {build : BuildConfig}

/-! ## The sidecar server -/

namespace Server

/-- **What the message level sees of a server**: how many clients it has, and the bundle it caches. -/
structure Shows (psz : ℕ) (s : Server) (s' : SidecarServer) : Prop where
  clients : s.clients.length = s'.clients.length
  poolFds : List.Forall₂ SameFile s.poolFds s'.poolFds
  ext : s'.ext.length = s.ext.length * psz

/-- A new server has no clients and no bundle. -/
theorem create_shows (psz : ℕ) : Returns create fun r => ∀ s, r = some s → s.Shows psz .create := by
  refine (Returns.trivial _).bind fun r _ => ?_
  cases r with
  | none => exact .pure (by simp)
  | some n =>
      refine (Returns.trivial _).bind fun ok _ => .ite (fun _ => .pure fun s hs => ?_) fun _ => ?_
      · obtain rfl := Option.some.inj hs
        exact ⟨rfl, .nil, (Nat.zero_mul _).symm⟩
      · exact (Returns.trivial _).bind fun _ _ => .pure (by simp)

/-- A bundle with too many FDs is never sent. -/
theorem sendPoolTo_returns (s : Server) (client : Fd) :
    Returns (s.sendPoolTo client) fun sent => sent = true → s.poolFds.length ≤ kMaxSidecarFds := by
  refine .ite (fun _ => .pure (by simp)) fun hfit => ?_
  exact fun _ _ => not_lt.mp hfit

/-- **Accepting consumers** on both levels: there are consumers for which the message level's server does the same. -/
theorem acceptAndHandshake_follows (psz pending : ℕ) (s : Server) : Returns (acceptAndHandshake pending s) fun r =>
    ∃ backlog, ∀ (s' : SidecarServer) (accepted : ℕ), s.Shows psz s' → ∃ n s'',
      s'.acceptLoop accepted backlog = some (n, s'') ∧ r.Shows psz s'' := by
  induction pending generalizing s with
  | zero => exact .pure ⟨[], fun s' accepted h => ⟨_, _, rfl, h.clients, h.poolFds, h.ext⟩⟩
  | succ pending ih =>
      refine (Returns.trivial _).bind fun _ _ => (Returns.trivial _).bind fun r _ => ?_
      cases r with
      | none => exact .pure ⟨[.error .other], fun s' accepted h => ⟨_, _, rfl, h.clients, h.poolFds, h.ext⟩⟩
      | some n =>
          refine (sendPoolTo_returns s (newFd n 0)).bind fun sent hsent => .ite (fun hok => ?_) fun _ => ?_
          · -- a consumer with room for the bundle
            refine (ih _).mono fun r hr => ?_
            obtain ⟨backlog, hr⟩ := hr
            let size := PoolHandshakeHeader.size + s.ext.length * psz
            refine ⟨.ok ⟨n, [], 0, size, true⟩ :: backlog, fun s' accepted h => ?_⟩
            have hfit : ¬ kMaxSidecarFds < s'.bundle.files.length := by
              show ¬ kMaxSidecarFds < (s'.poolFds.map _).length
              rw [List.length_map, ← h.poolFds.length_eq]
              exact not_lt.mpr (hsent hok)
            have hsize : s'.bundle.size = size := congrArg (PoolHandshakeHeader.size + ·) h.ext
            have hroom : Conn.HasRoom ⟨n, [], 0, size, true⟩ s'.bundle.size := (Nat.zero_add _).trans_le hsize.le
            have hsend : s'.sendPoolTo ⟨n, [], 0, size, true⟩ = some (.ok ⟨n, [s'.bundle], 0, size, true⟩) := by
              unfold SidecarServer.sendPoolTo sendFds
              rw [if_neg hfit, if_neg (by simp), if_pos hroom]
              rfl
            rw [SidecarServer.acceptLoop, hsend]
            refine hr _ (accepted + 1) ⟨?_, h.poolFds, h.ext⟩
            rw [List.length_append, List.length_append, h.clients]
            rfl
          · -- a consumer that is gone
            refine (Returns.trivial _).bind fun _ _ => .pure
              ⟨[.ok ⟨n, [], 0, 0, false⟩], fun s' accepted h => ?_⟩
            have hsend : ∃ e, s'.sendPoolTo ⟨n, [], 0, 0, false⟩ = some (.error e) := by
              unfold SidecarServer.sendPoolTo sendFds
              by_cases hfds : kMaxSidecarFds < s'.bundle.files.length
              · exact ⟨_, if_pos hfds⟩
              · exact ⟨_, (if_neg hfds).trans (if_pos rfl)⟩
            obtain ⟨e, hsend⟩ := hsend
            rw [SidecarServer.acceptLoop, hsend]
            exact ⟨_, _, rfl, h.clients, h.poolFds, h.ext⟩

/-- **Caching a bundle** on both levels. -/
theorem Shows.setPool {s : Server} {s' : SidecarServer} (h : s.Shows psz s') {fds : List (Option Fd)} {fds' : List Fd}
    (hfds : List.Forall₂ SameFile fds fds') {blob : List ℕ} {ext : List UInt8} (hext : ext.length = blob.length * psz)
    (generation wireVersion : UInt32) (bufferSize : UInt64) (backend : UInt8) :
    Shows psz { s with poolFds := fds, ext := if blob.length * psz ≤ kMaxHandshakeExt then blob else [] }
      (s'.setPool fds' generation bufferSize wireVersion backend ext).2 := by
  unfold SidecarServer.setPool
  dsimp only
  rw [← hext]
  -- a blob is kept only if it is carried, and an empty one is none
  by_cases hcarried : ext.length ≤ kMaxHandshakeExt
  · by_cases hsome : 0 < ext.length
    · rw [if_pos hcarried, if_pos ⟨hsome, hcarried⟩]
      exact ⟨h.clients, hfds, hext⟩
    · rw [if_pos hcarried, if_neg fun hboth => hsome hboth.1]
      refine ⟨h.clients, hfds, ?_⟩
      rw [← hext, Nat.eq_zero_of_not_pos hsome]
      rfl
  · rw [if_neg hcarried, if_neg fun hboth => hcarried hboth.2]
    exact ⟨h.clients, hfds, (Nat.zero_mul _).symm⟩

end Server

/-! ## The publisher -/

namespace PublisherImpl

/-- **What the message level sees of a publisher**. -/
structure Shows (psz : ℕ) (p : PublisherImpl) (q : TensorPublisher) : Prop where
  bufferSize : p.bufferSize = q.bufferSize
  server : p.server.Shows psz q.server
  hostViews : p.hostViews = q.hostViews.map (Option.map Mapping.base)
  cachedGen : p.cachedGen = if q.poolCached = true then some q.cachedGen else none

variable {p : PublisherImpl} {q : TensorPublisher} {pool : PoolImpl} {pool' : TensorPool}

/-- What is on record, and what is queued for a client, is not seen. -/
theorem Shows.withClients (h : p.Shows psz q) {clients : List Conn} (hlen : clients.length = q.server.clients.length)
    (seqno : SeqNo) (published : List TensorDescriptor) : p.Shows psz
      { q with seqno := seqno, published := published, server := { q.server with clients := clients } } :=
  ⟨h.bufferSize, ⟨h.server.clients.trans hlen.symm, h.server.poolFds, h.server.ext⟩, h.hostViews, h.cachedGen⟩

/-- **`cache_pool`** on both levels. -/
theorem Shows.cachePool (h : p.Shows psz q) (hpool : pool.Shows build psz pool') (force : Bool) :
    (p.cachePool psz pool force).Shows psz (q.cachePool pool' force) := by
  have hcached : force = false ∧ p.cachedGen = some pool.gen ↔
      force = false ∧ q.poolCached = true ∧ q.cachedGen = pool'.generation := by
    rw [h.cachedGen, hpool.gen, Option.ite_none_right_eq_some, Option.some.injEq]
    rfl
  unfold PublisherImpl.cachePool TensorPublisher.cachePool
  by_cases hkeep : force = false ∧ p.cachedGen = some pool.gen
  · rw [if_pos hkeep, if_pos (hcached.mp hkeep)]
    exact h
  · rw [if_neg hkeep, if_neg (fun hq => hkeep (hcached.mpr hq))]
    refine ⟨h.bufferSize, ?_, h.hostViews, congrArg some hpool.gen⟩
    exact h.server.setPool hpool.shareFds hpool.importBlob _ _ _ _

/-- **Mapping buffers** on both levels. -/
theorem mapFds_follows (psz : ℕ) (size : UInt64) (fds : List (Option Fd)) : Returns (fds.mapM (mapFd size))
    fun views => ∃ answers, ∀ (fds' : List Fd) (sys : Sys), List.Forall₂ SameFile fds fds' → sys.Offers psz answers →
      views = (TensorPublisher.mapBuffers size fds' sys).1.map (Option.map Mapping.base) := by
  -- on the buffers, with one answer for each
  induction fds with
  | nil =>
      rw [List.mapM_nil]
      refine .pure ⟨[], fun fds' sys hfds _ => ?_⟩
      obtain rfl := List.forall₂_nil_left_iff.mp hfds
      rfl
  | cons fd fds ih =>
      rw [List.mapM_cons]
      refine (Returns.trivial (mapFd size fd)).bind fun view _ => ih.bind fun views hviews => .pure ?_
      obtain ⟨answers, hviews⟩ := hviews
      refine ⟨view.elim (.error .other) .ok :: answers, fun fds' sys hfds hsys => ?_⟩
      obtain ⟨fd', fds', -, hrest, rfl⟩ := List.forall₂_cons_left_iff.mp hfds
      obtain ⟨hask, hsys'⟩ := hsys.ask
      rw [TensorPublisher.mapBuffers, hask]
      dsimp only
      rw [hviews fds' _ hrest hsys']
      cases view with
      | none => rfl
      | some base => rfl

/-- **`map_views`** on both levels. -/
theorem mapViews_follows (hpool : pool.Shows build psz pool') : Returns (p.mapViews pool) fun p' => ∃ answers,
    ∀ (q : TensorPublisher) (sys : Sys), p.Shows psz q → sys.Offers psz answers →
      p'.Shows psz (q.mapViews pool' sys).1 := by
  refine (Returns.trivial _).bind fun _ _ => ?_
  refine (mapFds_follows psz p.bufferSize pool.shareFds).bind fun views hviews => .pure ?_
  obtain ⟨answers, hviews⟩ := hviews
  refine ⟨answers, fun q sys hq hsys => ⟨hq.bufferSize, hq.server, ?_, hq.cachedGen⟩⟩
  exact hq.bufferSize ▸ hviews pool'.dmaBufFds sys hpool.shareFds hsys

/-- The buffer size that a publisher begins with, on both levels. -/
theorem initialBufferSize_follows (hpool : pool.Shows build psz pool') :
    Follows psz (initialBufferSize pool) (TensorPublisher.initialBufferSize pool') Eq := by
  -- the pool has a size: no call is made
  refine .ite (fun hsome => .pure ⟨[], fun sys _ => ?_⟩) fun hnone => ?_
  · rw [hpool.bufferSize] at hsome ⊢
    unfold TensorPublisher.initialBufferSize
    rw [if_pos hsome]
    exact ⟨rfl, .refl sys⟩
  rw [hpool.bufferSize] at hnone
  have hfds := hpool.shareFds
  revert hfds
  -- otherwise the size is that of the first buffer's file
  cases pool.shareFds with
  | nil =>
      refine fun hfds => .pure ⟨[], fun sys _ => ?_⟩
      unfold TensorPublisher.initialBufferSize
      have hempty : pool'.dmaBufFds = [] := List.forall₂_nil_left_iff.mp hfds
      rw [if_neg hnone, if_pos hempty]
      exact ⟨rfl, .refl sys⟩
  | cons fd fds =>
      intro hfds
      have hsome : pool'.dmaBufFds ≠ [] := fun hempty => by
        obtain ⟨fd', fds', -, -, hcons⟩ := List.forall₂_cons_left_iff.mp hfds
        exact List.cons_ne_nil _ _ (hcons.symm.trans hempty)
      refine (Returns.trivial _).bind fun _ _ => (Returns.trivial _).bind fun a _ => .pure
        ⟨[a.elim (.error .other) .ok], fun sys hsys => ?_⟩
      unfold TensorPublisher.initialBufferSize
      rw [if_neg hnone, if_neg hsome, hsys.ask.1]
      cases a with
      | none => exact ⟨rfl, .ask sys⟩
      | some n => exact ⟨rfl, .ask sys⟩

/-- **`create`** on both levels. -/
theorem create_follows (hpool : pool.Shows build psz pool') : Returns (create psz pool) fun r => ∃ answers,
    ∀ sys : Sys, sys.Offers psz answers →
      Option.Rel (Shows psz) r (TensorPublisher.create pool' sys).1.toOption := by
  unfold TensorPublisher.create
  refine (initialBufferSize_follows hpool).bind fun size hsize => ?_
  obtain ⟨answers, hsize⟩ := hsize
  have hblob : pool'.importParams.length = pool.importBlob.length * psz := hpool.importBlob
  refine .ite (fun hzero => .pure ⟨answers, fun sys hsys => ?_⟩) fun hsome => .ite
    (fun hlarge => .pure ⟨answers, fun sys hsys => ?_⟩) fun hcarried => ?_
  · obtain ⟨heq, -⟩ := hsize sys hsys
    dsimp only
    rw [← heq, if_pos hzero]
    exact .none
  · obtain ⟨heq, -⟩ := hsize sys hsys
    dsimp only
    rw [← heq, if_neg hsome, if_pos (hblob ▸ hlarge)]
    exact .none
  -- server and slot are both made, whatever becomes of the first
  refine (Server.create_shows psz).bind fun server hserver => (Returns.trivial _).bind fun metadata _ => ?_
  cases server with
  | none =>
      refine (Returns.trivial _).bind fun _ _ => (Returns.trivial _).bind fun _ _ =>
        .pure ⟨answers ++ [.error .other], fun sys hsys => ?_⟩
      obtain ⟨heq, hafter⟩ := hsize sys hsys.left
      dsimp only
      rw [← heq, if_neg hsome, if_neg (hblob ▸ hcarried), (hsys.right hafter).ask.1]
      exact .none
  | some server =>
      cases metadata with
      | none =>
          refine (Returns.trivial _).bind fun _ _ => (Returns.trivial _).bind fun _ _ =>
            .pure ⟨answers ++ [.ok 0, .error .other], fun sys hsys => ?_⟩
          obtain ⟨heq, hafter⟩ := hsize sys hsys.left
          obtain ⟨hask, hsys'⟩ := (hsys.right hafter).ask
          dsimp only
          rw [← heq, if_neg hsome, if_neg (hblob ▸ hcarried), hask]
          dsimp only
          rw [hsys'.ask.1]
          exact .none
      | some metadata =>
          refine (mapViews_follows hpool).bind fun p' hp' => .pure ?_
          obtain ⟨answers', hp'⟩ := hp'
          refine ⟨answers ++ .ok 0 :: .ok 0 :: answers', fun sys hsys => ?_⟩
          obtain ⟨heq, hafter⟩ := hsize sys hsys.left
          obtain ⟨hask, hsys'⟩ := (hsys.right hafter).ask
          obtain ⟨hask', hsys''⟩ := hsys'.ask
          dsimp only
          rw [← heq, if_neg hsome, if_neg (hblob ▸ hcarried), hask]
          dsimp only
          rw [hask']
          exact .some (hp' _ _ ⟨rfl, hserver server rfl, rfl, rfl⟩ hsys'')

/-- **Picking up consumers** on both levels, once the bundle is cached. -/
theorem accept_follows (hpool : pool.Shows build psz pool') (force : Bool) (pending : ℕ) :
    Returns ((p.cachePool psz pool force).server.acceptAndHandshake pending) fun server => ∃ backlog,
      ∀ (q : TensorPublisher) (s : SidecarServer), p.Shows psz q → s.backlog = backlog →
        (p.cachePool psz pool force).server.Shows psz s → ∃ n s', s.acceptAndHandshake = some (n, s') ∧
          Shows psz { p.cachePool psz pool force with server := server }
            { q.cachePool pool' force with server := s' } := by
  refine (Server.acceptAndHandshake_follows psz pending _).mono fun server hserver => ?_
  obtain ⟨backlog, hserver⟩ := hserver
  refine ⟨backlog, fun q s hq hbacklog hs => ?_⟩
  obtain ⟨n, s', haccept, hshows⟩ := hserver s 0 hs
  have hcached := hq.cachePool hpool force
  exact ⟨n, s', (congrArg (s.acceptLoop 0) hbacklog).trans haccept, hcached.bufferSize, hshows, hcached.hostViews,
    hcached.cachedGen⟩

/-- **`handshake_pool`** on both levels. -/
theorem handshakePool_follows (hpool : pool.Shows build psz pool') (pending : ℕ) :
    Returns (p.handshakePool psz pool pending) fun p' => ∃ backlog, ∀ q : TensorPublisher, p.Shows psz q →
      q.server.backlog = backlog → ∃ n q', q.handshakePool pool' = some (n, q') ∧ p'.Shows psz q' := by
  refine (accept_follows hpool false pending).bind fun server hserver => .pure ?_
  obtain ⟨backlog, hserver⟩ := hserver
  refine ⟨backlog, fun q hq hbacklog => ?_⟩
  obtain ⟨n, s', haccept, hshows⟩ := hserver q _ hq ((q.cachePool_conns pool' false).2.trans hbacklog)
    (hq.cachePool hpool false).server
  refine ⟨n, { q.cachePool pool' false with server := s' }, ?_, hshows⟩
  unfold TensorPublisher.handshakePool
  dsimp only
  rw [haccept]
  rfl

/-- **`publish`** on both levels, unless a send has to wait for a consumer. -/
theorem publish_follows (hpool : pool.Shows build psz pool') (desc : TensorDescriptor) (fence : Bool) (pending : ℕ) :
    Returns (p.publish psz pool desc fence pending) fun p' => ∃ backlog, ∀ (q : TensorPublisher) (now : UInt64)
      (d : AcquiredDescriptor) (syncFd : Option Fd), p.Shows psz q → q.server.backlog = backlog → d.desc = desc →
        ∀ r, q.publish pool' now d syncFd = some r → p'.Shows psz r.2 := by
  refine .ite (fun hrefused => .pure ⟨[], fun q now d syncFd hq _ hdesc r hr => ?_⟩) fun haccepted => ?_
  -- a refused publish keeps the publisher at both levels
  · have hcheck : (q.check d).isSome = true := by
      rw [TensorPublisher.check, hdesc, ← hq.bufferSize]
      exact hrefused
    obtain ⟨e, -, -, hkeep⟩ | ⟨hnone, -⟩ := TensorPublisher.publish_cases hr
    · rw [hkeep]
      exact ⟨hq.bufferSize, hq.server, hq.hostViews, hq.cachedGen⟩
    · rw [hnone] at hcheck
      cases hcheck
  -- an accepted one sends the fence, announces a new pool, and takes in waiting consumers
  refine (Returns.trivial _).bind fun _ _ => (Returns.trivial _).bind fun _ _ => ?_
  refine (accept_follows hpool false pending).bind fun server hserver => .pure ?_
  obtain ⟨backlog, hserver⟩ := hserver
  refine ⟨backlog, fun q now d syncFd hq hbacklog hdesc r hr => ?_⟩
  obtain ⟨e, hsome, -⟩ | ⟨-, -, p₁, ra, hsend, haccept, hnext⟩ := TensorPublisher.publish_cases hr
  · have hcheck : (q.check d).isSome = true := hsome ▸ rfl
    rw [TensorPublisher.check, hdesc, ← hq.bufferSize] at hcheck
    exact absurd hcheck haccepted
  · obtain ⟨clients, rfl, hclients⟩ := TensorPublisher.sendFence_spec hsend
    -- a send changes a client's connection, never the list
    have hlen : clients.length = q.server.clients.length := by
      obtain ⟨rfl, -⟩ | ⟨fd, n, -, -, hsent⟩ := hclients
      · rfl
      · exact (SidecarServer.forall₂_sendAll hsent).length_eq.symm
    let q₁ : TensorPublisher := { q with
      seqno := q.seqno + 1, published := q.published ++ [q.stamp pool' now d]
      server := { q.server with clients := clients } }
    have hq₁ : p.Shows psz q₁ := hq.withClients hlen _ _
    obtain ⟨n, s', haccept', hshows⟩ := hserver q₁ _ hq₁ ((q₁.cachePool_conns pool' false).2.trans hbacklog)
      (hq₁.cachePool hpool false).server
    obtain rfl : ra = (n, s') := Option.some.inj (haccept.symm.trans haccept')
    rw [hnext]
    exact hshows

/-- **`reannounce_pool`** on both levels, unless a send has to wait for a consumer. -/
theorem reannouncePool_follows (hpool : pool.Shows build psz pool') (pending : ℕ) :
    Returns (p.reannouncePool psz pool pending) fun p' => ∃ answers backlog, ∀ (q : TensorPublisher) (sys : Sys),
      p.Shows psz q → q.server.backlog = backlog → sys.Offers psz answers →
        ∀ r, q.reannouncePool pool' sys = some r → p'.Shows psz r.2.1 := by
  refine (mapViews_follows hpool).bind fun p' hp' => (Returns.trivial _).bind fun _ _ => ?_
  refine (accept_follows hpool true pending).bind fun server hserver => .pure ?_
  obtain ⟨answers, hp'⟩ := hp'
  obtain ⟨backlog, hserver⟩ := hserver
  refine ⟨answers, backlog, fun q sys hq hbacklog hsys r hr => ?_⟩
  obtain ⟨rb, ra, hsent, haccept, hnext⟩ := TensorPublisher.reannounce_cases hr
  -- the views are mapped first, then the new bundle is cached and sent
  have hmapped := hp' q sys hq hsys
  have hremapped := hmapped.cachePool hpool true
  have hlen : rb.2.length = (q.remapped pool' sys).server.clients.length :=
    (SidecarServer.forall₂_sendAll hsent).length_eq.symm
  obtain ⟨n, s', haccept', hshows⟩ := hserver _ { (q.remapped pool' sys).server with clients := rb.2 } hmapped
    ((TensorPublisher.cachePool_conns _ pool' true).2.trans hbacklog)
    ⟨hremapped.server.clients.trans hlen.symm, hremapped.server.poolFds, hremapped.server.ext⟩
  obtain rfl : ra = (n, s') := Option.some.inj (haccept.symm.trans haccept')
  rw [hnext]
  exact hshows

end PublisherImpl

/-- **The publisher with its resources refines the message level's.** With pools that are the same on both levels, and
whatever the calls below answer: `create` fails on both levels or makes the same publisher; and for consumers that
connect as those calls have it, `handshake_pool`, `publish` and `reannounce_pool` leave the same publisher, unless the
message level has to wait for a consumer to read. -/
theorem publisher_refines {build : BuildConfig} {psz : ℕ} {pool : PoolImpl} {pool' : TensorPool}
    (hpool : pool.Shows build psz pool') :
    (∀ k : Process, ∃ answers, ∀ sys : Sys, sys.Offers psz answers → Option.Rel (PublisherImpl.Shows psz)
      (PublisherImpl.create psz pool k).1 (TensorPublisher.create pool' sys).1.toOption) ∧
    ∀ (p : PublisherImpl) (pending : ℕ) (k : Process),
      (∃ backlog, ∀ q : TensorPublisher, p.Shows psz q → q.server.backlog = backlog → ∃ n q',
        q.handshakePool pool' = some (n, q') ∧ (p.handshakePool psz pool pending k).1.Shows psz q') ∧
      (∀ (desc : TensorDescriptor) (fence : Bool), ∃ backlog, ∀ (q : TensorPublisher) (now : UInt64)
        (d : AcquiredDescriptor) (syncFd : Option Fd), p.Shows psz q → q.server.backlog = backlog → d.desc = desc →
          ∀ r, q.publish pool' now d syncFd = some r → (p.publish psz pool desc fence pending k).1.Shows psz r.2) ∧
      ∃ answers backlog, ∀ (q : TensorPublisher) (sys : Sys), p.Shows psz q → q.server.backlog = backlog →
        sys.Offers psz answers → ∀ r, q.reannouncePool pool' sys = some r →
          (p.reannouncePool psz pool pending k).1.Shows psz r.2.1 :=
  ⟨PublisherImpl.create_follows hpool, fun _ pending k => ⟨PublisherImpl.handshakePool_follows hpool pending k,
    fun desc fence => PublisherImpl.publish_follows hpool desc fence pending k,
    PublisherImpl.reannouncePool_follows hpool pending k⟩⟩

end Axon.Device
