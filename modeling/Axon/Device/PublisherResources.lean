import Axon.Device.PoolResources
import Axon.Device.PublisherImpl
import Axon.Device.SubscriberResources

/-! # What a publisher opens, and the FDs it sends

A publisher owns its mappings, its slot and its sockets, and borrows the FDs of its pool.

* **`PublisherImpl.resources`** is what a publisher owns. **`PublisherImpl.Cached`** says when the FDs that its server
  keeps are those of the pool: when they are of the pool's generation.
* **`Producing`**: a pool with its publishers; **`Producing.on_uses`** is the rule of a function of one of them, which
  has the pool's resources beside its own. -/

namespace Axon.Device

open Foundation Prog

/-- These FDs are open. -/
def AllHeld (live : Multiset Resource) (fds : List (Option Fd)) : Prop := ∀ fd, some fd ∈ fds → Held live fd

/-- More that is open changes nothing. -/
theorem AllHeld.mono {live live' : Multiset Resource} {fds : List (Option Fd)} (h : AllHeld live fds)
    (hle : live ≤ live') : AllHeld live' fds := fun fd hfd => (h fd hfd).mono hle

/-- Using an FD of the list needs it open. -/
theorem useOpt_uses {fds : List (Option Fd)} {rest : Multiset Resource} (h : AllHeld rest fds) {fd : Option Fd}
    (hfd : fd ∈ fds) : Uses rest (useOpt fd) fun _ => rest := by
  cases fd with
  | none => exact .pure rfl
  | some fd => exact useFd_uses (h fd hfd)

/-- **The FDs that a pool hands out** are open. -/
theorem PoolImpl.Valid.allHeld {build : BuildConfig} {p : PoolImpl} (hp : p.Valid build) :
    AllHeld p.resources p.shareFds := by
  intro fd hfd
  rw [hp.shareFds] at hfd
  obtain ⟨b, hb, hshare⟩ := List.mem_map.mp hfd
  obtain ⟨i, hi⟩ := List.mem_iff_getElem?.mp hb
  exact (hp.backed.buffers i b hi).1.shareFd fd hshare

/-! ## The server -/

namespace Server

/-- The sockets of a server. -/
def resources (s : Server) : Multiset Resource := .fd s.listenFd ::ₘ fdsRes s.clients

/-- **A new server** has its listening socket, or nothing is left of it. -/
theorem create_uses : Uses 0 create (optRes resources) := by
  refine (opening_uses _ 0).bind fun r => ?_
  cases r with
  | none => exact .pure rfl
  | some n =>
      refine (allSucceed_uses 2 _).bind fun ok => .ite (fun _ => .pure rfl) fun _ => ?_
      exact (close_uses (newFd n 0) 0).bind fun _ => .pure rfl

/-- A new server has no bundle yet. -/
theorem create_returns : Returns create fun r => ∀ s, r = some s → s.poolFds = [] := by
  refine (Returns.trivial _).bind fun r _ => ?_
  cases r with
  | none => exact .pure (by simp)
  | some n =>
      refine (Returns.trivial _).bind fun ok _ => .ite (fun _ => .pure fun s hs => ?_) fun _ => ?_
      · obtain rfl := Option.some.inj hs
        rfl
      · exact (Returns.trivial _).bind fun _ _ => .pure (by simp)

/-- **Sending the bundle** needs its FDs open. -/
theorem sendPoolTo_uses {s : Server} {client : Fd} {rest : Multiset Resource} (hclient : .fd client ∈ rest)
    (hfds : AllHeld rest s.poolFds) : Uses rest (s.sendPoolTo client) fun _ => rest := by
  refine .ite (fun _ => .pure rfl) fun _ => (Uses.access hclient).bind fun _ => ?_
  refine (Uses.forM_keep s.poolFds fun fd hfd => useOpt_uses hfds hfd).bind fun _ => ?_
  refine (succeeds_uses rest).bind fun ok => .ite (fun _ => ?_) fun _ => .pure rfl
  exact .ite (fun _ => .pure rfl) fun _ => succeeds_uses rest

/-- **Accepting consumers** opens their connections. -/
theorem acceptAndHandshake_uses (pending : ℕ) {s : Server} {rest : Multiset Resource}
    (hfds : AllHeld rest s.poolFds) :
    Uses (s.resources + rest) (acceptAndHandshake pending s) fun s' => s'.resources + rest := by
  induction pending generalizing s with
  | zero => exact .pure rfl
  | succ pending ih =>
      have hlisten : .fd s.listenFd ∈ s.resources + rest :=
        Multiset.mem_add.mpr (.inl (Multiset.mem_cons_self _ _))
      refine (Uses.access hlisten).bind fun _ => (opening_uses _ _).bind fun r => ?_
      cases r with
      | none => exact .pure rfl
      | some n =>
          -- accepting a socket leaves the FDs of the pool open
          have hopen : AllHeld (.fd (newFd n 0) ::ₘ (s.resources + rest)) s.poolFds :=
            hfds.mono ((Multiset.le_add_left _ _).trans (Multiset.le_cons_self _ _))
          -- a client that was sent the bundle is kept, another is closed and ends the loop
          refine (sendPoolTo_uses (Multiset.mem_cons_self _ _) hopen).bind fun sent => .ite (fun _ => ?_) fun _ => ?_
          · refine (@ih { s with clients := s.clients ++ [newFd n 0] } hfds).of_pre_eq ?_
            rw [resources, resources, fdsRes, fdsRes, List.map_append, ← Multiset.coe_add, ← Multiset.cons_add]
            rw [add_comm (s.clients.map Resource.fd : Multiset Resource)]
            exact congrArg (· + rest) (Multiset.cons_swap _ _ _)
          · exact (close_uses (newFd n 0) (s.resources + rest)).bind fun _ => .pure rfl

/-- Accepting consumers leaves the bundle. -/
theorem acceptAndHandshake_returns (pending : ℕ) (s : Server) :
    Returns (acceptAndHandshake pending s) fun s' => s'.poolFds = s.poolFds := by
  induction pending generalizing s with
  | zero => exact .pure rfl
  | succ pending ih =>
      refine (Returns.trivial _).bind fun _ _ => (Returns.trivial _).bind fun r _ => ?_
      cases r with
      | none => exact .pure rfl
      | some n =>
          refine (Returns.trivial _).bind fun sent _ => .ite (fun _ => ?_) fun _ => ?_
          · exact ih { s with clients := s.clients ++ [newFd n 0] }
          · exact (Returns.trivial _).bind fun _ _ => .pure rfl

/-- A client's connection is open. -/
theorem client_mem_resources {s : Server} {client : Fd} (h : client ∈ s.clients) : .fd client ∈ s.resources :=
  Multiset.mem_cons_of_mem (Impl.mem_fdsRes h)

/-- **Sending the bundle to all clients** needs their connections and the pool's FDs open. -/
theorem broadcastPool_uses {s : Server} {rest : Multiset Resource} (hfds : AllHeld rest s.poolFds) :
    Uses (s.resources + rest) s.broadcastPool fun _ => s.resources + rest := by
  refine Uses.forM_keep s.clients fun client hclient => ?_
  refine (sendPoolTo_uses ?_ (hfds.mono (Multiset.le_add_left _ _))).bind fun _ => .pure rfl
  exact Multiset.mem_add.mpr (.inl (client_mem_resources hclient))

/-- **Sending a fence to all clients** needs their connections open. -/
theorem broadcastSyncFence_uses (s : Server) : Uses s.resources s.broadcastSyncFence fun _ => s.resources := by
  refine Uses.forM_keep s.clients fun client hclient => ?_
  exact (Uses.access (client_mem_resources hclient)).bind fun _ => (succeeds_uses _).bind fun _ => .pure rfl

/-- **`~SidecarServer`** closes all its sockets. -/
theorem destroy_uses (s : Server) : Uses s.resources s.destroy fun _ => 0 := by
  have hclients := Uses.forM_singleton Resource.fd s.clients fun fd _ => close_uses fd 0
  refine ((hclients.frame {.fd s.listenFd}).of_pre_eq ?_).bind fun _ => ?_
  · rw [resources, ← Multiset.singleton_add, add_comm]
    rfl
  · exact (close_uses s.listenFd 0).of_pre_eq (zero_add _)

end Server

/-- **A new slot** stays mapped; its FD does not stay open. -/
theorem createPublisher_uses : Uses 0 createPublisher slotRes := by
  refine (opening_uses _ 0).bind fun r => ?_
  cases r with
  | none => exact .pure rfl
  | some n =>
      refine (succeeds_uses _).bind fun ok => .ite (fun _ => ?_) fun _ => ?_
      · have hfd : Resource.fd (socketFd n) ∈ Resource.fd (socketFd n) ::ₘ 0 := Multiset.mem_cons_self _ _
        refine (mmap_uses (.ofNat MetadataSlot.size) (.of_mem hfd)).bind fun p => ?_
        cases p with
        | none => exact (close_uses (socketFd n) 0).bind fun _ => .pure rfl
        | some slot =>
            refine ((close_uses (socketFd n) {.host slot (.ofNat MetadataSlot.size)}).of_pre_eq ?_).bind
              fun _ => .pure rfl
            exact Multiset.cons_swap _ _ 0
      · exact (close_uses (socketFd n) 0).bind fun _ => .pure rfl

/-! ## The publisher -/

namespace PublisherImpl

/-- The mappings of a publisher. -/
def viewsRes (p : PublisherImpl) : Multiset Resource := (p.hostViews.map (viewRes p.bufferSize)).sum

/-- **What a publisher owns**. -/
def resources (p : PublisherImpl) : Multiset Resource := p.viewsRes + (p.server.resources + slotRes (some p.metadata))

/-- **The cached bundle**: it is of an earlier generation of the pool, or has the FDs of this one. -/
structure Cached (p : PublisherImpl) (pool : PoolImpl) : Prop where
  le : ∀ gen, p.cachedGen = some gen → gen ≤ pool.gen
  poolFds : p.cachedGen = some pool.gen → p.server.poolFds = pool.shareFds

/-- **`cache_pool`** brings the bundle up to date. -/
theorem Cached.cachePool {p : PublisherImpl} {pool : PoolImpl} (h : p.Cached pool) (psz : ℕ) (force : Bool) :
    (p.cachePool psz pool force).Cached pool ∧ (p.cachePool psz pool force).server.poolFds = pool.shareFds := by
  unfold PublisherImpl.cachePool
  by_cases hskip : force = false ∧ p.cachedGen = some pool.gen
  · rw [if_pos hskip]
    exact ⟨h, h.poolFds hskip.2⟩
  · rw [if_neg hskip]
    refine ⟨⟨fun gen hgen => ?_, fun _ => rfl⟩, rfl⟩
    obtain rfl := Option.some.inj hgen
    exact le_rfl

/-- Caching the bundle opens nothing. -/
@[simp] theorem resources_cachePool (psz : ℕ) (p : PublisherImpl) (pool : PoolImpl) (force : Bool) :
    (p.cachePool psz pool force).resources = p.resources := by
  unfold cachePool
  split_ifs <;> rfl

variable {p : PublisherImpl} {pool : PoolImpl} {rest : Multiset Resource}

/-- The views are unmapped with the size they were mapped with. -/
theorem unmapViews_uses (p : PublisherImpl) :
    Uses p.viewsRes (p.hostViews.forM (Impl.unmapView p.bufferSize)) fun _ => 0 :=
  Uses.forM p.hostViews fun v _ => Impl.unmapView_uses p.bufferSize v

/-- Mapping a buffer opens its view. -/
theorem mapFd_uses {fds : List (Option Fd)} (h : AllHeld rest fds) (bufferSize : UInt64) {fd : Option Fd}
    (hfd : fd ∈ fds) : Uses rest (mapFd bufferSize fd) fun v => viewRes bufferSize v + rest := by
  cases fd with
  | none => exact .pure (zero_add _).symm
  | some fd =>
      refine (mmap_uses bufferSize (h fd hfd)).of_eq rfl fun v => ?_
      cases v with
      | none => exact (zero_add rest).symm
      | some base => exact (Multiset.singleton_add _ rest).symm

/-- **`map_views`** replaces the views. -/
theorem mapViews_uses (hpool : AllHeld rest pool.shareFds) :
    Uses (p.viewsRes + rest) (p.mapViews pool) fun p' => p'.viewsRes + rest := by
  refine (p.unmapViews_uses.frame rest).bind fun _ => ?_
  refine ((Uses.mapM pool.shareFds fun fd hfd => mapFd_uses hpool p.bufferSize hfd).of_pre_eq (zero_add _)).bind
    fun views => .pure rfl

/-- It replaces nothing else. -/
theorem mapViews_returns (p : PublisherImpl) (pool : PoolImpl) :
    Returns (p.mapViews pool) fun p' => ∃ views, p' = { p with hostViews := views } :=
  (Returns.trivial _).bind fun _ _ => (Returns.trivial _).bind fun views _ => .pure ⟨views, rfl⟩

/-- Asking for the size of the first buffer needs its FD open. -/
theorem initialBufferSize_uses (hpool : AllHeld rest pool.shareFds) :
    Uses rest (initialBufferSize pool) fun _ => rest := by
  refine .ite (fun _ => .pure rfl) fun _ => ?_
  cases hfirst : pool.shareFds.head? with
  | none => exact .pure rfl
  | some fd =>
      exact (useOpt_uses hpool (List.mem_of_mem_head? hfirst)).bind fun _ => (Uses.ask _).bind fun _ => .pure rfl

/-- **`create`** opens what the publisher owns, or nothing. -/
theorem create_uses (psz : ℕ) (hpool : AllHeld rest pool.shareFds) :
    Uses rest (create psz pool) fun r => optRes resources r + rest := by
  have hnone : rest = optRes resources none + rest := (zero_add rest).symm
  refine (initialBufferSize_uses hpool).bind fun size => .ite (fun _ => .pure hnone) fun _ => ?_
  refine .ite (fun _ => .pure hnone) fun _ => ?_
  refine (Server.create_uses.opens rest).bind fun server => (createPublisher_uses.opens _).bind fun metadata => ?_
  -- the publisher needs both the server and the slot: one alone is given back
  rcases server with _ | server
  · refine Uses.bind (.pure rfl) fun _ => ((closeMetadata_uses metadata).frame _).bind fun _ => .pure ?_
    rw [zero_add]
    rfl
  · rcases metadata with _ | metadata
    · have hdestroy : Uses (optRes Server.resources (some server) + rest) (ifSome (some server) Server.destroy)
          fun _ => rest := (server.destroy_uses.frame rest).of_eq rfl fun _ => zero_add rest
      exact (hdestroy.of_pre_eq (zero_add _)).bind fun _ => (Uses.pure rfl).bind fun _ => .pure hnone
    · have hopen := hpool.mono (Multiset.le_add_left rest (server.resources + slotRes (some metadata)))
      refine ((mapViews_uses (p := ⟨size, server, metadata, [], none⟩) hopen).of_pre_eq ?_).bind_returns
        (mapViews_returns _ pool) fun p' hp' => .pure ?_
      · show slotRes (some metadata) + (server.resources + rest) = 0 + (server.resources + slotRes (some metadata) + rest)
        abel
      · obtain ⟨views, rfl⟩ := hp'
        exact (add_assoc _ _ _).symm

/-- A new publisher has no bundle cached. -/
theorem create_returns (psz : ℕ) (pool : PoolImpl) :
    Returns (create psz pool) fun r => ∀ p, r = some p → p.Cached pool := by
  refine (Returns.trivial _).bind fun size _ => .ite (fun _ => .pure (by simp)) fun _ => ?_
  refine .ite (fun _ => .pure (by simp)) fun _ => ?_
  refine (Returns.trivial _).bind fun server _ => (Returns.trivial _).bind fun metadata _ => ?_
  rcases server with _ | server
  · exact (Returns.trivial _).bind fun _ _ => (Returns.trivial _).bind fun _ _ => .pure (by simp)
  · rcases metadata with _ | metadata
    · exact (Returns.trivial _).bind fun _ _ => (Returns.trivial _).bind fun _ _ => .pure (by simp)
    · refine (mapViews_returns _ pool).bind fun p' hp' => .pure fun p hp => ?_
      obtain ⟨views, rfl⟩ := hp'
      obtain rfl := Option.some.inj hp
      exact ⟨by simp, by simp⟩

/-- Consumers are accepted when the bundle is that of the pool. -/
theorem accept_uses (pending : ℕ) (hfds : p.server.poolFds = pool.shareFds) (hpool : AllHeld rest pool.shareFds) :
    Uses (p.resources + rest) (p.server.acceptAndHandshake pending)
      fun server => resources { p with server := server } + rest := by
  have hopen : AllHeld (p.viewsRes + slotRes (some p.metadata) + rest) p.server.poolFds := by
    rw [hfds]
    exact hpool.mono (Multiset.le_add_left _ _)
  refine (Server.acceptAndHandshake_uses pending hopen).of_eq ?_ fun server => ?_
  · unfold resources
    abel
  · show _ = p.viewsRes + (server.resources + slotRes (some p.metadata)) + rest
    abel

/-- The same for those that are connected. -/
theorem broadcast_uses (hfds : p.server.poolFds = pool.shareFds) (hpool : AllHeld rest pool.shareFds) :
    Uses (p.resources + rest) p.server.broadcastPool fun _ => p.resources + rest := by
  have hframe : p.resources + rest = p.server.resources + (p.viewsRes + slotRes (some p.metadata) + rest) := by
    unfold resources
    abel
  rw [hframe]
  refine Server.broadcastPool_uses ?_
  rw [hfds]
  exact hpool.mono (Multiset.le_add_left _ _)

/-- Accepting consumers leaves the bundle cached. -/
theorem Cached.accept {p : PublisherImpl} {pool : PoolImpl} (h : p.Cached pool) (pending : ℕ) :
    Returns (p.server.acceptAndHandshake pending) fun server => Cached { p with server := server } pool :=
  (Server.acceptAndHandshake_returns pending p.server).mono fun _ hserver =>
    ⟨h.le, fun hgen => hserver.trans (h.poolFds hgen)⟩

/-- **`handshake_pool`** sends FDs that are open. -/
theorem handshakePool_spec (psz : ℕ) (hp : p.Cached pool) (pending : ℕ) (hpool : AllHeld rest pool.shareFds) :
    Uses (p.resources + rest) (p.handshakePool psz pool pending) (fun p' => p'.resources + rest) ∧
      Returns (p.handshakePool psz pool pending) fun p' => p'.Cached pool := by
  obtain ⟨hcached, hfds⟩ := hp.cachePool psz false
  have haccept := accept_uses pending hfds hpool
  rw [resources_cachePool] at haccept
  exact ⟨haccept.bind fun _ => .pure rfl, (hcached.accept pending).bind fun _ hserver => .pure hserver⟩

/-- A fence goes out on open connections. -/
theorem sendFence_uses (p : PublisherImpl) (desc : TensorDescriptor) (fence : Bool) :
    Uses p.resources (p.sendFence desc fence) fun _ => p.resources := by
  have hres : p.resources = p.server.resources + (p.viewsRes + slotRes (some p.metadata)) := by
    unfold resources
    abel
  refine .ite (fun _ => ?_) fun _ => .pure rfl
  exact (p.server.broadcastSyncFence_uses.frame _).of_eq hres fun _ => hres.symm

/-- **`publish`**. -/
theorem publish_spec (psz : ℕ) (hp : p.Cached pool) (desc : TensorDescriptor) (fence : Bool) (pending : ℕ)
    (hpool : AllHeld rest pool.shareFds) :
    Uses (p.resources + rest) (p.publish psz pool desc fence pending) (fun p' => p'.resources + rest) ∧
      Returns (p.publish psz pool desc fence pending) fun p' => p'.Cached pool := by
  obtain ⟨huses, hreturns⟩ := handshakePool_spec psz hp pending hpool
  constructor
  · refine .ite (fun _ => .pure rfl) fun _ => ?_
    have hslot : .host p.metadata.slot p.metadata.mapLen ∈ p.resources + rest :=
      Multiset.mem_add.mpr (.inl (Multiset.mem_add.mpr (.inr (Multiset.mem_add.mpr (.inr
        (Multiset.mem_singleton_self _))))))
    exact ((p.sendFence_uses desc fence).frame rest).bind fun _ => (Uses.access hslot).bind fun _ => huses
  · exact .ite (fun _ => .pure hp) fun _ => (Returns.trivial _).bind fun _ _ => (Returns.trivial _).bind fun _ _ =>
      hreturns

/-- **`reannounce_pool`**. -/
theorem reannouncePool_spec (psz : ℕ) (hp : p.Cached pool) (pending : ℕ) (hpool : AllHeld rest pool.shareFds) :
    Uses (p.resources + rest) (p.reannouncePool psz pool pending) (fun p' => p'.resources + rest) ∧
      Returns (p.reannouncePool psz pool pending) fun p' => p'.Cached pool := by
  have hviews : ∀ views, Cached { p with hostViews := views } pool := fun _ => ⟨hp.le, hp.poolFds⟩
  constructor
  -- mapping again replaces the views, caching a new bundle opens nothing
  · have hopen := hpool.mono (Multiset.le_add_left rest (p.server.resources + slotRes (some p.metadata)))
    refine ((mapViews_uses hopen).of_pre_eq (add_assoc _ _ _)).bind_returns (mapViews_returns p pool)
      fun p' hp' => ?_
    obtain ⟨views, rfl⟩ := hp'
    obtain ⟨-, hfds⟩ := (hviews views).cachePool psz true
    have haccept := accept_uses pending hfds hpool
    rw [resources_cachePool] at haccept
    have hbroadcast := broadcast_uses hfds hpool
    rw [resources_cachePool] at hbroadcast
    refine Uses.of_pre_eq (hbroadcast.bind fun _ => haccept.bind fun _ => .pure rfl) ?_
    exact (add_assoc _ _ _).symm
  · refine (mapViews_returns p pool).bind fun p' hp' => ?_
    obtain ⟨views, rfl⟩ := hp'
    refine (Returns.trivial _).bind fun _ _ => ?_
    exact (((hviews views).cachePool psz true).1.accept pending).bind fun _ hserver => .pure hserver

/-- **`~TensorPublisher`** releases what the publisher owns. -/
theorem destroy_uses (p : PublisherImpl) : Uses p.resources p.destroy fun _ => 0 := by
  refine (p.unmapViews_uses.frame _).bind fun _ => ?_
  rw [zero_add]
  refine (p.server.destroy_uses.frame _).bind fun _ => ?_
  exact (munmap_uses p.metadata.slot p.metadata.mapLen 0).of_pre_eq (zero_add _)

end PublisherImpl

/-! ## A pool with its publishers -/

/-- **A pool and its publishers**, which do not outlive it. -/
structure Producing where
  pool : PoolImpl
  publishers : List (Option PublisherImpl)

namespace Producing

/-- **What a pool and its publishers own.** -/
def resources (x : Producing) : Multiset Resource :=
  x.pool.resources + (x.publishers.map (optRes PublisherImpl.resources)).sum

/-- The records of the pool and of its publishers. -/
structure Valid (build : BuildConfig) (x : Producing) : Prop where
  pool : x.pool.Valid build
  cached : ∀ p, some p ∈ x.publishers → p.Cached x.pool

/-- A function of one of the publishers. -/
def on (x : Producing) (i : ℕ) (f : PublisherImpl → PoolImpl → Call (Option PublisherImpl)) :
    Option (Call Producing) :=
  x.publishers[i]?.join.map fun p => do
    let p' ← f p x.pool
    return { x with publishers := x.publishers.set i p' }

/-- A function of the pool. -/
def onPool (x : Producing) (f : PoolImpl → Call PoolImpl) : Call Producing := do
  let pool ← f x.pool
  return { x with pool := pool }

/-- Another publisher; the place of one that cannot be made stays empty. -/
def createPublisher (psz : ℕ) (x : Producing) : Call Producing := do
  let p ← PublisherImpl.create psz x.pool
  return { x with publishers := x.publishers ++ [p] }

variable {build : BuildConfig} {x : Producing}

/-- **A function of a publisher** has the resources of the pool beside its own, and leaves the pool's as they are. -/
theorem on_spec (hx : x.Valid build) {i : ℕ} {f : PublisherImpl → PoolImpl → Call (Option PublisherImpl)}
    {prog : Call Producing} (hprog : x.on i f = some prog)
    (hf : ∀ p, p.Cached x.pool →
      Uses (p.resources + x.pool.resources) (f p x.pool)
        (fun p' => optRes PublisherImpl.resources p' + x.pool.resources) ∧
      Returns (f p x.pool) fun p' => ∀ q, p' = some q → q.Cached x.pool) :
    Uses x.resources prog resources ∧ Returns prog (Valid build) := by
  obtain ⟨p, hp, rfl⟩ := Option.map_eq_some_iff.mp hprog
  have hi : x.publishers[i]? = some (some p) := Option.join_eq_some_iff.mp hp
  obtain ⟨huses, hreturns⟩ := hf p (hx.cached p (List.mem_of_getElem? hi))
  -- the other publishers of the pool are the frame
  obtain ⟨rest, hall, hset⟩ := sum_map_set (optRes PublisherImpl.resources) hi
  constructor
  · refine ((huses.frame rest).of_pre_eq ?_).bind fun p' => .pure ?_
    · rw [resources, hall, add_left_comm, add_assoc]
      rfl
    · show _ = x.pool.resources + ((x.publishers.set i p').map (optRes PublisherImpl.resources)).sum
      rw [hset, add_left_comm, add_assoc]
  · refine hreturns.bind fun p' hp' => .pure ⟨hx.pool, fun q hq => ?_⟩
    exact (List.mem_or_eq_of_mem_set hq).elim (hx.cached q) fun h => hp' q h.symm

/-- **A function of the pool**, after which the bundles that are cached are still of this generation or earlier. -/
theorem onPool_spec (hx : x.Valid build) {f : PoolImpl → Call PoolImpl}
    (huses : Uses x.pool.resources (f x.pool) PoolImpl.resources)
    (hreturns : Returns (f x.pool) fun pool => pool.Valid build ∧ ∀ p : PublisherImpl, p.Cached x.pool → p.Cached pool) :
    Uses x.resources (x.onPool f) resources ∧ Returns (x.onPool f) (Valid build) :=
  ⟨(huses.frame _).bind fun _ => .pure rfl, hreturns.bind fun _ hpool => .pure ⟨hpool.1, fun p hp =>
    hpool.2 p (hx.cached p hp)⟩⟩

/-- **A new publisher** is added to the pool's. -/
theorem createPublisher_spec (psz : ℕ) (hx : x.Valid build) :
    Uses x.resources (x.createPublisher psz) resources ∧ Returns (x.createPublisher psz) (Valid build) := by
  constructor
  · refine (((PublisherImpl.create_uses psz hx.pool.allHeld).frame _)).bind fun p => .pure ?_
    show _ = x.pool.resources + ((x.publishers ++ [p]).map (optRes PublisherImpl.resources)).sum
    rw [List.map_append, List.sum_append, List.map_singleton, List.sum_singleton]
    abel
  · refine (PublisherImpl.create_returns psz x.pool).bind fun p hp => .pure ⟨hx.pool, fun q hq => ?_⟩
    exact (List.mem_append.mp hq).elim (hx.cached q) fun h => hp q (List.mem_singleton.mp h).symm

end Producing

end Axon.Device
