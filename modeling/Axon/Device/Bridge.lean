import Axon.Device.PublisherResources

/-! # The resources of the bridge

`axon_bridge.h`: a pool with all its buffers mapped and the server that announces it on one side, the mapped buffers of
the pool received on the other. -/

namespace Axon.Device

open Foundation Prog

/-! ## `axon_bridge::Producer` -/

/-- **`axon_bridge::Producer`**. -/
structure BridgeProducer where
  pool : PoolImpl
  views : List ℕ
  server : Server
  bufferSize : UInt64

namespace BridgeProducer

/-- `unmap`. -/
def unmap (bufferSize : UInt64) (views : List ℕ) : Call Unit := views.forM fun p => munmap p bufferSize

/-- Map every buffer, behind those that are mapped; the first failure unmaps all of them. -/
def mapViews (bufferSize : UInt64) : List (Option Fd) → List ℕ → Call (Option (List ℕ))
  | [], views => return some views
  | fd :: fds, views => do
      match ← PublisherImpl.mapFd bufferSize fd with
      | none =>
          unmap bufferSize views
          return none
      | some p => mapViews bufferSize fds (views ++ [p])

/-- **`create`**: where it fails, the pool goes again. -/
def create (build : BuildConfig) (cfg : PoolConfig) : Call (Option BridgeProducer) := do
  match ← PoolImpl.create build cfg with
  | none => return none
  | some pool =>
      match ← mapViews cfg.bufferSize pool.shareFds [] with
      | none =>
          let _ ← pool.destroy build
          return none
      | some views =>
          match ← Server.create with
          | none =>
              unmap cfg.bufferSize views
              let _ ← pool.destroy build
              return none
          | some server => return some ⟨pool, views, { server with poolFds := pool.shareFds }, cfg.bufferSize⟩

/-- `poll_new_consumers`, with so many connections pending. -/
def pollNewConsumers (b : BridgeProducer) (pending : ℕ) : Call BridgeProducer := do
  let server ← b.server.acceptAndHandshake pending
  return { b with server := server }

/-- `~Producer`. -/
def destroy (build : BuildConfig) (b : BridgeProducer) : Call Unit := do
  unmap b.bufferSize b.views
  b.server.destroy
  let _ ← b.pool.destroy build

/-- The mappings. -/
def viewsRes (bufferSize : UInt64) (views : List ℕ) : Multiset Resource :=
  (views.map fun p => .host p bufferSize : List Resource)

/-- **What the producer owns**. -/
def resources (b : BridgeProducer) : Multiset Resource :=
  viewsRes b.bufferSize b.views + (b.server.resources + b.pool.resources)

/-- The server has the FDs of the pool. -/
structure Valid (build : BuildConfig) (b : BridgeProducer) : Prop where
  pool : b.pool.Valid build
  poolFds : b.server.poolFds = b.pool.shareFds

/-- The views are unmapped with the size they were mapped with. -/
theorem unmap_uses (bufferSize : UInt64) (views : List ℕ) :
    Uses (viewsRes bufferSize views) (unmap bufferSize views) fun _ => 0 :=
  Uses.forM_singleton (fun p => Resource.host p bufferSize) views fun p _ => munmap_uses p bufferSize 0

/-- **Mapping the views** stops at the first that fails, and unmaps those before it. -/
theorem mapViews_uses (bufferSize : UInt64) {fds : List (Option Fd)} (views : List ℕ) {rest : Multiset Resource}
    (hfds : AllHeld rest fds) : Uses (viewsRes bufferSize views + rest) (mapViews bufferSize fds views)
      fun r => optRes (viewsRes bufferSize) r + rest := by
  induction fds generalizing views with
  | nil => exact .pure rfl
  | cons fd fds ih =>
      have hopen : AllHeld (viewsRes bufferSize views + rest) (fd :: fds) := hfds.mono (Multiset.le_add_left _ _)
      refine (PublisherImpl.mapFd_uses hopen bufferSize List.mem_cons_self).bind fun p => ?_
      cases p with
      | none =>
          refine (((unmap_uses bufferSize views).frame rest).of_pre_eq (zero_add _)).bind fun _ => .pure rfl
      | some p =>
          refine (ih (views ++ [p]) fun fd' hfd' => hfds fd' (List.mem_cons_of_mem fd hfd')).of_pre_eq ?_
          rw [viewsRes, viewsRes, List.map_append, ← Multiset.coe_add, add_left_comm, add_assoc]
          rfl

/-- **A new producer** owns what it has recorded; of a failed one nothing is left. -/
theorem create_spec (build : BuildConfig) (cfg : PoolConfig) :
    Uses 0 (create build cfg) (optRes resources) ∧
      Returns (create build cfg) fun r => ∀ b, r = some b → b.Valid build := by
  obtain ⟨hpool, hvalid⟩ := PoolImpl.create_spec build cfg
  constructor
  -- a failure after the pool has been made destroys it, and unmaps what is mapped
  · refine hpool.bind_returns hvalid fun pool hpool => ?_
    cases pool with
    | none => exact .pure rfl
    | some pool =>
        have hpool := hpool pool rfl
        have hmap := mapViews_uses cfg.bufferSize [] hpool.allHeld
        refine (hmap.of_pre_eq (zero_add _).symm).bind fun views => ?_
        cases views with
        | none =>
            exact ((PoolImpl.destroy_uses hpool).of_pre_eq (zero_add _)).bind fun _ => .pure rfl
        | some views =>
            refine (Server.create_uses.opens _).bind fun server => ?_
            cases server with
            | none =>
                refine (((unmap_uses cfg.bufferSize views).frame pool.resources).of_pre_eq (zero_add _)).bind
                  fun _ => ?_
                exact ((PoolImpl.destroy_uses hpool).of_pre_eq (zero_add _)).bind fun _ => .pure rfl
            | some server => exact .pure (add_left_comm _ _ _)
  -- a pool that is returned is the one `create` has made
  · refine hvalid.bind fun pool hpool => ?_
    cases pool with
    | none => exact .pure (by simp)
    | some pool =>
        refine (Returns.trivial _).bind fun views _ => ?_
        cases views with
        | none => exact (Returns.trivial _).bind fun _ _ => .pure (by simp)
        | some views =>
            refine (Returns.trivial _).bind fun server _ => ?_
            cases server with
            | none => exact (Returns.trivial _).bind fun _ _ => (Returns.trivial _).bind fun _ _ => .pure (by simp)
            | some server =>
                refine .pure fun b hb => ?_
                obtain rfl := Option.some.inj hb
                exact ⟨hpool pool rfl, rfl⟩

/-- **Picking up consumers** adds their connections. -/
theorem pollNewConsumers_spec {build : BuildConfig} {b : BridgeProducer} (hb : b.Valid build) (pending : ℕ) :
    Uses b.resources (b.pollNewConsumers pending) resources ∧
      Returns (b.pollNewConsumers pending) (Valid build) := by
  constructor
  · have hopen : AllHeld (viewsRes b.bufferSize b.views + b.pool.resources) b.server.poolFds := by
      rw [hb.poolFds]
      exact hb.pool.allHeld.mono (Multiset.le_add_left _ _)
    refine ((Server.acceptAndHandshake_uses pending hopen).of_pre_eq (add_left_comm _ _ _)).bind fun server => ?_
    exact .pure (add_left_comm _ _ _)
  · exact (Server.acceptAndHandshake_returns pending b.server).bind fun server hserver =>
      .pure ⟨hb.pool, hserver.trans hb.poolFds⟩

/-- **The destructor** releases everything. -/
theorem destroy_uses {build : BuildConfig} {b : BridgeProducer} (hb : b.Valid build) :
    Uses b.resources (b.destroy build) fun _ => 0 := by
  refine ((unmap_uses b.bufferSize b.views).frame _).bind fun _ => ?_
  refine ((b.server.destroy_uses.frame _).of_pre_eq (zero_add _)).bind fun _ => ?_
  exact ((PoolImpl.destroy_uses hb.pool).of_pre_eq (zero_add _)).bind fun _ => .pure rfl

end BridgeProducer

/-! ## `axon_bridge::Consumer` -/

/-- **`axon_bridge::Consumer`**. -/
structure BridgeConsumer where
  sock : Fd
  views : List (Option ℕ)
  bufferSize : UInt64
  poolGeneration : UInt32

namespace BridgeConsumer

/-- The mapping holds the memory; the FD is no longer needed. -/
def mapAndClose (bufferSize : UInt64) (fd : Fd) : Call (Option ℕ) := do
  let p ← mmap fd bufferSize
  close fd
  return p

/-- **`create`**: `recv` is what `recv_pool_handshake` delivers, with the FDs it hands over. -/
def create (timeoutMs : ℤ) (recv : Except Errno (PoolHandshakeHeader × List Fd)) : Call (Option BridgeConsumer) := do
  match ← connect none timeoutMs with
  | none => return none
  | some sock =>
      match recv with
      | .error _ =>
          close sock
          return none
      | .ok (hdr, received) =>
          received.forM fun fd => acquire (.fd fd)
          let views ← received.mapM (mapAndClose hdr.bufferSize)
          return some ⟨sock, views, hdr.bufferSize, hdr.poolGeneration⟩

/-- `~Consumer`. -/
def destroy (c : BridgeConsumer) : Call Unit := do
  c.views.forM (Impl.unmapView c.bufferSize)
  close c.sock

/-- **What the consumer owns**. -/
def resources (c : BridgeConsumer) : Multiset Resource := (c.views.map (viewRes c.bufferSize)).sum + {.fd c.sock}

/-- A buffer stays mapped when its FD has been closed. -/
theorem mapAndClose_uses (bufferSize : UInt64) (fd : Fd) :
    Uses {.fd fd} (mapAndClose bufferSize fd) (viewRes bufferSize) := by
  refine (mmap_uses bufferSize (.of_mem (Multiset.mem_singleton_self _))).bind fun p => ?_
  cases p with
  | none => exact (close_uses fd 0).bind fun _ => .pure rfl
  | some p =>
      refine ((close_uses fd {.host p bufferSize}).of_pre_eq ?_).bind fun _ => .pure rfl
      exact Multiset.cons_swap _ _ 0

/-- **A new consumer** owns its views; of the FDs received none stays open. -/
theorem create_uses (timeoutMs : ℤ) (recv : Except Errno (PoolHandshakeHeader × List Fd)) :
    Uses 0 (create timeoutMs recv) (optRes resources) := by
  refine (connect_uses none timeoutMs).bind fun r => ?_
  cases r with
  | none => exact .pure rfl
  | some sock =>
      cases recv with
      | error e => exact (close_uses sock 0).bind fun _ => .pure rfl
      | ok bundle =>
          obtain ⟨hdr, received⟩ := bundle
          refine (Uses.forM_acquire Resource.fd received _).bind fun _ => ?_
          have hviews := Uses.mapM_each received fun fd _ => mapAndClose_uses hdr.bufferSize fd
          refine ((hviews.frame {.fd sock}).of_pre_eq ?_).bind fun views => .pure rfl
          rw [coe_map_eq_sum]

/-- **The destructor** releases everything. -/
theorem destroy_uses (c : BridgeConsumer) : Uses c.resources c.destroy fun _ => 0 := by
  refine ((Uses.forM c.views fun v _ => Impl.unmapView_uses c.bufferSize v).frame _).bind fun _ => ?_
  exact (close_uses c.sock 0).of_pre_eq (zero_add _)

end BridgeConsumer

end Axon.Device
