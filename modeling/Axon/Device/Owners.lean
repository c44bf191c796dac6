import Axon.Device.Bridge
import Axon.Foundation.Objects

/-! # Everything that is opened is released

A process makes pools with their publishers, subscribers and the two ends of bridges, calls them in any order and
destroys them. Any of the calls below may fail.

* **`ownerClass`**: these objects with what they own; **`ownerClass_sound`**: each of their functions accounts for its
  object.
* **`process_releases_everything`** and **`process_pointers_backed`**: over every run of the process. -/

namespace Axon.Device

open Foundation Prog ObjectClass

/-! ## The pointers of the other objects -/

/-- **The memory behind a pool with its publishers**: that of the pool, and of the publishers' views. These are mappings
of the size that a publisher records when it is created, which is not the buffers' own once the pool has been
reallocated to another size. -/
structure Producing.Backed (x : Producing) (live : Multiset Resource) : Prop where
  pool : x.pool.Backed live
  views : ∀ p : PublisherImpl, some p ∈ x.publishers → ∀ v, some v ∈ p.hostViews → .host v p.bufferSize ∈ live

/-- **A pool and its publishers own the memory behind their pointers.** -/
theorem Producing.Valid.backed {build : BuildConfig} {x : Producing} (hx : x.Valid build) : x.Backed x.resources := by
  refine ⟨hx.pool.backed.mono (Multiset.le_add_right _ _), fun p hp v hv => ?_⟩
  obtain ⟨i, hi⟩ := List.mem_iff_getElem?.mp hp
  obtain ⟨rest, hall, -⟩ := sum_map_set (optRes PublisherImpl.resources) hi
  have hview : .host v p.bufferSize ∈ p.viewsRes := Impl.mem_sum_map hv (Multiset.mem_singleton_self _)
  have howned : .host v p.bufferSize ∈ optRes PublisherImpl.resources (some p) := Multiset.mem_add.mpr (.inl hview)
  rw [resources, hall]
  exact Multiset.mem_add.mpr (.inr (Multiset.mem_add.mpr (.inl howned)))

/-- More that is open changes nothing. -/
theorem Producing.Backed.mono {x : Producing} {live live' : Multiset Resource} (h : x.Backed live)
    (hle : live ≤ live') : x.Backed live' :=
  ⟨h.pool.mono hle, fun p hp v hv => Multiset.mem_of_le hle (h.views p hp v hv)⟩

/-- **The memory behind a bridge's producer**: its views have the size that it has recorded. -/
structure BridgeProducer.Backed (b : BridgeProducer) (live : Multiset Resource) : Prop where
  pool : b.pool.Backed live
  views : ∀ v ∈ b.views, .host v b.bufferSize ∈ live

/-- **A bridge's producer owns the memory behind its pointers.** -/
theorem BridgeProducer.Valid.backed {build : BuildConfig} {b : BridgeProducer} (hb : b.Valid build) :
    b.Backed b.resources := by
  refine ⟨hb.pool.backed.mono ((Multiset.le_add_left _ _).trans (Multiset.le_add_left _ _)), fun v hv => ?_⟩
  exact Multiset.mem_add.mpr (.inl (Multiset.mem_coe.mpr (List.mem_map_of_mem hv)))

/-- More that is open changes nothing. -/
theorem BridgeProducer.Backed.mono {b : BridgeProducer} {live live' : Multiset Resource} (h : b.Backed live)
    (hle : live ≤ live') : b.Backed live' :=
  ⟨h.pool.mono hle, fun v hv => Multiset.mem_of_le hle (h.views v hv)⟩

/-- **The memory behind a bridge's consumer**: its views have the size that the handshake has told it. -/
def BridgeConsumer.Backed (c : BridgeConsumer) (live : Multiset Resource) : Prop :=
  ∀ v, some v ∈ c.views → .host v c.bufferSize ∈ live

/-- **A bridge's consumer owns the memory behind its views.** -/
theorem BridgeConsumer.backed (c : BridgeConsumer) : c.Backed c.resources := fun _ hv =>
  Multiset.mem_add.mpr (.inl (Impl.mem_sum_map hv (Multiset.mem_singleton_self _)))

/-! ## The class -/

/-- An object that owns resources. -/
inductive Owner
  | producing (x : Producing)
  | subscriber (s : Impl)
  | bridgeProducer (b : BridgeProducer)
  | bridgeConsumer (c : BridgeConsumer)

/-- How an object is made. -/
inductive OwnerCtor
  | pool (cfg : PoolConfig)
  | subscriber
  | bridgeProducer (cfg : PoolConfig)
  | bridgeConsumer (timeoutMs : ℤ) (recv : Except Errno (PoolHandshakeHeader × List Fd))

/-- The functions of all objects. -/
inductive OwnerCall
  | retireAndReallocate (newBufferSize : UInt64)
  | devicePtr (index : ℕ)
  | createPublisher
  | handshakePool (i pending : ℕ)
  | publish (i : ℕ) (desc : TensorDescriptor) (fence : Bool) (pending : ℕ)
  | reannouncePool (i pending : ℕ)
  | destroyPublisher (i : ℕ)
  | waitHandshake (timeoutMs : ℤ) (recv : Except Errno (PoolHandshakeHeader × List Fd × List UInt8))
  | drainFences (delivered : List (UInt64 × Fd))
  | pollNewConsumers (pending : ℕ)
  | destroy

/-- The functions of a pool and its publishers. A pool is not destroyed before they are. -/
def Producing.call (build : BuildConfig) (psz : ℕ) (x : Producing) : OwnerCall → Option (Call (Option Producing))
  | .retireAndReallocate n => some (keeping id (x.onPool fun pool => pool.retireAndReallocate build n))
  | .devicePtr index => some (keeping id (x.onPool fun pool => do return (← pool.devicePtr build index).2))
  | .createPublisher => some (keeping id (x.createPublisher psz))
  | .handshakePool i pending =>
      (x.on i fun p pool => keeping id (p.handshakePool psz pool pending)).map (keeping id)
  | .publish i desc fence pending =>
      (x.on i fun p pool => keeping id (p.publish psz pool desc fence pending)).map (keeping id)
  | .reannouncePool i pending =>
      (x.on i fun p pool => keeping id (p.reannouncePool psz pool pending)).map (keeping id)
  | .destroyPublisher i => (x.on i fun p _ => ending p.destroy).map (keeping id)
  | .destroy => if x.publishers.all Option.isNone then some (ending (x.pool.destroy build)) else none
  | _ => none

namespace Owner

/-- **What an object owns.** -/
def resources : Owner → Multiset Resource
  | producing x => x.resources
  | subscriber s => s.resources
  | bridgeProducer b => b.resources
  | bridgeConsumer c => c.resources

/-- The records of an object are proper. -/
def Valid (build : BuildConfig) : Owner → Prop
  | producing x => x.Valid build
  | subscriber s => s.Valid build
  | bridgeProducer b => b.Valid build
  | bridgeConsumer _ => True

/-- The FDs and pointers of an object are those of what is open. -/
def Backed (live : Multiset Resource) : Owner → Prop
  | producing x => x.Backed live
  | subscriber s => s.Backed live
  | bridgeProducer b => b.Backed live
  | bridgeConsumer c => c.Backed live

/-- The functions of every object. -/
def call (build : BuildConfig) (psz : ℕ) : OwnerCall → Owner → Option (Call (Option Owner))
  | e, producing x => (x.call build psz e).map fun prog => do return (← prog).map producing
  | .waitHandshake timeoutMs recv, subscriber s =>
      some (keeping (fun r => subscriber r.2) (s.waitHandshake build psz timeoutMs recv))
  | .drainFences delivered, subscriber s => some (keeping subscriber (s.drainFences delivered))
  | .destroy, subscriber s => some (ending (s.destroy build))
  | .pollNewConsumers pending, bridgeProducer b => some (keeping bridgeProducer (b.pollNewConsumers pending))
  | .destroy, bridgeProducer b => some (ending (b.destroy build))
  | .destroy, bridgeConsumer c => some (ending c.destroy)
  | _, _ => none

end Owner

/-- **The objects of a process**. -/
def ownerClass (build : BuildConfig) (psz : ℕ) :
    ObjectClass Globals (Option ℕ) Resource Owner OwnerCtor OwnerCall where
  owned := Owner.resources
  create
    | .pool cfg => do return (← PoolImpl.create build cfg).map fun pool => .producing ⟨pool, []⟩
    | .subscriber => return some (.subscriber .create)
    | .bridgeProducer cfg => do return (← BridgeProducer.create build cfg).map .bridgeProducer
    | .bridgeConsumer timeoutMs recv => do return (← BridgeConsumer.create timeoutMs recv).map .bridgeConsumer
  call := Owner.call build psz

variable {build : BuildConfig} {psz : ℕ}

/-! ### Every function accounts for its object -/

/-- What a function leaves of one kind of object. -/
theorem Accounts.of_kind {α : Type} {kind : α → Owner} {res : α → Multiset Resource} {valid : α → Prop}
    {pre : Multiset Resource} {prog : Call (Option α)} (hres : ∀ a, (kind a).resources = res a)
    (hvalid : ∀ a, valid a → (kind a).Valid build) (huses : Uses pre prog (optRes res))
    (hreturns : Returns prog fun r => ∀ a, r = some a → valid a) :
    (ownerClass build psz).Accounts (Owner.Valid build) pre (prog >>= fun r => pure (r.map kind)) := by
  refine ⟨huses.bind fun r => .pure ?_, hreturns.bind fun r hr => .pure fun o ho => ?_⟩
  · cases r with
    | none => rfl
    | some a => exact (hres a).symm
  · obtain ⟨a, ha, rfl⟩ := Option.map_eq_some_iff.mp ho
    exact hvalid a (hr a ha)

/-- A publisher that is kept. -/
theorem Producing.keeping_spec {x : Producing} {p : PublisherImpl} {prog : Call PublisherImpl}
    (h : Uses (p.resources + x.pool.resources) prog (fun p' => p'.resources + x.pool.resources) ∧
      Returns prog fun p' => p'.Cached x.pool) :
    Uses (p.resources + x.pool.resources) (keeping id prog)
        (fun p' => optRes PublisherImpl.resources p' + x.pool.resources) ∧
      Returns (keeping id prog) fun p' => ∀ q, p' = some q → q.Cached x.pool := by
  refine ⟨h.1.bind fun _ => .pure rfl, h.2.bind fun p' hp' => .pure fun q hq => ?_⟩
  obtain rfl := Option.some.inj hq
  exact hp'

/-- The functions that leave the pool and its publishers. -/
theorem Producing.kept {x : Producing} {prog : Call Producing}
    (h : Uses x.resources prog Producing.resources ∧ Returns prog (Producing.Valid build)) :
    Uses x.resources (keeping id prog) (optRes Producing.resources) ∧
      Returns (keeping id prog) fun r => ∀ x', r = some x' → x'.Valid build := by
  refine ⟨h.1.bind fun _ => .pure rfl, h.2.bind fun x' hx' => .pure fun x'' hx'' => ?_⟩
  obtain rfl := Option.some.inj hx''
  exact hx'

/-- **Every function of a pool and its publishers** accounts for what they own. -/
theorem Producing.call_spec {x : Producing} (hx : x.Valid build) {e : OwnerCall} {prog : Call (Option Producing)}
    (hcall : x.call build psz e = some prog) : Uses x.resources prog (optRes Producing.resources) ∧
      Returns prog fun r => ∀ x', r = some x' → x'.Valid build := by
  have hpool := hx.pool.allHeld
  -- calls on the pool first: the publishers stay, with caches no newer than the pool
  cases e with
  | retireAndReallocate n =>
      obtain rfl := Option.some.inj hcall
      obtain ⟨huses, hvalid⟩ := PoolImpl.retireAndReallocate_spec hx.pool n
      have hnext := hvalid.and (PoolImpl.retireAndReallocate_gen build x.pool n)
      refine Producing.kept (onPool_spec hx huses (hnext.mono fun pool hpool => ⟨hpool.1, fun p hp => ?_⟩))
      have hgen := hpool.2
      refine ⟨fun gen hcached => ?_, fun hcached => ?_⟩
      · exact (hp.le gen hcached).trans (hgen ▸ Nat.le_succ _)
      -- no publisher has cached the new generation yet
      · exact absurd (hp.le _ hcached) (by omega)
  | devicePtr index =>
      obtain rfl := Option.some.inj hcall
      obtain ⟨huses, hvalid⟩ := PoolImpl.devicePtr_spec hx.pool index
      refine Producing.kept (onPool_spec hx (huses.bind fun _ => .pure rfl) ?_)
      refine (hvalid.and (PoolImpl.devicePtr_returns build x.pool index)).bind fun r hr => .pure ⟨hr.1, fun p hp => ?_⟩
      obtain ⟨nvcudas, hnvcudas⟩ := hr.2
      rw [hnvcudas]
      exact ⟨hp.le, hp.poolFds⟩
  | createPublisher =>
      obtain rfl := Option.some.inj hcall
      exact Producing.kept (createPublisher_spec psz hx)
  -- calls on a publisher leave the pool as it is
  | handshakePool i pending =>
      obtain ⟨prog', hon, rfl⟩ := Option.map_eq_some_iff.mp hcall
      exact Producing.kept (on_spec hx hon fun p hp =>
        keeping_spec (PublisherImpl.handshakePool_spec psz hp pending hpool))
  | publish i desc fence pending =>
      obtain ⟨prog', hon, rfl⟩ := Option.map_eq_some_iff.mp hcall
      exact Producing.kept (on_spec hx hon fun p hp =>
        keeping_spec (PublisherImpl.publish_spec psz hp desc fence pending hpool))
  | reannouncePool i pending =>
      obtain ⟨prog', hon, rfl⟩ := Option.map_eq_some_iff.mp hcall
      exact Producing.kept (on_spec hx hon fun p hp =>
        keeping_spec (PublisherImpl.reannouncePool_spec psz hp pending hpool))
  | destroyPublisher i =>
      obtain ⟨prog', hon, rfl⟩ := Option.map_eq_some_iff.mp hcall
      refine Producing.kept (on_spec hx hon fun p _ => ⟨?_, (Returns.trivial _).bind fun _ _ => .pure (by simp)⟩)
      exact (p.destroy_uses.frame x.pool.resources).bind fun _ => .pure rfl
  | destroy =>
      obtain ⟨hgone, hprog⟩ := Option.ite_none_right_eq_some.mp hcall
      obtain rfl := Option.some.inj hprog
      refine ⟨?_, (Returns.trivial _).bind fun _ _ => .pure (by simp)⟩
      -- the pool is destroyed after its publishers, so nothing else is left
      have hres : x.resources = x.pool.resources := by
        have hnone : (x.publishers.map (optRes PublisherImpl.resources)).sum = 0 := by
          refine List.sum_eq_zero fun part hpart => ?_
          obtain ⟨p, hp, rfl⟩ := List.mem_map.mp hpart
          rw [Option.isNone_iff_eq_none.mp (List.all_eq_true.mp hgone p hp)]
          rfl
        rw [resources, hnone, add_zero]
      exact ((PoolImpl.destroy_uses hx.pool).of_pre_eq hres).bind fun _ => .pure rfl
  -- calls of other objects
  | waitHandshake timeoutMs recv => cases hcall
  | drainFences delivered => cases hcall
  | pollNewConsumers pending => cases hcall

/-- A new subscriber is a proper one. -/
theorem Impl.valid_create (build : BuildConfig) : Impl.create.Valid build :=
  ⟨fun _ => rfl, fun _ => rfl, by simp [Impl.create], by simp [Impl.create], rfl⟩

/-- **Every function** accounts for what its object owns. -/
theorem ownerClass_call {e : OwnerCall} {o : Owner} (ho : o.Valid build) {prog : Call (Option Owner)}
    (hcall : o.call build psz e = some prog) :
    (ownerClass build psz).Accounts (Owner.Valid build) o.resources prog := by
  cases o with
  | producing x =>
      obtain ⟨prog', hprog', rfl⟩ := Option.map_eq_some_iff.mp hcall
      obtain ⟨huses, hreturns⟩ := Producing.call_spec ho hprog'
      exact Accounts.of_kind (fun _ => rfl) (fun _ hx => hx) huses hreturns
  | subscriber s =>
      cases e with
      | waitHandshake timeoutMs recv =>
          obtain rfl := Option.some.inj hcall
          exact .keep (Impl.waitHandshake_uses psz ho timeoutMs recv) (fun _ => rfl)
            (Impl.waitHandshake_valid psz ho timeoutMs recv)
      | drainFences delivered =>
          obtain rfl := Option.some.inj hcall
          exact .keep (s.drainFences_uses delivered) (fun _ => rfl) (Impl.drainFences_valid ho delivered)
      | destroy =>
          obtain rfl := Option.some.inj hcall
          exact .gone (Impl.destroy_uses ho)
      -- the other calls are not those of a subscriber
      | _ => cases hcall
  | bridgeProducer b =>
      cases e with
      | pollNewConsumers pending =>
          obtain rfl := Option.some.inj hcall
          obtain ⟨huses, hvalid⟩ := BridgeProducer.pollNewConsumers_spec ho pending
          exact .keep huses (fun _ => rfl) hvalid
      | destroy =>
          obtain rfl := Option.some.inj hcall
          exact .gone (BridgeProducer.destroy_uses ho)
      | _ => cases hcall
  | bridgeConsumer c =>
      cases e with
      | destroy =>
          obtain rfl := Option.some.inj hcall
          exact .gone c.destroy_uses
      | _ => cases hcall

/-- **Every function accounts for its object**. -/
theorem ownerClass_sound (build : BuildConfig) (psz : ℕ) : (ownerClass build psz).Sound (Owner.Valid build) := by
  refine ⟨fun c => ?_, fun _ _ _ ho hcall => ownerClass_call ho hcall⟩
  cases c with
  | pool cfg =>
      obtain ⟨huses, hvalid⟩ := PoolImpl.create_spec build cfg
      exact Accounts.of_kind (fun pool => add_zero pool.resources) (fun pool hpool => ⟨hpool, by simp⟩) huses hvalid
  | subscriber =>
      -- a new subscriber holds nothing yet
      refine ⟨.pure Impl.resources_create.symm, .pure fun o ho => ?_⟩
      obtain rfl := Option.some.inj ho
      exact Impl.valid_create build
  | bridgeProducer cfg =>
      obtain ⟨huses, hvalid⟩ := BridgeProducer.create_spec build cfg
      exact Accounts.of_kind (fun _ => rfl) (fun _ hb => hb) huses hvalid
  | bridgeConsumer timeoutMs recv =>
      -- the views of a bridge consumer need no invariant
      have hany : Returns (BridgeConsumer.create timeoutMs recv) fun r => ∀ c, r = some c → True :=
        fun _ _ _ => trivial
      exact Accounts.of_kind (fun _ => rfl) (fun _ h => h) (BridgeConsumer.create_uses timeoutMs recv) hany

/-- **An object owns the memory behind its pointers.** -/
theorem Owner.Valid.backed {o : Owner} (ho : o.Valid build) {live : Multiset Resource} (hle : o.resources ≤ live) :
    o.Backed live := by
  cases o with
  | producing x => exact (Producing.Valid.backed ho).mono hle
  | subscriber s =>
      refine (Impl.Valid.backed ho).mono (le_trans ?_ hle)
      show s.bufferRes ≤ s.bufferRes + fdsRes s.fds + fenceRes s.fences + fdRes s.sock + slotRes s.metadata
      rw [add_assoc, add_assoc, add_assoc]
      exact Multiset.le_add_right _ _
  | bridgeProducer b => exact (BridgeProducer.Valid.backed ho).mono hle
  | bridgeConsumer c => exact fun v hv => Multiset.mem_of_le hle (c.backed v hv)

/-! ## Runs -/

variable {p₀ : Process} {tr : List (WorldEv OwnerCtor OwnerCall)} {w : World Globals (Option ℕ) Resource Owner}

/-- **A process releases everything it opens.** Over any series of calls of any number of pools, publishers,
subscribers and bridges, whichever of the calls below fail: beside what was open before, exactly what these objects own
is open; nothing is used, sent or released that is not open; and once all of them are destroyed, everything is as it
was. -/
theorem process_releases_everything (hexec : (ownerClass build psz).machine.exec ⟨[], p₀⟩ tr = some w) :
    w.kernel.live = p₀.live + (ownerClass build psz).ownedAll w.objects ∧ w.kernel.faults = p₀.faults ∧
      ((∀ o ∈ w.objects, o = none) → w.kernel.live = p₀.live) := by
  have hacc := (ownerClass_sound build psz).accounts hexec
  refine ⟨hacc.live, hacc.faults, fun hgone => ?_⟩
  rw [hacc.live, ownedAll_of_none _ hgone]
  exact add_zero _

/-- A Jetson with CUDA maps a surface for CUDA, announces its pool, attaches to another one, replaces its own pool and
announces it again, and goes. -/
def jetsonCalls : List (WorldEv OwnerCtor OwnerCall) :=
  let hdr : PoolHandshakeHeader := ⟨1, PoolBackend.NvBufSurface.toByte, 0, kWireVersion, 1, 1, 4096⟩
  [.create (.pool ⟨2, 0, .NvBufSurface, false, 64, 64, v4l2Fourcc 'G' 'R' 'E' 'Y'⟩), .call 0 .createPublisher,
    .call 0 (.devicePtr 1), .call 0 (.handshakePool 0 1), .create .subscriber,
    .call 1 (.waitHandshake 40 (.ok (hdr, [⟨5, ⟨1, 4096⟩⟩], [0]))), .call 1 (.drainFences [(7, ⟨9, ⟨9, 0⟩⟩)]),
    .call 0 (.retireAndReallocate 0), .call 0 (.reannouncePool 0 0), .call 1 .destroy,
    .call 0 (.destroyPublisher 0), .call 0 .destroy]

/-- The fortieth of these calls fails, and everything is released all the same. -/
theorem process_releases_everything_jetson : ∃ w,
    (ownerClass ⟨true, true⟩ 1).machine.exec ⟨[], refusing 40⟩ jetsonCalls = some w ∧
      w.kernel.live = {.fd (newFd 0 0)} ∧ w.kernel.faults = 0 := by
  have hgone : (((ownerClass ⟨true, true⟩ 1).machine.exec ⟨[], refusing 40⟩ jetsonCalls).map
      fun w => w.objects.all Option.isNone) = some true := by
    decide +kernel
  obtain ⟨w, hw, hnone⟩ := Option.map_eq_some_iff.mp hgone
  obtain ⟨-, hfaults, hlive⟩ := process_releases_everything hw
  exact ⟨w, hw, hlive fun o ho => Option.isNone_iff_eq_none.mp (List.all_eq_true.mp hnone o ho), hfaults⟩

end Axon.Device
