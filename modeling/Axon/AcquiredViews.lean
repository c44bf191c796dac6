import Axon.PoolFds

/-! # The views of acquired descriptors

`publish` stamps the pool's generation as it stands and has it announced, while the producer's own mappings
are made by `create` and `reannounce_pool` alone. `ownerMachine` is a producer next to the descriptors its
owner has acquired and not yet published.

* **`FrameOwner.Inv`**: the views map the buffers of the pool as it was when they were made; no buffer of a
  later generation has a view.
* **`writes_published_iff`**: a frame that is published lies in the buffer its view maps exactly when the
  pool has not been reallocated since the views were mapped and the view is still in place. -/

namespace Axon

open Foundation

/-- A producer and what its owner holds. -/
structure FrameOwner where
  producer : Producer
  /-- The descriptors acquired and not yet published. -/
  held : List AcquiredDescriptor
  /-- The generation of the pool when `map_views` was last called. -/
  mappedGen : PoolGeneration

/-- What an owner does who keeps descriptors before it publishes them. -/
inductive OwnerEv
  | acquire
  /-- `publish` of the descriptor at position `i`, filled in with `desc`. -/
  | publish (i : ℕ) (now : UInt64) (desc : TensorDescriptor) (syncFd : Option Fd)
  | producer (e : ProducerEv)

/-- The event acquires or publishes a frame. -/
def ProducerEv.isFrame : ProducerEv → Bool
  | acquire => true
  | publish .. => true
  | _ => false

/-- The event maps the views anew. -/
def ProducerEv.mapsViews : ProducerEv → Bool
  | reannounce => true
  | _ => false

namespace FrameOwner

/-- The descriptor to be published: the caller has filled it in, and left its index alone. -/
def filled (a : AcquiredDescriptor) (desc : TensorDescriptor) : AcquiredDescriptor := { a with desc := desc }

/-- One event. -/
def step (s : FrameOwner) : OwnerEv → Option FrameOwner
  | .acquire =>
      let (a, pub) := s.producer.pub.acquireDescriptor s.producer.pool
      some { s with producer := { s.producer with pub := pub }, held := s.held ++ [a] }
  | .publish i now desc syncFd =>
      (s.held[i]?).bind fun a =>
        (s.producer.step (.publish now (filled a desc) syncFd)).map fun p =>
          { s with producer := p, held := s.held.eraseIdx i }
  | .producer e =>
      if e.isFrame = true then none
      else (s.producer.step e).map fun p =>
        { s with producer := p, mappedGen := if e.mapsViews = true then p.pool.generation else s.mappedGen }

/-- **The bytes written through a view are the frame's**: the pool has a buffer at the handle of the published
descriptor, and the view is a mapping of that buffer. -/
def Writes (s : FrameOwner) (a : AcquiredDescriptor) (published : TensorDescriptor) : Prop :=
  ∃ (fd : Fd) (m : Mapping), s.producer.pool.dmaBufFds[published.boHandle]? = some fd ∧ a.hostView = some m ∧
    some m ∈ s.producer.pub.hostViews ∧ m.file = fd.file

/-- A `publish` that returns `0` has published, with the generation of the pool, a frame that lies in the
buffer its descriptor's view maps. -/
def PublishesWritten (s : FrameOwner) : OwnerEv → Prop
  | .publish i now desc syncFd => ∀ a p, s.held[i]? = some a →
      s.producer.pub.publish s.producer.pool now (filled a desc) syncFd = some (.ok (), p) →
      ∃ published, p.published = s.producer.pub.published ++ [published] ∧
        published.poolGeneration = s.producer.pool.generation ∧ s.Writes a published
  | _ => True

/-- The pool has not been reallocated since the views were mapped, and the view of a descriptor that is going
to be published is one of them. -/
def ViewInPlace (s : FrameOwner) : OwnerEv → Prop
  | .publish i _ desc _ => ∀ a, s.held[i]? = some a →
      s.producer.pub.check (filled a desc) = none →
      s.mappedGen = s.producer.pool.generation ∧ a.hostView ≠ none ∧
        s.producer.pub.hostViews[a.bufferIndex.toNat]? = some a.hostView
  | _ => True

/-- Whether the view is in place can be read off the state. -/
instance (s : FrameOwner) : (e : OwnerEv) → Decidable (s.ViewInPlace e)
  | .publish i _ desc _ => inferInstanceAs (Decidable (∀ a ∈ s.held[i]?,
      s.producer.pub.check (filled a desc) = none →
      s.mappedGen = s.producer.pool.generation ∧ a.hostView ≠ none ∧
        s.producer.pub.hostViews[a.bufferIndex.toNat]? = some a.hostView))
  | .acquire => isTrue trivial
  | .producer _ => isTrue trivial

end FrameOwner

/-- **The machine of a producer and the frames its owner holds.** -/
def ownerMachine : Machine FrameOwner OwnerEv where
  init s := (∃ build cfg sys, sys.Sound ∧ Producer.create build cfg sys = some s.producer) ∧ s.held = [] ∧
    s.mappedGen = s.producer.pool.generation
  step := FrameOwner.step

/-! ## The mappings -/

namespace TensorPublisher

/-- `mapBuffers` makes a view of each buffer, or none. -/
theorem mapBuffers_views (length : UInt64) (fds : List Fd) (sys : Sys) {i : ℕ} {m : Mapping}
    (h : (mapBuffers length fds sys).1[i]? = some (some m)) : ∃ fd, fds[i]? = some fd ∧ m.file = fd.file := by
  induction fds generalizing sys i with
  | nil => cases h
  | cons fd fds ih =>
      unfold mapBuffers at h
      cases i with
      | zero =>
          have hview := Option.some.inj h
          refine ⟨fd, rfl, ?_⟩
          split at hview
          · cases hview
            rfl
          · cases hview
      | succ i => exact ih sys.ask.2 h

/-- Caching the bundle leaves the views. -/
@[simp] theorem cachePool_hostViews (p : TensorPublisher) (pool : TensorPool) (force : Bool) :
    (p.cachePool pool force).hostViews = p.hostViews := by
  unfold cachePool
  split_ifs <;> rfl

/-- Sending a fence leaves the views. -/
theorem sendFence_hostViews {p p' : TensorPublisher} {desc : TensorDescriptor} {syncFd : Option Fd}
    (h : p.sendFence desc syncFd = some p') : p'.hostViews = p.hostViews := by
  obtain ⟨clients, rfl, -⟩ := sendFence_spec h
  rfl

/-- **`publish`** leaves the views. -/
theorem publish_hostViews {p p' : TensorPublisher} {pool : TensorPool} {now : UInt64}
    {d : AcquiredDescriptor} {syncFd : Option Fd} {res : Except Errno Unit}
    (h : p.publish pool now d syncFd = some (res, p')) : p'.hostViews = p.hostViews := by
  obtain ⟨e, -, -, rfl⟩ | ⟨-, -, p₁, r, hsend, -, rfl⟩ := publish_cases h
  · rfl
  · have hviews := sendFence_hostViews hsend
    exact (cachePool_hostViews (p₁.writeMeta (p.stamp pool now d)) pool false).trans hviews

/-- Only a buffer of the pool is acquired with a view. -/
theorem indexed_of_acquire {p : TensorPublisher} {pool : TensorPool}
    (h : (p.acquireDescriptor pool).1.hostView ≠ none) : 0 ≤ (p.acquireDescriptor pool).1.bufferIndex := by
  by_cases hempty : pool.dmaBufFds = []
  · rw [acquireDescriptor, if_pos hempty] at h
    exact absurd rfl h
  · rw [acquireDescriptor, if_neg hempty]
    exact Int.natCast_nonneg _

end TensorPublisher

/-- **What the views map**, made when the pool was in generation `gen`: its buffers, and none of a later
generation. -/
structure ViewsOf (p : Producer) (gen : PoolGeneration) : Prop where
  gen_le : gen ≤ p.pool.generation
  below : ∀ m : Mapping, some m ∈ p.pub.hostViews → m.file.id < p.sys.nextFd
  current : gen = p.pool.generation → ∀ (i : ℕ) (m : Mapping), p.pub.hostViews[i]? = some (some m) →
    ∃ fd : Fd, p.pool.dmaBufFds[i]? = some fd ∧ m.file = fd.file
  stale : gen < p.pool.generation → ∀ m : Mapping, some m ∈ p.pub.hostViews →
    ∀ fd ∈ p.pool.dmaBufFds, m.file ≠ fd.file

namespace ViewsOf

variable {p p' : Producer} {gen : PoolGeneration}

/-- Views that have just been mapped. -/
theorem of_mapped {length : UInt64} {sys : Sys} (hholds : p.pool.Holds p.sys)
    (hviews : p.pub.hostViews = (TensorPublisher.mapBuffers length p.pool.dmaBufFds sys).1) :
    ViewsOf p p.pool.generation := by
  refine ⟨le_rfl, fun m hm => ?_, fun _ i m hm => ?_, fun hlt => absurd hlt (lt_irrefl _)⟩
  · obtain ⟨i, hi⟩ := List.mem_iff_getElem?.mp hm
    rw [hviews] at hi
    obtain ⟨fd, hfd, hfile⟩ := TensorPublisher.mapBuffers_views length _ sys hi
    have hmem := List.mem_of_getElem? hfd
    rw [hfile, hholds.own_file fd hmem]
    exact hholds.owned fd (hholds.shared fd hmem)
  · rw [hviews] at hm
    exact TensorPublisher.mapBuffers_views length _ sys hm

/-- Only a reallocation and a `reannounce_pool` matter to the views. -/
theorem congr (h : ViewsOf p gen) (hpool : p'.pool = p.pool) (hsys : p'.sys = p.sys)
    (hviews : p'.pub.hostViews = p.pub.hostViews) : ViewsOf p' gen := by
  obtain ⟨hle, hbelow, hcurrent, hstale⟩ := h
  rw [← hpool, ← hviews] at hcurrent hstale
  rw [← hsys, ← hviews] at hbelow
  exact ⟨hpool ▸ hle, hbelow, hcurrent, hstale⟩

/-- **A reallocation leaves the views behind**: the buffers of the next generation are files of their own. -/
theorem reallocate (h : ViewsOf p gen) (hholds : p.pool.Holds p.sys) (n : UInt64) :
    ViewsOf { p with
      pool := (p.pool.retireAndReallocate n p.sys).1
      sys := (p.pool.retireAndReallocate n p.sys).2 } gen := by
  have hgen : (p.pool.retireAndReallocate n p.sys).1.generation = p.pool.generation + 1 :=
    p.pool.retireAndReallocate_gen n p.sys
  have hnext : (p.pool.freeAll p.sys).2.nextFd = p.sys.nextFd := (p.pool.freeAll_spec p.sys).1
  obtain ⟨hlater, hnew, hfresh⟩ := TensorPool.retireAndReallocate_spec hholds n
  have hlt : gen < (p.pool.retireAndReallocate n p.sys).1.generation :=
    hgen ▸ Nat.lt_succ_of_le h.gen_le
  refine ⟨hlt.le, fun m hm => ?_, fun heq => absurd heq hlt.ne, fun _ m hm fd hfd heq => ?_⟩
  -- the views mapped before lie below every address that has been handed out since
  · exact (h.below m hm).trans_le (hnext.ge.trans hlater.nextFd)
  -- a new buffer has a file of its own, with a number not yet given when the view was mapped
  · have hbelow := h.below m hm
    have hid : fd.file.id = fd.num := hnew.own_file fd hfd
    have hge := hfresh fd hfd
    rw [heq, hid] at hbelow
    omega

/-- **Everything a producer does keeps track of the views.** -/
theorem step (h : ViewsOf p gen) (hholds : p.pool.Holds p.sys) {e : ProducerEv} (hs : p.step e = some p') :
    ViewsOf p' (if e.mapsViews = true then p'.pool.generation else gen) := by
  have hholds' := Producer.holds_of_step hholds hs
  cases e with
  -- `reannounce` is the only operation that maps the views again
  | reannounce =>
      obtain ⟨⟨k, r⟩, hr, rfl⟩ := Option.map_eq_some_iff.mp hs
      obtain ⟨rb, ra, -, -, rfl⟩ := TensorPublisher.reannounce_cases hr
      exact .of_mapped hholds'
        (TensorPublisher.cachePool_hostViews (p.pub.mapViews p.pool p.sys).1 p.pool true)
  | reallocate n =>
      obtain rfl : { p with
        pool := (p.pool.retireAndReallocate n p.sys).1
        sys := (p.pool.retireAndReallocate n p.sys).2 } = p' := Option.some.inj hs
      exact h.reallocate hholds n
  | handshake =>
      obtain ⟨r, hr, rfl⟩ := Option.map_eq_some_iff.mp hs
      obtain ⟨r', -, rfl⟩ := Option.map_eq_some_iff.mp hr
      exact h.congr rfl rfl (TensorPublisher.cachePool_hostViews p.pub p.pool false)
  | publish now d syncFd =>
      obtain ⟨⟨res, pub⟩, hr, rfl⟩ := Option.map_eq_some_iff.mp hs
      exact h.congr rfl rfl (TensorPublisher.publish_hostViews hr)
  | acquire =>
      obtain rfl := Option.some.inj hs
      refine h.congr rfl rfl ?_
      unfold TensorPublisher.acquireDescriptor
      split_ifs <;> rfl
  | connect | acceptFails | read | hangup =>
      obtain rfl := Option.some.inj hs
      exact h.congr rfl rfl rfl

end ViewsOf

namespace TensorPublisher

/-- A new publisher has mapped its pool's buffers. -/
theorem views_of_create {pool : TensorPool} {sys sys' : Sys} {p : TensorPublisher}
    (h : create pool sys = (.ok p, sys')) :
    ∃ length sys₁, p.hostViews = (mapBuffers length pool.dmaBufFds sys₁).1 := by
  unfold create at h
  dsimp only at h
  split_ifs at h
  · cases h
  · cases h
  · split at h
    · cases h
    · split at h
      · cases h
      · cases h
        exact ⟨_, _, rfl⟩

end TensorPublisher

namespace FrameOwner

variable {s s' : FrameOwner}

/-- **The invariant**: the pool's FDs are in order, the views are of generation `mapped_gen`, and only a
descriptor with a buffer has a view. -/
structure Inv (s : FrameOwner) : Prop where
  holds : s.producer.pool.Holds s.producer.sys
  views : ViewsOf s.producer s.mappedGen
  indexed : ∀ a ∈ s.held, a.hostView ≠ none → 0 ≤ a.bufferIndex

/-- At the beginning no descriptor is held. -/
theorem Inv.of_init (h : ownerMachine.init s) : s.Inv := by
  obtain ⟨⟨build, cfg, sys, hsound, hcreate⟩, hheld, hgen⟩ := h
  have hholds := Producer.holds_of_create hsound hcreate
  refine ⟨hholds, ?_, ?_⟩
  · rw [hgen]
    obtain ⟨sys₁, -, hpub⟩ := Producer.create_parts hcreate
    obtain ⟨length, sys₂, hviews⟩ := TensorPublisher.views_of_create hpub
    exact .of_mapped hholds hviews
  · rw [hheld]
    exact fun a ha => absurd ha List.not_mem_nil

/-- **A step keeps the invariant.** -/
theorem Inv.step {e : OwnerEv} (h : s.Inv) (hs : s.step e = some s') : s'.Inv := by
  cases e with
  | acquire =>
      obtain rfl := Option.some.inj hs
      refine ⟨h.holds, h.views.step h.holds (e := .acquire) rfl, fun a ha hview => ?_⟩
      rcases List.mem_append.mp ha with ha | ha
      · exact h.indexed a ha hview
      · rw [List.mem_singleton.mp ha] at hview ⊢
        exact TensorPublisher.indexed_of_acquire hview
  | publish i now desc syncFd =>
      obtain ⟨a, -, hs⟩ := Option.bind_eq_some_iff.mp hs
      -- a publish takes one descriptor out of those held
      obtain ⟨p, hp, rfl⟩ := Option.map_eq_some_iff.mp hs
      exact ⟨Producer.holds_of_step h.holds hp, h.views.step h.holds hp,
        fun a ha => h.indexed a (List.mem_of_mem_eraseIdx ha)⟩
  | producer e =>
      dsimp only [FrameOwner.step] at hs
      -- acquiring and publishing are events of their own here, so this one is another operation
      by_cases hframe : e.isFrame = true
      · rw [if_pos hframe] at hs
        cases hs
      · rw [if_neg hframe] at hs
        obtain ⟨p, hp, rfl⟩ := Option.map_eq_some_iff.mp hs
        exact ⟨Producer.holds_of_step h.holds hp, h.views.step h.holds hp, h.indexed⟩

/-- **When a published frame lies in the buffer its view maps.** -/
theorem writes_iff (h : s.Inv) {a : AcquiredDescriptor} (ha : a ∈ s.held) (now : UInt64)
    (desc : TensorDescriptor) :
    s.Writes a (s.producer.pub.stamp s.producer.pool now (filled a desc)) ↔
      s.mappedGen = s.producer.pool.generation ∧ a.hostView ≠ none ∧
        s.producer.pub.hostViews[a.bufferIndex.toNat]? = some a.hostView := by
  have hhandle : a.hostView ≠ none →
      (s.producer.pub.stamp s.producer.pool now (filled a desc)).boHandle = a.bufferIndex.toNat :=
    fun hview => if_pos (h.indexed a ha hview)
  constructor
  · rintro ⟨fd, m, hfd, hview, hmem, hfile⟩
    have hne : a.hostView ≠ none := by
      rw [hview]
      exact nofun
    rw [hhandle hne] at hfd
    have hgen : s.mappedGen = s.producer.pool.generation := by
      by_contra hgen
      have hlt := lt_of_le_of_ne h.views.gen_le hgen
      exact h.views.stale hlt m hmem fd (List.mem_of_getElem? hfd) hfile
    refine ⟨hgen, hne, ?_⟩
    -- the view is that of some buffer, and no other buffer has its file
    obtain ⟨j, hj⟩ := List.mem_iff_getElem?.mp hmem
    obtain ⟨fd', hfd', hfile'⟩ := h.views.current hgen j m hj
    have hfiles : (s.producer.pool.dmaBufFds.map (·.file))[j]? =
        (s.producer.pool.dmaBufFds.map (·.file))[a.bufferIndex.toNat]? := by
      rw [List.getElem?_map, List.getElem?_map, hfd, hfd', Option.map_some, Option.map_some, ← hfile', ← hfile]
    have hlt : j < (s.producer.pool.dmaBufFds.map (·.file)).length := by
      rw [List.length_map]
      exact (List.getElem?_eq_some_iff.mp hfd').1
    obtain rfl := (List.getElem?_inj hlt h.holds.nodup_files).mp hfiles
    rw [hj, hview]
  · rintro ⟨hgen, hne, hplace⟩
    obtain ⟨m, hview⟩ := Option.ne_none_iff_exists'.mp hne
    rw [hview] at hplace
    obtain ⟨fd, hfd, hfile⟩ := h.views.current hgen _ m hplace
    refine ⟨fd, m, ?_, hview, List.mem_of_getElem? hplace, hfile⟩
    rw [hhandle hne]
    exact hfd

end FrameOwner

/-- **The producer writes into the buffer it publishes** exactly when the views are current: in every
execution, each `publish` that returns `0` publishes a frame that lies in the buffer its view maps if and only
if each finds the pool not reallocated since the views were mapped, and the view of its descriptor, not null,
still in place. -/
theorem writes_published_iff {s₀ s : FrameOwner} {tr : List OwnerEv} (h₀ : ownerMachine.init s₀)
    (hexec : ownerMachine.exec s₀ tr = some s) :
    ownerMachine.Meets FrameOwner.PublishesWritten s₀ tr ↔ ownerMachine.Meets FrameOwner.ViewInPlace s₀ tr := by
  refine Machine.meets_iff hexec (P := FrameOwner.Inv) (.of_init h₀) (fun _ _ _ h hs => h.step hs) ?_
  intro s e s' hinv hs
  cases e with
  | acquire => exact Iff.rfl
  | producer e => exact Iff.rfl
  | publish i now desc syncFd =>
      constructor
      · intro hwritten a ha hcheck
        obtain ⟨a', ha', hs⟩ := Option.bind_eq_some_iff.mp hs
        obtain rfl := Option.some.inj (ha.symm.trans ha')
        obtain ⟨p, hp, rfl⟩ := Option.map_eq_some_iff.mp hs
        obtain ⟨⟨res, pub⟩, hr, rfl⟩ := Option.map_eq_some_iff.mp hp
        -- a descriptor that passes the check is published
        have hok : res = .ok () := by
          obtain ⟨err, herr, -⟩ | ⟨-, hok, -⟩ := TensorPublisher.publish_cases hr
          · cases hcheck.symm.trans herr
          · exact hok
        subst hok
        obtain ⟨published, hpublished, -, hwrites⟩ := hwritten a pub ha hr
        have hstamp := (TensorPublisher.published_of_publish hr).symm.trans hpublished
        rw [← List.singleton_inj.mp (List.append_cancel_left hstamp)] at hwrites
        exact (FrameOwner.writes_iff hinv (List.mem_of_getElem? ha) now desc).mp hwrites
      · intro hplace a p ha hpublish
        have hcheck := TensorPublisher.check_of_publish_ok hpublish
        exact ⟨_, TensorPublisher.published_of_publish hpublish, rfl,
          (FrameOwner.writes_iff hinv (List.mem_of_getElem? ha) now desc).mpr (hplace a ha hcheck)⟩

/-- A frame that fills the descriptor at position `0`. -/
def publishFirst : OwnerEv := .publish 0 0 (AcquiredDescriptor.bytesFrame 16 .None).desc none

/-- A reallocation between `acquire_descriptor` and `publish`: the frame is published in a buffer that the view
does not map. -/
theorem reallocation_strands_view : ∃ (s : FrameOwner) (a : AcquiredDescriptor) (p : TensorPublisher),
    ownerMachine.Run [.acquire, .producer (.reallocate 8192)] s ∧ s.held[0]? = some a ∧
    s.producer.pub.publish s.producer.pool 0
      (FrameOwner.filled a (AcquiredDescriptor.bytesFrame 16 .None).desc) none = some (.ok (), p) ∧
    p.published.map (·.poolGeneration) = [2] ∧
    ∀ fd ∈ s.producer.pool.dmaBufFds, a.hostView.map Mapping.file ≠ some fd.file := by
  have hcreate : ∃ p, Producer.create ⟨false, false⟩ (.oneBuffer 4096) .obliging = some p := ⟨_, rfl⟩
  obtain ⟨p₀, hcreate⟩ := hcreate
  -- the view that was acquired still maps the file of the pool before
  have hexec : ((ownerMachine.exec ⟨p₀, [], p₀.pool.generation⟩ [.acquire, .producer (.reallocate 8192)]).bind
      fun s => (s.held[0]?).bind fun a => (s.producer.pub.publish s.producer.pool 0
        (FrameOwner.filled a (AcquiredDescriptor.bytesFrame 16 .None).desc) none).map fun r =>
          (r.1.toOption, r.2.published.map (·.poolGeneration),
            decide (∀ fd ∈ s.producer.pool.dmaBufFds, a.hostView.map Mapping.file ≠ some fd.file))) =
      some (some (), [2], true) := by
    cases hcreate
    decide +kernel
  obtain ⟨s, hs, hres⟩ := Option.bind_eq_some_iff.mp hexec
  obtain ⟨a, ha, hres⟩ := Option.bind_eq_some_iff.mp hres
  obtain ⟨⟨res, p⟩, hpublish, hres⟩ := Option.map_eq_some_iff.mp hres
  simp only [Prod.mk.injEq] at hres
  obtain ⟨hok, hgen, hstranded⟩ := hres
  obtain rfl : res = .ok () := by
    cases res with
    | error e => cases hok
    | ok u => rfl
  exact ⟨s, a, p, .of_exec ⟨⟨_, _, _, Sys.sound_obliging, hcreate⟩, rfl, rfl⟩ hs, ha, hpublish, hgen,
    of_decide_eq_true hstranded⟩

/-- A reallocation that is announced before the next `acquire_descriptor`. -/
def announcedReallocation : List OwnerEv :=
  [.acquire, publishFirst, .producer (.reallocate 8192), .producer .reannounce, .acquire, publishFirst]

/-- Both frames of an announced reallocation are written where they are published. -/
theorem writes_published_iff_announced : ∃ s₀ s : FrameOwner,
    ownerMachine.exec s₀ announcedReallocation = some s ∧ s.producer.pub.published.length = 2 ∧
    ownerMachine.Meets FrameOwner.PublishesWritten s₀ announcedReallocation := by
  have hcreate : ∃ p, Producer.create ⟨false, false⟩ (.oneBuffer 4096) .obliging = some p := ⟨_, rfl⟩
  obtain ⟨p₀, hcreate⟩ := hcreate
  have hexec : (ownerMachine.exec ⟨p₀, [], p₀.pool.generation⟩ announcedReallocation).map
      (·.producer.pub.published.length) = some 2 := by
    cases hcreate
    decide +kernel
  have hplace : ownerMachine.Meets FrameOwner.ViewInPlace ⟨p₀, [], p₀.pool.generation⟩
      announcedReallocation := by
    cases hcreate
    decide +kernel
  obtain ⟨s, hs, hlen⟩ := Option.map_eq_some_iff.mp hexec
  exact ⟨_, s, hs, hlen,
    (writes_published_iff ⟨⟨_, _, _, Sys.sound_obliging, hcreate⟩, rfl, rfl⟩ hs).mpr hplace⟩

end Axon
