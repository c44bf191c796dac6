import Axon.Foundation.Replacement
import Axon.HandshakeTruncation
import Axon.PoolFds

/-! # The image_transport plugin

The ROS1 plugin sends images through a pool of its own: `AxonPublisher` copies each frame into a buffer and
publishes a message that names it, and `AxonSubscriber` copies the frame out of its own mapping of the buffer. A
frame that does not fit is given a new pool, while a subscriber stays attached to the pool of its first message.

* **`BridgeProducer`** and **`BridgeConsumer`** are the two ends of `axon_bridge.h`.
* **`image_copies_safe_iff`** says in which runs every copy comes out of the buffer that its frame was written to. -/

namespace Axon

open Foundation

/-! ## `axon_bridge.h` -/

/-- **`axon_bridge::Producer`**: a pool with all its buffers mapped, and the server that announces it. -/
structure BridgeProducer where
  pool : TensorPool
  views : List Mapping
  /-- The size that was asked for, before the pool rounded it up. -/
  bufferSize : UInt64

namespace BridgeProducer

/-- Map every buffer, up to the first failure. -/
def mapViews (bufferSize : UInt64) : List Fd → Sys → Option (List Mapping) × Sys
  | [], sys => (some [], sys)
  | fd :: fds, sys =>
      match sys.ask with  -- mmap
      | (.error _, sys) => (none, sys)
      | (.ok base, sys) =>
          match mapViews bufferSize fds sys with
          | (none, sys) => (none, sys)
          | (some views, sys) => (some (⟨base, fd.file, bufferSize⟩ :: views), sys)

/-- **`create`**. Where it fails, the pool goes again. -/
def create (build : BuildConfig) (nBuffers : ℕ) (bufferSize : UInt64) (backend : PoolBackend) (sys : Sys) :
    Option BridgeProducer × Sys :=
  match TensorPool.create build ⟨nBuffers, bufferSize, backend, none⟩ sys with
  | (none, sys) => (none, sys)
  | (some pool, sys) =>
      match mapViews bufferSize pool.dmaBufFds sys with
      | (none, sys) => (none, (pool.freeAll sys).2)
      | (some views, sys) =>
          match sys.ask with  -- SidecarServer::create
          | (.error _, sys) => (none, (pool.freeAll sys).2)
          | (.ok _, sys) => (some ⟨pool, views, bufferSize⟩, sys)

/-- `~Producer`. -/
def destroy (p : BridgeProducer) (sys : Sys) : Sys := (p.pool.freeAll sys).2

/-- `buffer`: the view of one buffer. -/
def buffer (p : BridgeProducer) (i : ℕ) : Option Mapping := p.views[i]?

/-- `buffer_count`. -/
def bufferCount (p : BridgeProducer) : ℕ := p.views.length

/-- `pool_generation`. -/
def poolGeneration (p : BridgeProducer) : UInt32 := .ofNat p.pool.generation

/-- What `set_pool` is given. -/
def bundle (p : BridgeProducer) : PoolBundle where
  fds := p.pool.dmaBufFds
  poolGeneration := p.poolGeneration
  bufferSize := p.bufferSize
  wireVersion := kWireVersion
  backend := p.pool.backend.toByte
  ext := []

end BridgeProducer

/-- **`axon_bridge::Consumer`**: the mapped buffers of the pool it attached to. -/
structure BridgeConsumer where
  views : List (Option Mapping)
  bufferSize : UInt64
  poolGeneration : UInt32

namespace BridgeConsumer

/-- **`create`** on a connection that has been made and on which `stream` arrives; `mmap` says which buffers can
be mapped. -/
def create (stream : List Segment) (mmap : ℕ → Bool) : Option BridgeConsumer :=
  match (SidecarClient.onStream stream 0).recvPoolHandshake with
  | (.error _, _) => none
  | (.ok (hdr, fds, _), _) =>
      some
        { views := TensorSubscriber.mapFds 0 fds fun i => if mmap i = true then some hdr.bufferSize else none
          bufferSize := hdr.bufferSize
          poolGeneration := hdr.poolGeneration }

/-- **`payload`**: a pointer into a mapped buffer. Only the handle is checked. -/
def payload (c : BridgeConsumer) (boHandle : BoHandle) (offset : UInt64) : Option (Mapping × UInt64) :=
  c.views[boHandle]?.join.map fun view => (view, offset)

end BridgeConsumer

/-! ## The plugin -/

/-- What a `sensor_msgs::Image` and its `AxonImage` both carry. -/
structure ImageInfo (Header : Type) where
  header : Header
  height : UInt32
  width : UInt32
  encoding : String
  isBigendian : UInt8
  step : UInt32

/-- `sensor_msgs::Image`. -/
structure Image (Header : Type) where
  info : ImageInfo Header
  data : List UInt8

/-- `AxonImage.msg`. -/
structure AxonImage (Header : Type) where
  info : ImageInfo Header
  boHandle : BoHandle
  seqno : SeqNo
  poolGeneration : UInt32
  offset : UInt64
  size : UInt64

variable {Header : Type}

/-- The bytes of a frame, a product of two 32-bit numbers. -/
def ImageInfo.frameBytes (info : ImageInfo Header) : UInt64 := info.step.toUInt64 * info.height.toUInt64

/-- The publisher plugin: its producer, if there is one yet. -/
structure AxonPublisher where
  sys : Sys
  producer : Option BridgeProducer
  seqno : SeqNo

/-- A message, and the publisher's copy of its frame: into which buffer, and how many bytes. -/
structure Published (Header : Type) where
  msg : AxonImage Header
  buffer : Option Mapping
  bytes : ℕ

namespace AxonPublisher

/-- Assign a new producer to `producer_`: it is created before the old one is destroyed. -/
def recreate (p : AxonPublisher) (build : BuildConfig) (frameBytes : UInt64) : AxonPublisher :=
  let (new, sys) := BridgeProducer.create build 8 frameBytes .Custom p.sys
  { p with
    producer := new
    sys := match p.producer with
      | some old => old.destroy sys
      | none => sys }

/-- (Re)create the pool, sized to the frame. -/
def fitProducer (p : AxonPublisher) (build : BuildConfig) (frameBytes : UInt64) : AxonPublisher :=
  match p.producer with
  | none => p.recreate build frameBytes
  | some prod => if prod.bufferSize < frameBytes then p.recreate build frameBytes else p

/-- **`publish`**. The result is what is published, if anything. -/
def publish (p : AxonPublisher) (build : BuildConfig) (image : Image Header) :
    Option (Published Header) × AxonPublisher :=
  let frameBytes := image.info.frameBytes
  if frameBytes = 0 then (none, p)
  else
    let p := p.fitProducer build frameBytes
    match p.producer with
    | none => (none, p)
    | some prod =>
        let seqno := p.seqno + 1
        let idx := seqno % prod.bufferCount
        let m : AxonImage Header :=
          { info := image.info
            boHandle := idx
            seqno := seqno
            poolGeneration := prod.poolGeneration
            offset := 0
            size := frameBytes }
        (some ⟨m, prod.buffer idx, min frameBytes.toNat image.data.length⟩, { p with seqno := seqno })

end AxonPublisher

/-- The image passed to the user: the subscriber's copy of `size` bytes from `offset` on out of a mapping. -/
structure CopiedImage (Header : Type) where
  info : ImageInfo Header
  view : Mapping
  offset : UInt64
  size : UInt64

/-- **`internalCallback`**, of a subscriber that is attached. -/
def BridgeConsumer.internalCallback (c : BridgeConsumer) (m : AxonImage Header) : Option (CopiedImage Header) :=
  if m.poolGeneration ≠ c.poolGeneration then none
  else
    match c.payload m.boHandle m.offset with
    | none => none
    | some (view, offset) => some ⟨m.info, view, offset, m.size⟩

/-! ## A topic -/

/-- A publisher of images and a subscriber, with what has happened so far. -/
structure ImageTopic (Header : Type) where
  pub : AxonPublisher
  /-- The frame of each call of `publish`, and the producer that the call left in use. -/
  calls : List (UInt64 × Option BridgeProducer)
  /-- What has been published, each in which call. -/
  sent : List (Published Header × ℕ)
  /-- What the subscriber is attached to, and which call served its connection. -/
  attached : Option (ℕ × BridgeConsumer)

/-- How an attachment goes: the publisher serves the connection in a call behind the one whose message the
subscriber is called back with, the kernel installs the first FDs, and the buffers can be mapped or not. -/
structure AttachAnswers where
  after : ℕ
  installed : ℕ
  mmap : ℕ → Bool

/-- What happens on an image topic. -/
inductive ImageTopicEv (Header : Type)
  | publish (image : Image Header)
  /-- `internalCallback` with the `n`-th message; `none` when an attachment fails. -/
  | deliver (n : ℕ) (ans : Option AttachAnswers)

namespace ImageTopic

/-- The producer on which a call of `publish` accepts connections. -/
def servedIn (s : ImageTopic Header) (k : ℕ) : Option BridgeProducer :=
  match s.calls[k]? with
  | none => none
  | some (frameBytes, producer) => if frameBytes = 0 then none else producer

/-- The subscriber's attachment in `internalCallback`, made now unless there is one. -/
def attach (s : ImageTopic Header) (call : ℕ) (ans : Option AttachAnswers) : Option (ℕ × BridgeConsumer) :=
  match s.attached with
  | some a => some a
  | none =>
      ans.bind fun a => (s.servedIn (call + 1 + a.after)).bind fun prod =>
        (BridgeConsumer.create (prod.bundle.delivered a.installed []) a.mmap).map fun c => (call + 1 + a.after, c)

/-- One step of the topic. -/
def step (build : BuildConfig) (s : ImageTopic Header) : ImageTopicEv Header → Option (ImageTopic Header)
  | .publish image =>
      let (published, pub) := s.pub.publish build image
      some
        { s with
          pub := pub
          calls := s.calls ++ [(image.info.frameBytes, pub.producer)]
          sent := s.sent ++ (published.map fun m => (m, s.calls.length)).toList }
  | .deliver n ans => s.sent[n]?.map fun m => { s with attached := s.attach m.2 ans }

/-- A topic on a system in any state, before anything was published. -/
def start (sys : Sys) : ImageTopic Header := ⟨⟨sys, none, 0⟩, [], [], none⟩

/-- **The copies of an event are safe**: the bytes copied are inside the subscriber's mapping, and it maps the
buffer that the publisher has copied the frame to. -/
def CopiesSafely (s : ImageTopic Header) : ImageTopicEv Header → Prop
  | .publish _ => True
  | .deliver n ans =>
      ∀ m ∈ s.sent[n]?, ∀ a ∈ s.attach m.2 ans, ∀ img ∈ a.2.internalCallback m.1.msg,
        img.offset.toNat + img.size.toNat ≤ img.view.length.toNat ∧
          m.1.buffer.map (·.file) = some img.view.file

/-- **The frames of the calls between two calls fit** the buffers of the earlier one. -/
def FramesFit (s : ImageTopic Header) (i j : ℕ) : Prop :=
  ∀ prod ∈ resourceAt s.calls (min i j), ∀ x ∈ since s.calls (min i j) (max i j), x.1 ≤ prod.bufferSize

/-- **The pool was kept**: a message is handled with a mapping of its buffer only if all frames between the call
that published it and the call that served the subscriber's connection fitted. -/
def PoolKept (s : ImageTopic Header) : ImageTopicEv Header → Prop
  | .publish _ => True
  | .deliver n ans =>
      ∀ m ∈ s.sent[n]?, ∀ a ∈ s.attach m.2 ans,
        a.2.payload m.1.msg.boHandle m.1.msg.offset = none ∨ s.FramesFit m.2 a.1

/-- Whether the frames fit is a comparison of sizes. -/
instance (s : ImageTopic Header) (i j : ℕ) : Decidable (s.FramesFit i j) :=
  inferInstanceAs (Decidable (∀ prod ∈ resourceAt s.calls (min i j),
    ∀ x ∈ since s.calls (min i j) (max i j), x.1 ≤ prod.bufferSize))

/-- Whether the pool is still the one announced can be read off a step. -/
instance (s : ImageTopic Header) : (e : ImageTopicEv Header) → Decidable (s.PoolKept e)
  | .publish _ => isTrue trivial
  | .deliver n ans =>
      inferInstanceAs (Decidable (∀ m ∈ s.sent[n]?, ∀ a ∈ s.attach m.2 ans,
        a.2.payload m.1.msg.boHandle m.1.msg.offset = none ∨ s.FramesFit m.2 a.1))

end ImageTopic

/-- **A topic of the transport**, on a system that has closed no FD before it was opened. -/
def imageTopicMachine (build : BuildConfig) : Machine (ImageTopic Header) (ImageTopicEv Header) where
  init s := ∃ sys : Sys, sys.Sound ∧ s = .start sys
  step := ImageTopic.step build

/-! ## The bridge -/

namespace BridgeProducer

variable {p q : BridgeProducer} {s s' : Sys}

/-- **A producer as it is made**: eight new files, all mapped, in their first generation. -/
structure Made (p : BridgeProducer) (s : Sys) : Prop where
  length : p.pool.dmaBufFds.length = 8
  generation : p.pool.generation = 1
  views : p.views.map (·.file) = p.pool.dmaBufFds.map (·.file)
  own_file : ∀ fd ∈ p.pool.dmaBufFds, fd.file.id = fd.num
  owned : ∀ fd, p.pool.Owns fd → fd.num < s.nextFd
  shared : ∀ fd ∈ p.pool.dmaBufFds, p.pool.Owns fd

/-- A producer was made before any later state, too. -/
theorem Made.later (h : p.Made s) (hle : s.nextFd ≤ s'.nextFd) : p.Made s' :=
  { h with owned := fun fd hfd => (h.owned fd hfd).trans_le hle }

/-- The second producer was made after the first. -/
def Newer (p q : BridgeProducer) : Prop :=
  ∀ fd ∈ p.pool.dmaBufFds, ∀ fd' ∈ q.pool.dmaBufFds, fd.num < fd'.num

/-- Mapping the views closes nothing, and each is of its buffer's file. -/
theorem mapViews_spec (bufferSize : UInt64) (fds : List Fd) (s : Sys) :
    s.Later (mapViews bufferSize fds s).2 ∧ ∀ views, (mapViews bufferSize fds s).1 = some views →
      views.map (·.file) = fds.map (·.file) := by
  -- on the FDs; each step asks once, and a failure ends the loop
  induction fds generalizing s with
  | nil =>
      refine ⟨.refl s, fun views hviews => ?_⟩
      cases hviews
      rfl
  | cons fd fds ih =>
      unfold mapViews
      split
      · rename_i e sys heq
        obtain rfl := Sys.of_ask_eq heq
        exact ⟨.ask s, nofun⟩
      · rename_i base sys heq
        obtain rfl := Sys.of_ask_eq heq
        obtain ⟨hlater, hfiles⟩ := ih s.ask.2
        split
        · rename_i sys heq
          rw [heq] at hlater
          exact ⟨(Sys.Later.ask s).trans hlater, nofun⟩
        · rename_i views sys heq
          rw [heq] at hlater hfiles
          refine ⟨(Sys.Later.ask s).trans hlater, fun all hall => ?_⟩
          cases hall
          rw [List.map_cons, List.map_cons, hfiles views rfl]

/-- **What `create` makes**, for eight buffers. -/
theorem create_spec (hs : s.Sound) (build : BuildConfig) (size : UInt64) :
    (create build 8 size .Custom s).2.Sound ∧ s.nextFd ≤ (create build 8 size .Custom s).2.nextFd ∧
      ∀ p, (create build 8 size .Custom s).1 = some p →
        p.Made (create build 8 size .Custom s).2 ∧ p.bufferSize = size ∧
          ∀ fd ∈ p.pool.dmaBufFds, s.nextFd ≤ fd.num := by
  obtain ⟨hlater, hmade⟩ := TensorPool.create_fresh hs build ⟨8, size, .Custom, none⟩
  unfold create
  -- each failure frees the pool again, which gives out no new FD
  split
  · rename_i sys heq
    rw [heq] at hlater
    exact ⟨hlater.sound hs, hlater.nextFd, nofun⟩
  · rename_i pool sys heq
    have hgen := TensorPool.gen_of_create heq
    have hlength := (TensorPool.length_of_create hs heq).1
    rw [heq] at hlater hmade
    obtain ⟨hholds, hnew⟩ := hmade pool rfl
    obtain ⟨hmapped, hviews⟩ := mapViews_spec size pool.dmaBufFds sys
    split
    · rename_i sys' heq'
      rw [heq'] at hmapped
      obtain ⟨hsound, hnext⟩ := TensorPool.sound_freeAll (hmapped.sound hholds.sound)
        (hholds.later hmapped).owned
      exact ⟨hsound, (hlater.trans hmapped).nextFd.trans hnext.ge, nofun⟩
    · rename_i views sys' heq'
      rw [heq'] at hmapped hviews
      have hasked := hmapped.trans (.ask sys')
      split
      · rename_i e sys'' heq''
        obtain rfl := Sys.of_ask_eq heq''
        obtain ⟨hsound, hnext⟩ := TensorPool.sound_freeAll (hasked.sound hholds.sound)
          (hholds.later hasked).owned
        exact ⟨hsound, (hlater.trans hasked).nextFd.trans hnext.ge, nofun⟩
      -- the pool is as it was made, with its FDs open
      · rename_i n sys'' heq''
        obtain rfl := Sys.of_ask_eq heq''
        have hheld := hholds.later hasked
        refine ⟨hheld.sound, (hlater.trans hasked).nextFd, fun p hp => ?_⟩
        cases hp
        exact ⟨⟨hlength, hgen, hviews views rfl, hheld.own_file, hheld.owned, hheld.shared⟩, rfl, hnew⟩

/-- The bundle fits into a message. -/
theorem Made.carriable (h : p.Made s) : p.bundle.Carriable := by
  constructor
  · show p.pool.dmaBufFds.length ≤ kMaxSidecarFds
    rw [h.length]
    decide
  · exact Nat.zero_le _

/-- The buffer of a handle is mapped, and a file of the pool. -/
theorem Made.buffer (h : p.Made s) {i : ℕ} (hi : i < 8) :
    ∃ (view : Mapping) (fd : Fd), p.buffer i = some view ∧ p.pool.dmaBufFds[i]? = some fd ∧
      view.file = fd.file := by
  have hlen : p.views.length = 8 := by
    rw [← List.length_map (f := fun m : Mapping => m.file), h.views, List.length_map, h.length]
  obtain ⟨view, hview⟩ : ∃ view, p.views[i]? = some view := ⟨_, List.getElem?_eq_getElem (hlen ▸ hi)⟩
  obtain ⟨fd, hfd⟩ : ∃ fd, p.pool.dmaBufFds[i]? = some fd := ⟨_, List.getElem?_eq_getElem (h.length ▸ hi)⟩
  refine ⟨view, fd, hview, hfd, ?_⟩
  have hfile := congrArg (fun l : List File => l[i]?) h.views
  simpa [hview, hfd] using hfile

/-- A producer has eight buffers. -/
theorem Made.bufferCount (h : p.Made s) : p.bufferCount = 8 := by
  rw [BridgeProducer.bufferCount, ← List.length_map (f := fun m : Mapping => m.file), h.views, List.length_map,
    h.length]

/-- **What a consumer maps** of a producer's pool: the pool's own buffers, each under its handle and over the
producer's buffer size. -/
theorem Made.consumer (h : p.Made s) {k : ℕ} {mmap : ℕ → Bool} {c : BridgeConsumer}
    (hc : BridgeConsumer.create (p.bundle.delivered k []) mmap = some c) :
    c.poolGeneration = 1 ∧ ∀ (i : ℕ) (view : Mapping), c.views[i]? = some (some view) →
      ∃ fd, p.pool.dmaBufFds[i]? = some fd ∧ view.file = fd.file ∧ view.length = p.bufferSize := by
  -- a consumer is created only from a bundle that has been received
  rcases PoolBundle.recv_delivered h.carriable (c := .onStream (p.bundle.delivered k []) 0) rfl with
    ⟨-, ext, client, hrecv, -⟩ | ⟨-, e, client, hrecv, -⟩
  · unfold BridgeConsumer.create at hc
    rw [hrecv] at hc
    cases hc
    refine ⟨?_, fun i view hview => ?_⟩
    · show UInt32.ofNat p.pool.generation = 1
      rw [h.generation]
      rfl
    · obtain ⟨fd, n, hfd, hn, rfl⟩ := TensorSubscriber.getElem?_mapFds hview
      -- the FD received is of the file that was sent at this place
      have hfile : (p.bundle.files.take k)[i]? = some fd.file := by
        rw [← map_file_installFds 0 (p.bundle.files.take k), List.getElem?_map]
        exact congrArg (Option.map _) hfd
      rw [List.getElem?_take] at hfile
      split_ifs at hfile
      rw [PoolBundle.files, List.getElem?_map] at hfile
      obtain ⟨fd', hfd', hsame⟩ := Option.map_eq_some_iff.mp hfile
      refine ⟨fd', hfd', hsame.symm, ?_⟩
      split_ifs at hn
      exact (Option.some.inj hn).symm
  · unfold BridgeConsumer.create at hc
    rw [hrecv] at hc
    cases hc

end BridgeProducer

/-! ## The publisher -/

namespace AxonPublisher

variable {p : AxonPublisher} {build : BuildConfig}

/-- **What the publisher knows of its producer**: it was made on its system. -/
structure Sound (p : AxonPublisher) : Prop where
  sys : p.sys.Sound
  made : ∀ prod, p.producer = some prod → prod.Made p.sys

/-- **A call of `publish` keeps its producer or makes a new one**, sized to the frame; or there is none. -/
inductive Fitted (p : AxonPublisher) (frameBytes : UInt64) (p' : AxonPublisher) : Prop
  | kept (prod : BridgeProducer) (hp : p.producer = some prod) (hfits : ¬ prod.bufferSize < frameBytes)
      (heq : p' = p)
  | renewed (hunfit : ∀ prod, p.producer = some prod → prod.bufferSize < frameBytes)
      (hsound : p'.sys.Sound) (hnext : p.sys.nextFd ≤ p'.sys.nextFd)
      (hmade : ∀ prod, p'.producer = some prod → prod.Made p'.sys ∧ prod.bufferSize = frameBytes ∧
        ∀ fd ∈ prod.pool.dmaBufFds, p.sys.nextFd ≤ fd.num)

/-- A producer made anew has buffers for the frame. -/
theorem fitted_recreate (h : p.Sound) (build : BuildConfig) {frameBytes : UInt64}
    (hunfit : ∀ prod, p.producer = some prod → prod.bufferSize < frameBytes) :
    p.Fitted frameBytes (p.recreate build frameBytes) := by
  obtain ⟨hsound, hnext, hmade⟩ := BridgeProducer.create_spec h.sys build frameBytes
  unfold recreate
  cases hold : p.producer with
  | none => exact .renewed hunfit hsound hnext hmade
  | some old =>
      -- the old producer is destroyed behind it
      have howned := ((h.made old hold).later hnext).owned
      obtain ⟨hsound', hnext'⟩ := TensorPool.sound_freeAll hsound howned
      refine .renewed hunfit hsound' (hnext.trans hnext'.ge) fun prod hprod => ?_
      obtain ⟨hprodMade, hsize, hnew⟩ := hmade prod hprod
      exact ⟨hprodMade.later hnext'.ge, hsize, hnew⟩

/-- **A frame finds a producer whose buffers it fits**, or none. -/
theorem fitted_fitProducer (h : p.Sound) (build : BuildConfig) (frameBytes : UInt64) :
    p.Fitted frameBytes (p.fitProducer build frameBytes) := by
  unfold fitProducer
  split
  · rename_i hnone
    refine fitted_recreate h build fun prod hprod => ?_
    cases hnone.symm.trans hprod
  · rename_i old hold
    split_ifs with hlt
    · refine fitted_recreate h build fun prod hprod => ?_
      rwa [← Option.some.inj (hold.symm.trans hprod)]
    · exact .kept old hold hlt rfl

/-- **What is published**: the message of the frame, in a buffer of the producer in use. -/
structure Announced (m : Published Header) (frameBytes : UInt64) (prod : BridgeProducer) : Prop where
  handle : m.msg.boHandle < 8
  buffer : m.buffer = prod.buffer m.msg.boHandle
  generation : m.msg.poolGeneration = 1
  offset : m.msg.offset = 0
  size : m.msg.size = frameBytes

/-- **The cases of `publish`**: an empty frame, a frame without a pool, and a frame that is published. -/
inductive PublishCase (p : AxonPublisher) (frameBytes : UInt64) :
    Option (Published Header) × AxonPublisher → Prop
  | empty (h : frameBytes = 0) : PublishCase p frameBytes (none, p)
  | noPool (p' : AxonPublisher) (h : p.Fitted frameBytes p') (hnone : p'.producer = none) :
      PublishCase p frameBytes (none, p')
  | sent (p' : AxonPublisher) (h : p.Fitted frameBytes p') (prod : BridgeProducer) (hprod : p'.producer = some prod)
      (m : Published Header) (hm : Announced m frameBytes prod) (seqno : SeqNo) :
      PublishCase p frameBytes (some m, { p' with seqno := seqno })

/-- What fits a frame is sound. -/
theorem Fitted.sound {p' : AxonPublisher} {frameBytes : UInt64} (h : p.Sound) (h' : p.Fitted frameBytes p') :
    p'.Sound := by
  cases h' with
  | kept prod hp hfits heq =>
      rw [heq]
      exact h
  | renewed hunfit hsound hnext hmade => exact ⟨hsound, fun prod hprod => (hmade prod hprod).1⟩

/-- **The ways through `publish`.** -/
theorem publish_cases (h : p.Sound) (build : BuildConfig) (image : Image Header) :
    PublishCase p image.info.frameBytes (p.publish build image) := by
  have hfitted := fitted_fitProducer h build image.info.frameBytes
  have hsound := hfitted.sound h
  unfold publish
  dsimp only
  split_ifs with hzero
  · exact .empty hzero
  · split
    · rename_i hnone
      exact .noPool _ hfitted hnone
    · rename_i prod hprod
      have hmade := hsound.made prod hprod
      refine .sent _ hfitted prod hprod _ ⟨?_, rfl, ?_, rfl, rfl⟩ _
      -- a pool of the bridge has eight buffers
      · show _ % prod.bufferCount < 8
        rw [hmade.bufferCount]
        exact Nat.mod_lt _ (by decide)
      -- and stays at its first generation
      · show UInt32.ofNat prod.pool.generation = 1
        rw [hmade.generation]
        rfl

end AxonPublisher

/-! ## The topic -/

/-- The frame fits the producer's buffers. -/
def BridgeProducer.Takes (p : BridgeProducer) (frameBytes : UInt64) : Prop := frameBytes ≤ p.bufferSize

namespace ImageTopic

variable {build : BuildConfig} {s s' : ImageTopic Header} {e : ImageTopicEv Header}

/-- The consumer was made of the bundle that the publisher sent in the call. -/
def Attaches (s : ImageTopic Header) (k : ℕ) (c : BridgeConsumer) : Prop :=
  ∃ prod installed mmap, s.servedIn k = some prod ∧
    BridgeConsumer.create (prod.bundle.delivered installed []) mmap = some c

/-- The message was published in the call. -/
def PublishedIn (s : ImageTopic Header) (m : Published Header) (call : ℕ) : Prop :=
  ∃ frameBytes prod, s.calls[call]? = some (frameBytes, some prod) ∧ AxonPublisher.Announced m frameBytes prod ∧
    prod.Takes frameBytes

/-- **What holds on a topic**: the history of producers, and where the messages and the attachment come from. -/
structure Inv (s : ImageTopic Header) : Prop where
  pub : s.pub.Sound
  last : s.calls.getLast?.bind (·.2) = s.pub.producer
  made : ∀ i prod, resourceAt s.calls i = some prod → prod.Made s.pub.sys
  history : Replaced BridgeProducer.Takes BridgeProducer.Newer s.calls
  sent : ∀ m ∈ s.sent, s.PublishedIn m.1 m.2
  attached : ∀ a, s.attached = some a → s.Attaches a.1 a.2

/-- A topic begins with nothing sent. -/
theorem inv_start {sys : Sys} (hsys : sys.Sound) : (start sys : ImageTopic Header).Inv where
  pub := ⟨hsys, nofun⟩
  last := rfl
  made := nofun
  history := .nil
  sent _ hm := absurd hm List.not_mem_nil
  attached := nofun

/-- What a call of `publish` has done stays done. -/
theorem PublishedIn.snoc {m : Published Header} {call : ℕ} {x : UInt64 × Option BridgeProducer}
    (h : s.PublishedIn m call) (hcalls : s'.calls = s.calls ++ [x]) : s'.PublishedIn m call := by
  obtain ⟨frameBytes, prod, hcall, hm⟩ := h
  refine ⟨frameBytes, prod, ?_, hm⟩
  rw [hcalls, List.getElem?_append_left (List.getElem?_eq_some_iff.mp hcall).1, hcall]

/-- A consumer stays attached to what it has attached to. -/
theorem Attaches.snoc {k : ℕ} {c : BridgeConsumer} {x : UInt64 × Option BridgeProducer} (h : s.Attaches k c)
    (hcalls : s'.calls = s.calls ++ [x]) : s'.Attaches k c := by
  obtain ⟨prod, installed, mmap, hserved, hc⟩ := h
  refine ⟨prod, installed, mmap, ?_, hc⟩
  unfold servedIn at hserved ⊢
  cases hk : s.calls[k]? with
  | none =>
      rw [hk] at hserved
      cases hserved
  | some y =>
      rw [hk] at hserved
      rw [hcalls, List.getElem?_append_left (List.getElem?_eq_some_iff.mp hk).1, hk]
      exact hserved

/-- **A call that fits its producer** continues the history. -/
theorem Inv.fitted (h : s.Inv) {frameBytes : UInt64} {p : AxonPublisher} (hfit : s.pub.Fitted frameBytes p) :
    Replaced BridgeProducer.Takes BridgeProducer.Newer (s.calls ++ [(frameBytes, p.producer)]) ∧
      (∀ i prod, resourceAt (s.calls ++ [(frameBytes, p.producer)]) i = some prod → prod.Made p.sys) ∧
      ∀ prod, p.producer = some prod → prod.Takes frameBytes := by
  have hsound := hfit.sound h.pub
  cases hfit with
  | kept prod hp hfits heq =>
      subst heq
      have htakes : ∀ q, s.pub.producer = some q → q.Takes frameBytes := by
        intro q hq
        obtain rfl := Option.some.inj (hp.symm.trans hq)
        exact UInt64.not_lt.mp hfits
      refine ⟨h.history.keep h.last htakes, fun i q hq => ?_, htakes⟩
      rcases resourceAt_snoc_cases hq with ⟨-, hq⟩ | ⟨-, hq⟩
      · exact h.made i q hq
      · exact hsound.made q hq
  | renewed hunfit hsys hnext hmade =>
      refine ⟨h.history.replace ?_ ?_, fun i q hq => ?_, fun q hq => ?_⟩
      · intro q hq
        rw [h.last] at hq
        exact UInt64.not_le.mpr (hunfit q hq)
      · -- all files so far are older
        intro i q q' hq hq' fd hfd fd' hfd'
        have hold := h.made i q hq
        exact (hold.owned fd (hold.shared fd hfd)).trans_le ((hmade q' hq').2.2 fd' hfd')
      · rcases resourceAt_snoc_cases hq with ⟨-, hq⟩ | ⟨-, hq⟩
        · exact (h.made i q hq).later hnext
        · exact hsound.made q hq
      · show frameBytes ≤ q.bufferSize
        rw [(hmade q hq).2.1]
        exact UInt64.le_refl _

/-- An image is published. -/
theorem Inv.publish (h : s.Inv) {image : Image Header} (hs : s.step build (.publish image) = some s') : s'.Inv := by
  have hcase := AxonPublisher.publish_cases h.pub build image
  dsimp only [step] at hs
  generalize s.pub.publish build image = r at hcase hs
  -- an empty frame, a pool that could not be made, or a descriptor sent
  cases hcase with
  | empty hzero =>
      cases hs
      refine ⟨h.pub, by simp, fun i q hq => ?_, h.history.keep h.last fun q _ => ?_, fun m hm => ?_, fun a ha => ?_⟩
      · rcases resourceAt_snoc_cases hq with ⟨-, hq⟩ | ⟨-, hq⟩
        · exact h.made i q hq
        · exact h.pub.made q hq
      -- an empty frame fits in any pool
      · show image.info.frameBytes ≤ q.bufferSize
        rw [hzero]
        exact UInt64.zero_le
      · rw [Option.map_none, Option.toList_none, List.append_nil] at hm
        exact (h.sent m hm).snoc rfl
      · exact (h.attached a ha).snoc rfl
  | noPool p hfit hnone =>
      cases hs
      obtain ⟨hhistory, hmade, -⟩ := h.fitted hfit
      refine ⟨hfit.sound h.pub, by simp, hmade, hhistory, fun m hm => ?_, fun a ha => (h.attached a ha).snoc rfl⟩
      rw [Option.map_none, Option.toList_none, List.append_nil] at hm
      exact (h.sent m hm).snoc rfl
  | sent p hfit prod hprod m hm seqno =>
      cases hs
      obtain ⟨hhistory, hmade, htakes⟩ := h.fitted hfit
      have hsound := hfit.sound h.pub
      refine ⟨⟨hsound.sys, hsound.made⟩, by simp, hmade, hhistory, fun x hx => ?_,
        fun a ha => (h.attached a ha).snoc rfl⟩
      -- what was sent before, or just now
      rcases List.mem_append.mp hx with hx | hx
      · exact (h.sent x hx).snoc rfl
      · obtain rfl := List.mem_singleton.mp hx
        refine ⟨_, prod, ?_, hm, htakes prod hprod⟩
        dsimp only
        rw [List.getElem?_concat_length, hprod]

/-- An attachment comes from the call that served it. -/
theorem Inv.attach (h : s.Inv) {call : ℕ} {ans : Option AttachAnswers} {a : ℕ × BridgeConsumer}
    (ha : s.attach call ans = some a) : s.Attaches a.1 a.2 := by
  unfold ImageTopic.attach at ha
  split at ha
  · rename_i b hb
    cases ha
    exact h.attached _ hb
  · obtain ⟨answers, -, ha⟩ := Option.bind_eq_some_iff.mp ha
    obtain ⟨prod, hserved, ha⟩ := Option.bind_eq_some_iff.mp ha
    obtain ⟨c, hc, rfl⟩ := Option.map_eq_some_iff.mp ha
    exact ⟨prod, answers.installed, answers.mmap, hserved, hc⟩

/-- **A step keeps the invariant.** -/
theorem Inv.step (h : s.Inv) (hs : s.step build e = some s') : s'.Inv := by
  cases e with
  | publish image => exact h.publish hs
  | deliver n ans =>
      obtain ⟨m, -, rfl⟩ := Option.map_eq_some_iff.mp hs
      exact ⟨h.pub, h.last, h.made, h.history, h.sent, fun a ha => h.attach ha⟩

/-- A call that serves connections has a producer. -/
theorem resourceAt_of_servedIn {k : ℕ} {prod : BridgeProducer} (h : s.servedIn k = some prod) :
    resourceAt s.calls k = some prod := by
  unfold servedIn at h
  split at h
  · cases h
  · rename_i frameBytes producer hk
    split_ifs at h
    rw [resourceAt, hk, Option.bind_some, h]

/-- **Which calls have the same producer**: those between which the frames fit; otherwise one of the two is newer. -/
theorem Inv.framesFit_cases (h : s.Inv) {i j : ℕ} {p q : BridgeProducer} (hp : resourceAt s.calls i = some p)
    (hq : resourceAt s.calls j = some q) :
    (s.FramesFit i j ∧ p = q) ∨ (¬ s.FramesFit i j ∧ (p.Newer q ∨ q.Newer p)) := by
  have hlt : ∀ {k : ℕ} {r : BridgeProducer}, resourceAt s.calls k = some r → k < s.calls.length := by
    intro k r hr
    obtain ⟨y, hy, -⟩ := Option.bind_eq_some_iff.mp hr
    exact (List.getElem?_eq_some_iff.mp hy).1
  unfold FramesFit
  -- between the two calls all frames fitted, so the pool was kept, or it was replaced by a newer one
  rcases Nat.le_total i j with hij | hji
  · obtain ⟨hkept, hrenewed⟩ := h.history.keptOrRenewed hij (hlt hq) p hp
    rw [min_eq_left hij, max_eq_right hij, hp]
    by_cases hfit : ∀ x ∈ since s.calls i j, p.Takes x.1
    · refine .inl ⟨fun r hr => ?_, Option.some.inj ((hkept hfit).symm.trans hq)⟩
      obtain rfl := Option.some.inj hr
      exact hfit
    · exact .inr ⟨fun hall => hfit (hall p rfl), .inl (hrenewed hfit q hq)⟩
  · obtain ⟨hkept, hrenewed⟩ := h.history.keptOrRenewed hji (hlt hp) q hq
    rw [min_eq_right hji, max_eq_left hji, hq]
    by_cases hfit : ∀ x ∈ since s.calls j i, q.Takes x.1
    · refine .inl ⟨fun r hr => ?_, Option.some.inj (hp.symm.trans (hkept hfit))⟩
      obtain rfl := Option.some.inj hr
      exact hfit
    · exact .inr ⟨fun hall => hfit (hall q rfl), .inr (hrenewed hfit p hp)⟩

/-- **One copy**: it comes out of the buffer that the frame was written to, exactly when the pool was kept. -/
theorem Inv.copy_iff (h : s.Inv) {m : Published Header} {call k : ℕ} {c : BridgeConsumer}
    (hm : s.PublishedIn m call) (ha : s.Attaches k c) :
    (∀ img ∈ c.internalCallback m.msg, img.offset.toNat + img.size.toNat ≤ img.view.length.toNat ∧
      m.buffer.map (·.file) = some img.view.file) ↔
    c.payload m.msg.boHandle m.msg.offset = none ∨ s.FramesFit call k := by
  obtain ⟨frameBytes, p, hcall, hannounced, htakes⟩ := hm
  obtain ⟨q, installed, mmap, hserved, hc⟩ := ha
  have hp : resourceAt s.calls call = some p := by rw [resourceAt, hcall, Option.bind_some]
  have hq := resourceAt_of_servedIn hserved
  obtain ⟨hgen, hviews⟩ := (h.made k q hq).consumer hc
  obtain ⟨written, fd, hwritten, hfd, hfile⟩ := (h.made call p hp).buffer hannounced.handle
  rw [hannounced.buffer, hwritten, Option.map_some]
  unfold BridgeConsumer.internalCallback
  rw [if_neg (not_not.mpr (hannounced.generation.trans hgen.symm))]
  cases hpayload : c.payload m.msg.boHandle m.msg.offset with
  | none => exact iff_of_true (fun img himg => by cases himg) (.inl rfl)
  | some ptr =>
      obtain ⟨view, hview, rfl⟩ := Option.map_eq_some_iff.mp hpayload
      obtain ⟨fd', hfd', hfile', hlength⟩ := hviews _ view (Option.join_eq_some_iff.mp hview)
      rw [or_iff_right (Option.some_ne_none _)]
      rcases h.framesFit_cases hp hq with ⟨hfit, rfl⟩ | ⟨hfit, hnewer⟩
      · -- the pool was kept, and the frame fits its buffers
        refine iff_of_true (fun img himg => ?_) hfit
        cases himg
        obtain rfl := Option.some.inj (hfd.symm.trans hfd')
        refine ⟨?_, by rw [hfile, hfile']⟩
        dsimp only
        rw [hannounced.offset, hannounced.size, hlength]
        have hle := UInt64.le_iff_toNat_le.mp htakes
        simpa using hle
      · -- the buffer of the same handle in another pool is another file
        refine iff_of_false (fun hsafe => ?_) hfit
        have hsame := (hsafe _ rfl).2
        have hmem := List.mem_of_getElem? hfd
        have hmem' := List.mem_of_getElem? hfd'
        have hnum : fd.num = fd'.num := by
          rw [← (h.made call p hp).own_file fd hmem, ← (h.made k q hq).own_file fd' hmem', ← hfile, ← hfile',
            Option.some.inj hsame]
        rcases hnewer with hnewer | hnewer
        · exact absurd (hnewer fd hmem fd' hmem') (by omega)
        · exact absurd (hnewer fd' hmem' fd hmem) (by omega)

/-- **A message is copied safely** exactly when its pool was kept. -/
theorem Inv.copiesSafely_iff (h : s.Inv) : s.CopiesSafely e ↔ s.PoolKept e := by
  cases e with
  | publish image => exact Iff.rfl
  | deliver n ans =>
      constructor
      · intro hsafe m hm a ha
        exact (h.copy_iff (h.sent m (List.mem_of_getElem? hm)) (h.attach ha)).mp (hsafe m hm a ha)
      · intro hkept m hm a ha
        exact (h.copy_iff (h.sent m (List.mem_of_getElem? hm)) (h.attach ha)).mpr (hkept m hm a ha)

end ImageTopic

/-- **When the subscriber copies each frame out of its own buffer.** In every sequence of images and every order
of deliveries, all copies are inside the subscriber's mapping of the buffer that the publisher wrote the frame to
exactly when no message is handled with a mapping of its buffer after a frame, between the call that published it
and the call that served the subscriber's connection, has been too large for the pool. -/
theorem image_copies_safe_iff {build : BuildConfig} {sys : Sys} (hsys : sys.Sound)
    {tr : List (ImageTopicEv Header)} {s : ImageTopic Header}
    (hexec : (imageTopicMachine build).exec (.start sys) tr = some s) :
    (imageTopicMachine build).Meets ImageTopic.CopiesSafely (.start sys) tr ↔
      (imageTopicMachine build).Meets ImageTopic.PoolKept (.start sys) tr := by
  refine Machine.meets_iff (P := ImageTopic.Inv) hexec (ImageTopic.inv_start hsys) ?_ ?_
  · intro s e s' h hs
    exact h.step hs
  · intro s e s' h _
    exact h.copiesSafely_iff

/-- An image of one row. -/
def Image.row (bytes : UInt32) : Image Unit where
  info := { header := (), height := 1, width := bytes, encoding := "mono8", isBigendian := 0, step := bytes }
  data := List.replicate bytes.toNat 0

/-- The subscriber attaches in the call behind the one it was called back for, to all of the pool. -/
def AttachAnswers.whole : AttachAnswers := ⟨0, 8, fun _ => true⟩

/-- Images of one size. -/
def steadyImages : List (ImageTopicEv Unit) :=
  [.publish (.row 4), .publish (.row 4), .deliver 0 (some .whole), .publish (.row 4), .deliver 2 none]

/-- While the size stays, every copy is safe. -/
theorem image_copies_safe_steady :
    ∃ s, (imageTopicMachine ⟨false, false⟩).exec (.start .obliging) steadyImages = some s ∧
      s.attached.isSome = true ∧ s.sent.length = 3 ∧
      (imageTopicMachine ⟨false, false⟩).Meets ImageTopic.CopiesSafely (.start .obliging) steadyImages := by
  obtain ⟨s, hs⟩ : ∃ s, (imageTopicMachine ⟨false, false⟩).exec (.start .obliging) steadyImages = some s := ⟨_, rfl⟩
  refine ⟨s, hs, ?_, ?_, (image_copies_safe_iff Sys.sound_obliging hs).mpr (by decide)⟩
  · cases hs
    rfl
  · cases hs
    rfl

/-- The third image is larger, and the subscriber is attached already. -/
def growingImages : List (ImageTopicEv Unit) :=
  [.publish (.row 4), .publish (.row 4), .deliver 0 (some .whole), .publish (.row 8192)]

/-- **A larger frame is read past the end of a mapping**: the third message comes from a new pool of the same
generation, and the subscriber copies 8192 bytes out of a mapping of 4 bytes, of another file than the frame's. -/
theorem larger_frame_read_past_mapping :
    (∃ s m a img, (imageTopicMachine ⟨false, false⟩).exec (.start .obliging) growingImages = some s ∧
      s.sent[2]? = some m ∧ s.attached = some a ∧ m.1.msg.poolGeneration = a.2.poolGeneration ∧
      a.2.internalCallback m.1.msg = some img ∧ img.size = 8192 ∧ img.view.length = 4 ∧
      m.1.buffer.map (·.file) ≠ some img.view.file) ∧
    ¬ (imageTopicMachine ⟨false, false⟩).Meets ImageTopic.CopiesSafely (.start .obliging)
      (growingImages ++ [.deliver 2 none]) := by
  refine ⟨⟨_, _, _, _, rfl, rfl, rfl, rfl, rfl, rfl, rfl, by decide⟩, fun hall => ?_⟩
  have hlast := ((Machine.Meets.append hall).2 _ rfl).1
  have hcopy := (hlast _ rfl _ rfl _ rfl).1
  revert hcopy
  decide

end Axon
