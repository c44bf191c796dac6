import Axon.Foundation.LapRing
import Axon.Foundation.OverflowQueue
import Axon.ImageTransport

/-! # The ROS offload

A producer node stamps the number of each frame into the next buffer of its pool and publishes a descriptor on a
topic; a consumer node maps the buffers once and compares, for each descriptor that is handed to it, the number
stamped there with the descriptor's. The topic may lose and reorder descriptors, and the subscription keeps the last
few of those that arrive.

* **`offloadMachine`** has the two nodes, the buffers and the topic.
* **`offload_payload_errors`** says which descriptors count as payload errors: those whose buffer has been stamped
  again. -/

namespace Axon

open Foundation

/-- `TensorDescriptor.msg`, as far as the consumer looks at it. -/
structure DescMsg where
  boHandle : ℕ
  seqno : ℕ
  poolGeneration : UInt32
  producerPublishTsNs : UInt64
  offset : UInt64

/-- The words in the buffers, by file and offset. The number of a frame is written and read as one word. -/
abbrev Words := File → UInt64 → ℕ

/-! ## The nodes -/

/-- **`AxonProducer`**. -/
structure OffloadProducer where
  bridge : BridgeProducer
  seqno : ℕ

namespace OffloadProducer

/-- The buffer of the frame `seqno`. -/
def idx (p : OffloadProducer) (seqno : ℕ) : ℕ := seqno % p.bridge.bufferCount

/-- The first half of `tick`: stamp the next frame. -/
def stamp (p : OffloadProducer) (mem : Words) : Option (OffloadProducer × Words) :=
  (p.bridge.buffer (p.idx (p.seqno + 1))).map fun view =>
    ({ p with seqno := p.seqno + 1 },
      Function.update mem view.file (Function.update (mem view.file) 0 (p.seqno + 1)))

/-- The second half: what is published of the frame just stamped. -/
def message (p : OffloadProducer) (now : UInt64) : DescMsg where
  boHandle := p.idx p.seqno
  seqno := p.seqno
  poolGeneration := p.bridge.poolGeneration
  producerPublishTsNs := now
  offset := 0

end OffloadProducer

/-- **`AxonConsumer`**, with its counters. The ROS1 node keeps the same ones and calls the same functions of its
bridge. -/
structure OffloadConsumer where
  bridge : BridgeConsumer
  /-- The ROS2 node shuts down after as many frames; the ROS1 node has no such number. -/
  targetFrames : Option UInt64
  frames : ℕ
  payloadErrors : ℕ
  staleSumUs : UInt64
  staleMaxUs : UInt64
  running : Bool

namespace OffloadConsumer

/-- A consumer that has attached and counted nothing. -/
def start (bridge : BridgeConsumer) (targetFrames : Option UInt64) : OffloadConsumer :=
  ⟨bridge, targetFrames, 0, 0, 0, 0, true⟩

/-- The word that `on_desc` compares, where the descriptor is of the pool attached to and its buffer mapped. -/
def stamped (c : OffloadConsumer) (msg : DescMsg) (mem : Words) : Option ℕ :=
  if msg.poolGeneration ≠ c.bridge.poolGeneration then none
  else (c.bridge.payload msg.boHandle msg.offset).map fun p => mem p.1.file p.2

/-- The rest of `on_desc`: count a frame. -/
def count (c : OffloadConsumer) (ok : Bool) (stalenessUs : UInt64) : OffloadConsumer :=
  { c with
    payloadErrors := if ok then c.payloadErrors else c.payloadErrors + 1
    staleSumUs := c.staleSumUs + stalenessUs
    staleMaxUs := if c.staleMaxUs < stalenessUs then stalenessUs else c.staleMaxUs
    frames := c.frames + 1
    running := match c.targetFrames with
      | some target => if target.toNat ≤ c.frames + 1 then false else c.running
      | none => c.running }

/-- **`on_desc`**. -/
def onDesc (c : OffloadConsumer) (msg : DescMsg) (mem : Words) (now : UInt64) : OffloadConsumer :=
  match c.stamped msg mem with
  | none => c
  | some stamped => c.count (stamped = msg.seqno) ((now - msg.producerPublishTsNs) / 1000)

/-- **`summarize`** of the ROS2 node. -/
def summarize (c : OffloadConsumer) : ℕ :=
  if c.frames = 0 then 1 else if c.payloadErrors = 0 then 0 else 1

/-- What `main` returns. The ROS2 node returns what `summarize` does, the ROS1 node 0 whatever it has counted. -/
def main (targetFrames : Option UInt64) (c : OffloadConsumer) : ℕ :=
  match targetFrames with
  | some _ => c.summarize
  | none => 0

end OffloadConsumer

/-! ## The system -/

/-- Two nodes and a topic. The subscription keeps the last `keep + 1` descriptors that have arrived. -/
structure Offload (keep : ℕ) where
  prod : OffloadProducer
  mem : Words
  /-- A frame is stamped and not yet published. -/
  ready : Bool
  /-- The descriptors on their way, oldest first. -/
  flight : List DescMsg
  consumer : Option OffloadConsumer
  queue : {xs : List DescMsg // xs.length ≤ keep + 1}
  /-- The descriptor that `on_desc` has been called with, and the last frame stamped then. -/
  pending : Option (DescMsg × ℕ)
  /-- The frames counted, each with the last frame stamped when it was read. -/
  reads : List (ℕ × ℕ)

/-- What happens between the two nodes. -/
inductive OffloadEv
  | stamp
  | publish (now : UInt64)
  /-- The consumer node starts: the kernel installs the first FDs, and the buffers can be mapped or not. -/
  | attach (installed : ℕ) (mmap : ℕ → Bool)
  /-- A descriptor on its way arrives, or is lost. -/
  | arrive (i : ℕ)
  | lose (i : ℕ)
  /-- The oldest descriptor kept is handed to `on_desc`. -/
  | take
  | read (now : UInt64)

namespace Offload

variable {keep : ℕ}

/-- The number of the pool's buffers. -/
def nBuffers (s : Offload keep) : ℕ := s.prod.bridge.bufferCount

/-- Whether a bundle can be carried is a comparison of numbers. -/
instance (b : PoolBundle) : Decidable b.Carriable := inferInstanceAs (Decidable (_ ∧ _))

/-- One event. -/
def step (targetFrames : Option UInt64) (s : Offload keep) : OffloadEv → Option (Offload keep)
  | .stamp =>
      if s.ready = true then none
      else (s.prod.stamp s.mem).map fun r => { s with prod := r.1, mem := r.2, ready := true }
  | .publish now =>
      if s.ready = true then some { s with ready := false, flight := s.flight ++ [s.prod.message now] } else none
  -- a bundle that no message can carry reaches no one
  | .attach installed mmap =>
      match s.consumer with
      | some _ => none
      | none =>
          if s.prod.bridge.bundle.Carriable then
            (BridgeConsumer.create (s.prod.bridge.bundle.delivered installed []) mmap).map fun c =>
              { s with consumer := some (.start c targetFrames) }
          else none
  | .arrive i => s.flight[i]?.map fun m =>
      { s with
        flight := s.flight.eraseIdx i
        queue := match s.consumer with
          | some _ => (listQueue DescMsg keep).push s.queue m
          | none => s.queue }
  | .lose i => if i < s.flight.length then some { s with flight := s.flight.eraseIdx i } else none
  | .take =>
      match s.pending, s.consumer with
      | none, some c =>
          if c.running = true then
            ((listQueue DescMsg keep).pop s.queue).map fun r =>
              { s with queue := r.2, pending := some (r.1, s.prod.seqno) }
          else none
      | _, _ => none
  | .read now =>
      match s.pending, s.consumer with
      | some (m, _), some c =>
          some { s with
            consumer := some (c.onDesc m s.mem now)
            pending := none
            reads := s.reads ++ ((c.stamped m s.mem).map fun _ => (m.seqno, s.prod.seqno)).toList }
      | _, _ => none

end Offload

/-- **Two nodes and a topic**, from the creation of the producer's bridge. -/
def offloadMachine (keep : ℕ) (targetFrames : Option UInt64) : Machine (Offload keep) OffloadEv where
  init s := (∃ build n size sys sys', Sys.Sound sys ∧
      BridgeProducer.create build n size .Custom sys = (some s.prod.bridge, sys')) ∧
    s.prod.seqno = 0 ∧ s.ready = false ∧ s.flight = [] ∧ s.consumer = none ∧ s.queue.1 = [] ∧ s.pending = none ∧
    s.reads = []
  step := Offload.step targetFrames

/-! ## What a bridge makes -/

namespace BridgeProducer

/-- **The pool of a new bridge**: its buffers are files of their own, and the views map them in order. -/
theorem files_of_create {build : BuildConfig} {n : ℕ} {size : UInt64} {sys sys' : Sys} {p : BridgeProducer}
    (hs : sys.Sound) (h : create build n size .Custom sys = (some p, sys')) :
    (p.pool.dmaBufFds.map (·.file)).Nodup ∧ p.views.map (·.file) = p.pool.dmaBufFds.map (·.file) ∧
      0 < p.bufferCount ∧ p.bufferCount = n := by
  unfold create at h
  -- a pool or mapping that could not be made leaves no producer
  split at h
  · cases h
  · rename_i pool sys₁ heq
    have hmade := (TensorPool.create_fresh hs build ⟨n, size, .Custom, none⟩).2
    have hlength := TensorPool.length_of_create hs heq
    rw [heq] at hmade
    obtain ⟨hholds, -⟩ := hmade pool rfl
    obtain ⟨-, hviews⟩ := mapViews_spec size pool.dmaBufFds sys₁
    split at h
    · cases h
    · rename_i views sys₂ heq'
      rw [heq'] at hviews
      have hviews := hviews views rfl
      split at h
      · cases h
      · cases h
        -- every buffer has been mapped
        have hcount : views.length = pool.dmaBufFds.length := by
          rw [← List.length_map (f := fun m : Mapping => m.file), hviews, List.length_map]
        refine ⟨hholds.nodup_files, hviews, ?_, ?_⟩
        · show 0 < views.length
          rw [hcount]
          exact hlength.2
        · show views.length = n
          rw [hcount]
          exact hlength.1

/-- **What a consumer maps**: the buffers of the producer's pool, each under its handle. -/
theorem files_of_delivered {p : BridgeProducer} (hp : p.bundle.Carriable) {k : ℕ} {mmap : ℕ → Bool}
    {c : BridgeConsumer} (hc : BridgeConsumer.create (p.bundle.delivered k []) mmap = some c) :
    c.poolGeneration = p.poolGeneration ∧ ∀ (i : ℕ) (view : Mapping), c.views[i]? = some (some view) →
      (p.pool.dmaBufFds.map (·.file))[i]? = some view.file := by
  rcases PoolBundle.recv_delivered hp (c := .onStream (p.bundle.delivered k []) 0) rfl with
    ⟨-, ext, client, hrecv, -⟩ | ⟨-, e, client, hrecv, -⟩
  · unfold BridgeConsumer.create at hc
    rw [hrecv] at hc
    cases hc
    refine ⟨rfl, fun i view hview => ?_⟩
    obtain ⟨fd, n, hfd, -, rfl⟩ := TensorSubscriber.getElem?_mapFds hview
    -- the view in this place maps the file that was sent for it
    have hfile : (p.bundle.files.take k)[i]? = some fd.file := by
      rw [← map_file_installFds 0 (p.bundle.files.take k), List.getElem?_map]
      exact congrArg (Option.map _) hfd
    rw [List.getElem?_take] at hfile
    split_ifs at hfile
    exact hfile
  · unfold BridgeConsumer.create at hc
    rw [hrecv] at hc
    cases hc

end BridgeProducer

/-! ## What a step does -/

namespace Offload

variable {keep : ℕ} {targetFrames : Option UInt64} {s s' : Offload keep} {e : OffloadEv}

/-- The events of the two nodes and the topic, with the state after each. -/
inductive StepCase (targetFrames : Option UInt64) (s : Offload keep) : OffloadEv → Offload keep → Prop
  | stamp (view : Mapping) (hready : s.ready = false)
      (hview : s.prod.bridge.buffer (s.prod.idx (s.prod.seqno + 1)) = some view) :
      StepCase targetFrames s .stamp
        { s with
          prod := { s.prod with seqno := s.prod.seqno + 1 }
          mem := Function.update s.mem view.file (Function.update (s.mem view.file) 0 (s.prod.seqno + 1))
          ready := true }
  | publish (now : UInt64) (hready : s.ready = true) : StepCase targetFrames s (.publish now)
      { s with ready := false, flight := s.flight ++ [s.prod.message now] }
  | attach (installed : ℕ) (mmap : ℕ → Bool) (c : BridgeConsumer) (hnone : s.consumer = none)
      (hcarry : s.prod.bridge.bundle.Carriable)
      (hc : BridgeConsumer.create (s.prod.bridge.bundle.delivered installed []) mmap = some c) :
      StepCase targetFrames s (.attach installed mmap) { s with consumer := some (.start c targetFrames) }
  | arrive (i : ℕ) (m : DescMsg) (hm : s.flight[i]? = some m) (c : OffloadConsumer) (hc : s.consumer = some c) :
      StepCase targetFrames s (.arrive i)
        { s with flight := s.flight.eraseIdx i, queue := (listQueue DescMsg keep).push s.queue m }
  | miss (i : ℕ) (m : DescMsg) (hm : s.flight[i]? = some m) (hc : s.consumer = none) :
      StepCase targetFrames s (.arrive i) { s with flight := s.flight.eraseIdx i }
  | lose (i : ℕ) : StepCase targetFrames s (.lose i) { s with flight := s.flight.eraseIdx i }
  | take (c : OffloadConsumer) (m : DescMsg) (q : {xs : List DescMsg // xs.length ≤ keep + 1})
      (hpending : s.pending = none) (hc : s.consumer = some c)
      (hpop : (listQueue DescMsg keep).pop s.queue = some (m, q)) :
      StepCase targetFrames s .take { s with queue := q, pending := some (m, s.prod.seqno) }
  | skip (now : UInt64) (m : DescMsg) (last : ℕ) (c : OffloadConsumer) (hpending : s.pending = some (m, last))
      (hc : s.consumer = some c) (hnone : c.stamped m s.mem = none) :
      StepCase targetFrames s (.read now) { s with pending := none }
  | read (now : UInt64) (m : DescMsg) (last : ℕ) (c : OffloadConsumer) (word : ℕ)
      (hpending : s.pending = some (m, last)) (hc : s.consumer = some c)
      (hword : c.stamped m s.mem = some word) :
      StepCase targetFrames s (.read now)
        { s with
          consumer := some (c.count (word = m.seqno) ((now - m.producerPublishTsNs) / 1000))
          pending := none
          reads := s.reads ++ [(m.seqno, s.prod.seqno)] }

/-- **What a step does.** -/
theorem step_cases (hs : s.step targetFrames e = some s') : s.StepCase targetFrames e s' := by
  cases e with
  | stamp =>
      -- a frame is stamped, then its descriptor published
      dsimp only [step] at hs
      split_ifs at hs with hready
      obtain ⟨r, hr, rfl⟩ := Option.map_eq_some_iff.mp hs
      obtain ⟨view, hview, rfl⟩ := Option.map_eq_some_iff.mp hr
      exact .stamp view (Bool.eq_false_of_not_eq_true hready) hview
  | publish now =>
      dsimp only [step] at hs
      split_ifs at hs with hready
      cases hs
      exact .publish now hready
  | attach installed mmap =>
      dsimp only [step] at hs
      split at hs
      · cases hs
      · rename_i hnone
        split_ifs at hs with hcarry
        obtain ⟨c, hc, rfl⟩ := Option.map_eq_some_iff.mp hs
        exact .attach installed mmap c hnone hcarry hc
  | arrive i =>
      obtain ⟨m, hm, rfl⟩ := Option.map_eq_some_iff.mp hs
      -- a descriptor that arrives before the consumer has attached is not kept
      split
      · rename_i c hc
        exact .arrive i m hm c hc
      · rename_i hc
        exact .miss i m hm hc
  | lose i =>
      dsimp only [step] at hs
      split_ifs at hs
      cases hs
      exact .lose i
  | take =>
      dsimp only [step] at hs
      split at hs
      · rename_i c hpending hc
        split_ifs at hs
        obtain ⟨⟨m, q⟩, hpop, rfl⟩ := Option.map_eq_some_iff.mp hs
        exact .take c m q hpending hc hpop
      · cases hs
  | read now =>
      dsimp only [step] at hs
      split at hs
      · rename_i m last c hpending hc
        cases hs
        rw [OffloadConsumer.onDesc]
        -- a payload that cannot be found is not counted
        cases hword : c.stamped m s.mem with
        | none =>
            rw [← hc]
            simp only [Option.map_none, Option.toList_none, List.append_nil]
            exact .skip now m last c hpending hc hword
        | some word => exact .read now m last c word hpending hc hword
      · cases hs

end Offload

/-! ## The words -/

/-- The word at the head of a buffer, the `i`-th being the file `files[i]`. -/
def wordOf (files : List File) (mem : Words) (i : ℕ) : ℕ := (files[i]?).elim 0 fun f => mem f 0

/-- Stamping one buffer leaves the others alone. -/
theorem wordOf_update {files : List File} (hnodup : files.Nodup) {i j : ℕ} {f : File} (hf : files[j]? = some f)
    (mem : Words) (w : ℕ) (hi : i < files.length) :
    wordOf files (Function.update mem f (Function.update (mem f) 0 w)) i = if i = j then w else wordOf files mem i := by
  have hget : files[i]? = some files[i] := List.getElem?_eq_getElem hi
  by_cases hij : i = j
  · subst hij
    rw [if_pos rfl, wordOf, hf]
    show Function.update mem f (Function.update (mem f) 0 w) f 0 = w
    rw [Function.update_self, Function.update_self]
  · have hne : files[i] ≠ f := by
      rintro rfl
      exact hij ((List.getElem?_inj hi hnodup).mp (hget.trans hf.symm))
    rw [if_neg hij, wordOf, wordOf, hget]
    show Function.update mem f _ files[i] 0 = mem files[i] 0
    rw [Function.update_of_ne hne]

/-- **What has been stamped**: the last frame to have come to a buffer is the number found there. -/
def Stamped (files : List File) (mem : Words) (last : ℕ) : Prop :=
  ∀ k, 0 < k → k ≤ last → last < k + files.length → wordOf files mem (k % files.length) = k

/-- The next frame goes to the next buffer. -/
theorem Stamped.next {files : List File} (hnodup : files.Nodup) (hpos : 0 < files.length) {mem : Words}
    {last : ℕ} (h : Stamped files mem last) {f : File} (hf : files[(last + 1) % files.length]? = some f) :
    Stamped files (Function.update mem f (Function.update (mem f) 0 (last + 1))) (last + 1) := by
  intro k hk hle hlap
  rw [wordOf_update hnodup hf mem _ (Nat.mod_lt _ hpos)]
  by_cases hlast : k = last + 1
  · rw [if_pos (by rw [hlast]), hlast]
  · have hlt : k < last + 1 := Nat.lt_of_le_of_ne hle hlast
    rw [if_neg fun heq => mod_ne_mod_of_lt hlt hlap heq.symm]
    exact h k hk (Nat.le_of_lt_succ hlt) (by omega)

/-- **When a frame is found in its buffer**: as long as the ring has not come round to it. -/
theorem Stamped.eq_iff {files : List File} (hpos : 0 < files.length) {mem : Words} {last : ℕ}
    (h : Stamped files mem last) {k : ℕ} (hk : 0 < k) (hle : k ≤ last) :
    wordOf files mem (k % files.length) = k ↔ last < k + files.length := by
  constructor
  · intro heq
    by_contra hlap
    -- the last frame that has come to the same buffer
    have hlast := h (k + (last - k) / files.length * files.length) (by omega)
    have hdiv := Nat.div_add_mod' (last - k) files.length
    have hmod := Nat.mod_lt (last - k) hpos
    have hturns : 1 ≤ (last - k) / files.length := by
      rw [Nat.le_div_iff_mul_le hpos]
      omega
    have hround : files.length ≤ (last - k) / files.length * files.length :=
      Nat.le_mul_of_pos_left _ hturns
    rw [Nat.add_mul_mod_self_right, heq] at hlast
    have := hlast (by omega) (by omega)
    omega
  · exact h k hk hle

/-! ## The invariant -/

namespace Offload

/-- The descriptors that have not been read. -/
def messages {keep : ℕ} (s : Offload keep) : List DescMsg := s.flight ++ s.queue.1 ++ (s.pending.map (·.1)).toList

/-- A descriptor is that of a frame that has been stamped, and names its buffer in a pool of `n`. -/
structure Genuine (n : ℕ) (p : OffloadProducer) (m : DescMsg) : Prop where
  pos : 0 < m.seqno
  stamped : m.seqno ≤ p.seqno
  boHandle : m.boHandle = m.seqno % n
  offset : m.offset = 0
  poolGeneration : m.poolGeneration = p.bridge.poolGeneration

/-- A frame that has been read after the ring had come round to its buffer. -/
def Overtaken (n : ℕ) (r : ℕ × ℕ) : Prop := r.1 + n ≤ r.2

/-- Whether a frame was overtaken is a comparison of numbers. -/
instance (n : ℕ) (r : ℕ × ℕ) : Decidable (Overtaken n r) := inferInstanceAs (Decidable (_ ≤ _))

end Offload

/-- **What the counters count**, in a pool of `n` buffers. -/
structure OffloadConsumer.Counts (c : OffloadConsumer) (n : ℕ) (reads : List (ℕ × ℕ)) : Prop where
  frames : c.frames = reads.length
  payloadErrors : c.payloadErrors = reads.countP (Offload.Overtaken n)
  stale : c.staleSumUs.toNat ≤ c.frames * c.staleMaxUs.toNat

/-- One more frame is counted. -/
theorem OffloadConsumer.Counts.count {c : OffloadConsumer} {n : ℕ} {reads : List (ℕ × ℕ)} (h : c.Counts n reads)
    {ok : Bool} {r : ℕ × ℕ} (hok : ok = true ↔ ¬ Offload.Overtaken n r) (stalenessUs : UInt64) :
    (c.count ok stalenessUs).Counts n (reads ++ [r]) := by
  refine ⟨?_, ?_, ?_⟩
  · show c.frames + 1 = _
    rw [h.frames, List.length_append]
    rfl
  · show (if ok = true then c.payloadErrors else c.payloadErrors + 1) = _
    rw [List.countP_append, ← h.payloadErrors, List.countP_singleton]
    by_cases hr : Offload.Overtaken n r
    · simp [hr, mt hok.mp (not_not.mpr hr)]
    · simp [hr, hok.mpr hr]
  · -- the sum may wrap, which makes it smaller
    show (c.staleSumUs + stalenessUs).toNat ≤
      (c.frames + 1) * (if c.staleMaxUs < stalenessUs then stalenessUs else c.staleMaxUs).toNat
    have hmax : c.staleMaxUs.toNat ≤
        (if c.staleMaxUs < stalenessUs then stalenessUs else c.staleMaxUs).toNat ∧
        stalenessUs.toNat ≤ (if c.staleMaxUs < stalenessUs then stalenessUs else c.staleMaxUs).toNat := by
      split_ifs with hlt
      · exact ⟨(UInt64.lt_iff_toNat_lt.mp hlt).le, le_rfl⟩
      · exact ⟨le_rfl, UInt64.le_iff_toNat_le.mp (UInt64.not_lt.mp hlt)⟩
    calc (c.staleSumUs + stalenessUs).toNat
        ≤ c.staleSumUs.toNat + stalenessUs.toNat := by
          rw [UInt64.toNat_add]
          exact Nat.mod_le _ _
      _ ≤ c.frames * c.staleMaxUs.toNat + stalenessUs.toNat := Nat.add_le_add_right h.stale _
      _ ≤ _ := by
          rw [Nat.succ_mul]
          exact Nat.add_le_add (Nat.mul_le_mul_left _ hmax.1) hmax.2

namespace Offload

variable {keep : ℕ} {targetFrames : Option UInt64} {s s' : Offload keep} {e : OffloadEv} {files : List File}

/-- **The invariant of the two nodes**, on buffers that are the files `files`. -/
structure Inv (files : List File) (s : Offload keep) : Prop where
  nodup : files.Nodup
  pos : 0 < files.length
  pool : s.prod.bridge.pool.dmaBufFds.map (·.file) = files
  views : s.prod.bridge.views.map (·.file) = files
  stamped : Stamped files s.mem s.prod.seqno
  begun : s.ready = true → 0 < s.prod.seqno
  genuine : ∀ m ∈ s.messages, Genuine files.length s.prod m
  mapped : ∀ c, s.consumer = some c → ∀ (i : ℕ) (view : Mapping), c.bridge.views[i]? = some (some view) →
    files[i]? = some view.file
  counts : ∀ c, s.consumer = some c → c.Counts files.length s.reads
  unread : s.consumer = none → s.reads = []

namespace Inv

/-- A consumer has as many buffers as the pool has files. -/
theorem nBuffers (h : s.Inv files) : s.nBuffers = files.length := by
  rw [← h.views, List.length_map]
  rfl

/-- At the beginning nothing has been sent. -/
theorem of_init (hs : (offloadMachine keep targetFrames).init s) :
    s.Inv (s.prod.bridge.pool.dmaBufFds.map (·.file)) := by
  obtain ⟨⟨build, n, size, sys, sys', hsound, hcreate⟩, hseqno, hready, hflight, hconsumer, hqueue, hpending,
    hreads⟩ := hs
  obtain ⟨hnodup, hviews, hpos, -⟩ := BridgeProducer.files_of_create hsound hcreate
  refine ⟨hnodup, ?_, rfl, hviews, ?_, ?_, ?_, ?_, ?_, fun _ => hreads⟩
  · rw [← hviews, List.length_map]
    exact hpos
  -- no frame has been stamped yet
  · rw [hseqno]
    intro k hk hle
    omega
  · rw [hready]
    exact nofun
  · unfold messages
    rw [hflight, hqueue, hpending]
    exact nofun
  · rw [hconsumer]
    exact nofun
  · rw [hconsumer]
    exact nofun

/-- Fewer descriptors, of frames that have been stamped. -/
theorem genuine_of_subset (h : s.Inv files) {ms : List DescMsg} (hsub : ms ⊆ s.messages) :
    ∀ m ∈ ms, Genuine files.length s.prod m := fun m hm => h.genuine m (hsub hm)

/-- A descriptor is lost on its way. -/
theorem erase (h : s.Inv files) (i : ℕ) : Inv files { s with flight := s.flight.eraseIdx i } := by
  refine ⟨h.nodup, h.pos, h.pool, h.views, h.stamped, h.begun, h.genuine_of_subset ?_, h.mapped, h.counts,
    h.unread⟩
  intro x hx
  unfold messages at hx ⊢
  simp only [List.mem_append] at hx ⊢
  rcases hx with (hx | hx) | hx
  · exact .inl (.inl (List.mem_of_mem_eraseIdx hx))
  · exact .inl (.inr hx)
  · exact .inr hx

/-- The next frame is stamped. -/
theorem stamp (h : s.Inv files) {view : Mapping}
    (hview : s.prod.bridge.buffer (s.prod.idx (s.prod.seqno + 1)) = some view) :
    Inv files { s with
      prod := { s.prod with seqno := s.prod.seqno + 1 }
      mem := Function.update s.mem view.file (Function.update (s.mem view.file) 0 (s.prod.seqno + 1))
      ready := true } := by
  -- the frame is stamped into the buffer that its number names
  have hfile : files[(s.prod.seqno + 1) % files.length]? = some view.file := by
    have hget : s.prod.bridge.views[(s.prod.seqno + 1) % s.nBuffers]? = some view := hview
    rw [h.nBuffers] at hget
    rw [← h.views, List.getElem?_map, List.length_map]
    rw [← h.views, List.length_map] at hget
    rw [hget]
    rfl
  refine ⟨h.nodup, h.pos, h.pool, h.views, h.stamped.next h.nodup h.pos hfile, fun _ => Nat.succ_pos _, ?_,
    h.mapped, h.counts, h.unread⟩
  intro m hm
  have hm := h.genuine m hm
  exact { hm with stamped := Nat.le_succ_of_le hm.stamped }

/-- A descriptor is read. -/
theorem read (h : s.Inv files) {m : DescMsg} {last : ℕ} (hpending : s.pending = some (m, last))
    {c : OffloadConsumer} (hc : s.consumer = some c) {word : ℕ} (hword : c.stamped m s.mem = some word) :
    word = m.seqno ↔ ¬ Overtaken files.length (m.seqno, s.prod.seqno) := by
  have hmem : m ∈ s.messages := by
    unfold messages
    rw [hpending]
    exact List.mem_append_right _ (List.mem_singleton.mpr rfl)
  obtain ⟨hpos, hle, hhandle, hoffset, -⟩ := h.genuine m hmem
  -- the buffer mapped under the handle is the frame's
  unfold OffloadConsumer.stamped at hword
  split_ifs at hword
  obtain ⟨⟨view, offset⟩, hpayload, rfl⟩ := Option.map_eq_some_iff.mp hword
  unfold BridgeConsumer.payload at hpayload
  obtain ⟨view', hview, heq⟩ := Option.map_eq_some_iff.mp hpayload
  obtain ⟨rfl, rfl⟩ := Prod.mk.inj heq
  have hfile := h.mapped c hc m.boHandle view' (Option.join_eq_some_iff.mp hview)
  rw [hhandle] at hfile
  have hfound : s.mem view'.file m.offset = wordOf files s.mem (m.seqno % files.length) := by
    rw [hoffset, wordOf, hfile]
    rfl
  show s.mem view'.file m.offset = m.seqno ↔ _
  rw [hfound, h.stamped.eq_iff h.pos hpos hle]
  exact not_le.symm

/-- **Every event keeps the invariant.** -/
theorem step (h : s.Inv files) (hs : s.step targetFrames e = some s') : s'.Inv files := by
  cases step_cases hs with
  | stamp view hready hview => exact h.stamp hview
  | publish now hready =>
      refine ⟨h.nodup, h.pos, h.pool, h.views, h.stamped, nofun, fun m hm => ?_, h.mapped, h.counts, h.unread⟩
      have hm : m ∈ (s.flight ++ [s.prod.message now]) ++ s.queue.1 ++ (s.pending.map (·.1)).toList := hm
      rw [List.append_assoc, List.append_assoc, List.mem_append, List.mem_append, List.mem_singleton] at hm
      -- a descriptor in flight is an old one, or the one just published
      rcases hm with hm | rfl | hm
      · exact h.genuine m (by unfold messages; simp [hm])
      · refine ⟨h.begun hready, le_rfl, ?_, rfl, rfl⟩
        show s.prod.seqno % s.nBuffers = _
        rw [h.nBuffers]
        rfl
      · exact h.genuine m (by unfold messages; rw [List.append_assoc]; exact List.mem_append_right _ hm)
  | attach installed mmap c hnone hcarry hc =>
      -- the views of the consumer map the files of the pool
      have hviews := (BridgeProducer.files_of_delivered hcarry hc).2
      rw [h.pool] at hviews
      refine ⟨h.nodup, h.pos, h.pool, h.views, h.stamped, h.begun, h.genuine, ?_, ?_, nofun⟩
      · rintro _ ⟨⟩ i view hview
        exact hviews i view hview
      · rintro _ ⟨⟩
        rw [h.unread hnone]
        exact ⟨rfl, rfl, Nat.zero_le _⟩
  | arrive i m hm c hc =>
      -- pushing drops the oldest descriptors, so those kept were there before
      obtain ⟨k, hpush⟩ := (listQueue_overflow DescMsg _).push s.queue m
      refine ⟨h.nodup, h.pos, h.pool, h.views, h.stamped, h.begun, h.genuine_of_subset ?_, h.mapped, h.counts,
        h.unread⟩
      intro x hx
      unfold messages at hx ⊢
      dsimp only at hx
      rw [hpush] at hx
      simp only [List.mem_append] at hx ⊢
      rcases hx with (hx | hx | hx) | hx
      · exact .inl (.inl (List.mem_of_mem_eraseIdx hx))
      · exact .inl (.inr (List.mem_of_mem_drop hx))
      · exact .inl (.inl (List.mem_singleton.mp hx ▸ List.mem_of_getElem? hm))
      · exact .inr hx
  | miss i m hm hc => exact h.erase i
  | lose i => exact h.erase i
  | take c m q hpending hc hpop =>
      -- the one taken leaves the queue and becomes the one pending
      have hqueue := (listQueue_overflow DescMsg _).pop_some _ _ _ hpop
      refine ⟨h.nodup, h.pos, h.pool, h.views, h.stamped, h.begun, h.genuine_of_subset ?_, h.mapped, h.counts,
        h.unread⟩
      intro x hx
      unfold messages at hx ⊢
      rw [hqueue]
      simp only [List.mem_append, List.mem_cons] at hx ⊢
      rcases hx with (hx | hx) | hx
      · exact .inl (.inl hx)
      · exact .inl (.inr (.inr hx))
      · exact .inl (.inr (.inl (List.mem_singleton.mp hx)))
  | skip now m last c hpending hc hnone =>
      refine ⟨h.nodup, h.pos, h.pool, h.views, h.stamped, h.begun, h.genuine_of_subset ?_, h.mapped, h.counts,
        h.unread⟩
      intro x hx
      exact List.mem_append_left _ (by simpa [messages] using hx)
  | read now m last c word hpending hc hword =>
      -- what the read found decides whether it counts as an error
      have hfound := h.read hpending hc hword
      refine ⟨h.nodup, h.pos, h.pool, h.views, h.stamped, h.begun, h.genuine_of_subset ?_, ?_, ?_, nofun⟩
      · intro x hx
        exact List.mem_append_left _ (by simpa [messages] using hx)
      · rintro _ ⟨⟩
        exact h.mapped c hc
      · rintro _ ⟨⟩
        refine (h.counts c hc).count ?_ _
        rw [decide_eq_true_iff]
        exact hfound

/-- The invariant holds throughout every run. -/
theorem of_run {tr : List OffloadEv} (hrun : (offloadMachine keep targetFrames).Run tr s) : ∃ files, s.Inv files :=
  hrun.invariant (P := fun _ s => ∃ files, s.Inv files) (fun _ hs => ⟨_, of_init hs⟩)
    fun _ _ _ _ _ ⟨files, h⟩ hs => ⟨files, h.step hs⟩

end Inv

end Offload

/-- **Payload errors are the frames overtaken.** In every run of the two nodes, whatever the topic loses or
reorders, a frame counts as a payload error exactly when the ring had come round to its buffer before it was read: when as
many frames had been stamped after it as the pool has buffers. The mean staleness is at most its maximum. The ROS2
consumer exits with `0` exactly when it has counted a frame and none of them was overtaken, the ROS1 consumer always
does. -/
theorem offload_payload_errors {keep : ℕ} {targetFrames : Option UInt64} {tr : List OffloadEv} {s : Offload keep}
    (hrun : (offloadMachine keep targetFrames).Run tr s) {c : OffloadConsumer} (hc : s.consumer = some c) :
    c.Counts s.nBuffers s.reads ∧
      (c.main targetFrames = 0 ↔
        targetFrames = none ∨ s.reads ≠ [] ∧ ∀ r ∈ s.reads, ¬ Offload.Overtaken s.nBuffers r) := by
  obtain ⟨files, hinv⟩ := Offload.Inv.of_run hrun
  rw [hinv.nBuffers]
  have hcounts := hinv.counts c hc
  refine ⟨hcounts, ?_⟩
  have hframes : c.frames = 0 ↔ s.reads = [] := by rw [hcounts.frames, List.length_eq_zero_iff]
  have herrors : c.payloadErrors = 0 ↔ ∀ r ∈ s.reads, ¬ Offload.Overtaken files.length r := by
    rw [hcounts.payloadErrors, List.countP_eq_zero]
    simp
  -- the ROS1 node exits with 0 whatever was counted
  cases targetFrames with
  | none => exact iff_of_true rfl (.inl rfl)
  | some target =>
      show c.summarize = 0 ↔ _
      unfold OffloadConsumer.summarize
      rw [← herrors]
      -- the ROS2 node tells apart no frame at all, and a frame that was overtaken
      by_cases hzero : c.frames = 0
      · simp [hzero, hframes.mp hzero]
      · have hne : s.reads ≠ [] := fun hnil => hzero (hframes.mpr hnil)
        by_cases herr : c.payloadErrors = 0 <;> simp [hzero, herr, hne]

/-- A frame is stamped, published and read. -/
def oneFrame : List OffloadEv := [.attach 2 (fun _ => true), .stamp, .publish 7, .arrive 0, .take, .read 9]

/-- The frame is found in its buffer. -/
theorem offload_payload_errors_oneFrame : ∃ (s : Offload 0) (c : OffloadConsumer), s.consumer = some c ∧
    c.frames = 1 ∧ c.payloadErrors = 0 ∧ c.main (some 1) = 0 := by
  obtain ⟨p, sys, hp⟩ : ∃ p sys, BridgeProducer.create ⟨false, false⟩ 2 4096 .Custom .obliging = (some p, sys) :=
    ⟨_, _, rfl⟩
  have hexec : ((offloadMachine 0 (some 1)).exec
      ⟨⟨p, 0⟩, fun _ _ => 0, false, [], none, (listQueue DescMsg 0).empty, none, []⟩ oneFrame).bind
        (fun s => s.consumer.map fun c => (s.nBuffers, s.reads, c.frames)) = some (2, [(1, 1)], 1) := by
    cases hp
    decide +kernel
  obtain ⟨s, hs, hres⟩ := Option.bind_eq_some_iff.mp hexec
  obtain ⟨c, hc, hres⟩ := Option.map_eq_some_iff.mp hres
  simp only [Prod.mk.injEq] at hres
  obtain ⟨hn, hreads, hframes⟩ := hres
  -- one frame has been read, the one that was stamped
  have hrun : (offloadMachine 0 (some 1)).Run oneFrame s :=
    .of_exec ⟨⟨_, _, _, _, _, Sys.sound_obliging, hp⟩, rfl, rfl, rfl, rfl, rfl, rfl, rfl⟩ hs
  have h := offload_payload_errors hrun hc
  rw [hn, hreads] at h
  exact ⟨s, c, hc, hframes, h.1.payloadErrors, h.2.mpr (.inr (by decide))⟩

end Axon
