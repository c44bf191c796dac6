import Axon.Foundation.History
import Axon.Foundation.RingMargin
import Axon.ProducerSizes

/-! # The ring margin when frames are refused

`acquire_descriptor` moves on to the next buffer whether or not the frame is then accepted, while the published
descriptor moves only when it is. `frameRingMachine` is a producer whose owner acquires and publishes in turn;
`keepsMargin_iff` says when a buffer keeps its margin of `n - 1` accepted frames. -/

namespace Axon

open Foundation

/-- Anything but a frame's own calls and a reallocation. -/
def ProducerEv.BesidesFrames : ProducerEv → Prop
  | .acquire | .publish .. | .reallocate _ => False
  | _ => True

/-- Whether a call concerns frames can be read off it. -/
instance : DecidablePred ProducerEv.BesidesFrames
  | .acquire | .publish .. | .reallocate _ => isFalse not_false
  | .handshake | .reannounce | .connect .. | .acceptFails _ | .read .. | .hangup _ => isTrue trivial

/-- What an owner does who publishes one frame after the other. -/
inductive FrameEv
  | acquire
  /-- Fill in the descriptor acquired and publish it. -/
  | publish (now : UInt64) (desc : TensorDescriptor) (syncFd : Option Fd)
  | besides (e : ProducerEv)

/-- A producer and what has become of its frames. -/
structure FrameRing where
  prod : Producer
  /-- The descriptor acquired and not yet published. -/
  acquired : Option AcquiredDescriptor
  /-- The buffer of each descriptor handed out, oldest first. -/
  handed : List ℤ
  /-- Whether each frame was accepted, oldest first. -/
  accepted : List Bool

namespace FrameRing

/-- One of these steps. -/
def step (s : FrameRing) : FrameEv → Option FrameRing
  | .acquire =>
      match s.acquired with
      | some _ => none
      | none =>
          let (d, pub) := s.prod.pub.acquireDescriptor s.prod.pool
          some { s with
            prod := { s.prod with pub := pub }
            acquired := some d
            handed := s.handed ++ [d.bufferIndex] }
  | .publish now desc syncFd =>
      match s.acquired with
      | none => none
      | some d =>
          (s.prod.pub.publish s.prod.pool now { d with desc := desc } syncFd).map fun r =>
            { s with
              prod := { s.prod with pub := r.2 }
              acquired := none
              accepted := s.accepted ++ [r.1.isOk] }
  | .besides e => if e.BesidesFrames then (s.prod.step e).map fun prod => { s with prod := prod } else none

/-- The frame of turn `i` was accepted. -/
def Accepted (s : FrameRing) (i : ℕ) : Prop := s.accepted[i]? = some true

/-- Whether a frame was accepted can be read off the record. -/
instance (s : FrameRing) : DecidablePred s.Accepted := fun i =>
  inferInstanceAs (Decidable (s.accepted[i]? = some true))

/-- The number of buffers in the ring. -/
def size (s : FrameRing) : ℕ := s.prod.pool.dmaBufFds.length

/-- **Accepted frames keep their margin**: the buffer of an accepted frame has not been handed out again before
`n - 1` further frames were accepted, and the one handed out now is not that of the descriptor published. -/
structure KeepsMargin (s : FrameRing) : Prop where
  margin : ∀ i j b, i < j → s.handed[i]? = some b → s.handed[j]? = some b → s.Accepted i →
    s.size - 1 ≤ (keptBetween s.Accepted i j).card
  newest : ∀ d desc, s.acquired = some d → s.prod.pub.published.getLast? = some desc →
    d.bufferIndex ≠ desc.boHandle

/-- **Nothing refused in between**: when a frame was accepted and a whole round of buffers has been handed out
since, every frame from then to the last buffer handed out was accepted. -/
def NoneRefused (s : FrameRing) : Prop := Unbroken s.size s.Accepted s.handed.length

end FrameRing

/-- **The machine of the frames.** -/
def frameRingMachine : Machine FrameRing FrameEv where
  init s := producerMachine.init s.prod ∧ s.acquired = none ∧ s.handed = [] ∧ s.accepted = []
  step := FrameRing.step

namespace FrameRing

/-- **The invariant**: the buffers were handed out in turn, a frame is in the making exactly when one more
buffer was handed out than frames were published, and the published descriptor is that of the newest
accepted frame. -/
structure Inv (s : FrameRing) : Prop where
  next : s.prod.pub.nextIndex = s.handed.length
  handed : ∀ i < s.handed.length, s.handed[i]? = some ((i % s.size : ℕ) : ℤ)
  idle : s.acquired = none → s.accepted.length = s.handed.length
  filling : ∀ d, s.acquired = some d →
    s.handed.length = s.accepted.length + 1 ∧ d.bufferIndex = (s.accepted.length % s.size : ℕ)
  newest : ∀ desc, s.prod.pub.published.getLast? = some desc →
    ∃ i, s.Accepted i ∧ (∀ k, i < k → ¬ s.Accepted k) ∧ desc.boHandle = i % s.size

/-- What goes on besides the frames leaves the ring and the published descriptor alone. -/
theorem frozen_of_besides {p p' : Producer} {e : ProducerEv} (he : e.BesidesFrames) (hs : p.step e = some p') :
    p'.pool = p.pool ∧ p'.pub.nextIndex = p.pub.nextIndex ∧ p'.pub.published = p.pub.published := by
  have hpool : p'.pool = p.pool := Producer.pool_of_step hs fun n hn => by
    rw [hn] at he
    exact he
  have hrecord : p.pub.SameRecord p'.pub := Producer.sameRecord_of_step (fun now d fd hd => by
    rw [hd] at he
    exact he) hs
  refine ⟨hpool, ?_, hrecord.published⟩
  -- the ring is moved by `acquire` alone
  cases e with
  | acquire | publish | reallocate => exact he.elim
  | handshake =>
      obtain ⟨r, hr, rfl⟩ := Option.map_eq_some_iff.mp hs
      obtain ⟨r', -, rfl⟩ := Option.map_eq_some_iff.mp hr
      exact TensorPublisher.cachePool_nextIndex _ _ _
  | reannounce =>
      obtain ⟨⟨k, r⟩, hr, rfl⟩ := Option.map_eq_some_iff.mp hs
      obtain ⟨rb, ra, -, -, rfl⟩ := TensorPublisher.reannounce_cases hr
      exact TensorPublisher.cachePool_nextIndex _ _ _
  -- the consumers' side does not touch the publisher
  | connect | acceptFails | read | hangup =>
      cases hs
      rfl

/-- The pool is never replaced. -/
theorem pool_of_step {s s' : FrameRing} {e : FrameEv} (hs : s.step e = some s') :
    s'.prod.pool = s.prod.pool := by
  cases e with
  | acquire =>
      dsimp only [FrameRing.step] at hs
      split at hs <;> cases hs
      rfl
  | publish now desc syncFd =>
      dsimp only [FrameRing.step] at hs
      split at hs
      · cases hs
      · obtain ⟨r, -, rfl⟩ := Option.map_eq_some_iff.mp hs
        rfl
  | besides e =>
      dsimp only [FrameRing.step] at hs
      split_ifs at hs with he
      -- what is besides frames does not reallocate the pool either
      obtain ⟨prod, hprod, rfl⟩ := Option.map_eq_some_iff.mp hs
      exact (frozen_of_besides he hprod).1

/-- The next buffer is handed out. -/
theorem Inv.acquire {s s' : FrameRing} (h : s.Inv) (hne : s.prod.pool.dmaBufFds ≠ [])
    (hs : s.step .acquire = some s') : s'.Inv := by
  dsimp only [FrameRing.step] at hs
  split at hs
  · cases hs
  · rename_i hidle
    obtain ⟨hindex, -, hpub⟩ := s.prod.pub.acquireDescriptor_spec hne
    cases hs
    have hturns := h.idle hidle
    refine ⟨?_, ?_, nofun, ?_, ?_⟩
    · simp only [hpub, h.next, List.length_append, List.length_singleton]
    -- the index handed out is the next one of the round
    · intro i hi
      simp only [List.length_append, List.length_singleton] at hi
      by_cases hlast : i < s.handed.length
      · exact getElem?_snoc_of_some (h.handed i hlast) _
      -- the one handed out now
      · obtain rfl : i = s.handed.length := by omega
        rw [List.getElem?_concat_length, hindex, h.next]
        rfl
    · intro d hd
      obtain rfl := Option.some.inj hd
      refine ⟨by simp [hturns], ?_⟩
      rw [hindex, h.next, ← hturns]
      rfl
    · rw [hpub]
      exact h.newest

/-- A frame that is accepted is the newest. -/
theorem accepted_newest (l : List Bool) :
    (l ++ [true])[l.length]? = some true ∧ ∀ k, l.length < k → ¬ (l ++ [true])[k]? = some true := by
  refine ⟨List.getElem?_concat_length, fun k hk hacc => ?_⟩
  have hlt := (List.getElem?_eq_some_iff.mp hacc).1
  simp only [List.length_append, List.length_singleton] at hlt
  omega

/-- A frame that is refused leaves the newest one. -/
theorem refused_newest {l : List Bool} {i : ℕ} (hi : l[i]? = some true) (hlast : ∀ k, i < k → ¬ l[k]? = some true) :
    (l ++ [false])[i]? = some true ∧ ∀ k, i < k → ¬ (l ++ [false])[k]? = some true := by
  refine ⟨getElem?_snoc_of_some hi _, fun k hk hacc => ?_⟩
  rcases getElem?_snoc_cases hacc with hacc | ⟨-, hfalse⟩
  · exact hlast k hk hacc
  · cases hfalse

/-- A frame is published, or refused. -/
theorem Inv.publish {s s' : FrameRing} {now : UInt64} {desc : TensorDescriptor} {syncFd : Option Fd} (h : s.Inv)
    (hs : s.step (.publish now desc syncFd) = some s') : s'.Inv := by
  dsimp only [FrameRing.step] at hs
  split at hs
  · cases hs
  · rename_i d hd
    obtain ⟨⟨res, pub⟩, hpub, rfl⟩ := Option.map_eq_some_iff.mp hs
    obtain ⟨hturns, hindex⟩ := h.filling d hd
    have hnext := TensorPublisher.nextIndex_of_publish hpub
    refine ⟨hnext.trans h.next, h.handed, fun _ => ?_, nofun, ?_⟩
    · simp [hturns]
    -- the newest frame is this one if it is accepted, and stays the newest if not
    · intro desc' hdesc'
      cases res with
      | ok u =>
          rw [TensorPublisher.published_of_publish hpub, List.getLast?_append] at hdesc'
          obtain rfl := Option.some.inj hdesc'
          obtain ⟨hacc, hlast⟩ := accepted_newest s.accepted
          refine ⟨s.accepted.length, hacc, hlast, ?_⟩
          show (if 0 ≤ d.bufferIndex then d.bufferIndex.toNat else 0) = _
          rw [hindex, if_pos (Int.natCast_nonneg _)]
          rfl
      | error e =>
          obtain ⟨e', -, -, rfl⟩ | ⟨-, hres, -⟩ := TensorPublisher.publish_cases hpub
          swap
          · cases hres
          -- one more turn was taken without an accepted frame
          obtain ⟨i, hi, hlast, hbo⟩ := h.newest desc' hdesc'
          obtain ⟨hacc, hlast⟩ := refused_newest hi hlast
          exact ⟨i, hacc, hlast, hbo⟩

/-- Something happens besides the frames. -/
theorem Inv.besides {s s' : FrameRing} {e : ProducerEv} (h : s.Inv) (hs : s.step (.besides e) = some s') :
    s'.Inv := by
  dsimp only [FrameRing.step] at hs
  split_ifs at hs with he
  obtain ⟨prod, hprod, rfl⟩ := Option.map_eq_some_iff.mp hs
  obtain ⟨hpool, hnext, hpublished⟩ := frozen_of_besides he hprod
  have hsize : FrameRing.size { s with prod := prod } = s.size := by
    unfold FrameRing.size
    rw [hpool]
  refine ⟨hnext.trans h.next, ?_, h.idle, ?_, ?_⟩
  · rw [hsize]
    exact h.handed
  · rw [hsize]
    exact h.filling
  · rw [hsize, hpublished]
    exact h.newest

/-- **One step keeps the invariant.** -/
theorem Inv.step {s s' : FrameRing} {e : FrameEv} (h : s.Inv) (hne : s.prod.pool.dmaBufFds ≠ [])
    (hs : s.step e = some s') : s'.Inv := by
  cases e with
  | acquire => exact h.acquire hne hs
  | publish now desc syncFd => exact h.publish hs
  | besides e => exact h.besides hs

/-- **The invariant holds in every run** of a pool that has buffers. -/
theorem inv_of_run {tr : List FrameEv} {s : FrameRing} (hrun : frameRingMachine.Run tr s)
    (hne : s.prod.pool.dmaBufFds ≠ []) : s.Inv := by
  refine (hrun.invariant (P := fun _ s => s.prod.pool.dmaBufFds ≠ [] → s.Inv) ?_ ?_) hne
  · rintro s ⟨⟨build, cfg, sys, hcreate⟩, hidle, hhanded, haccepted⟩ _
    obtain ⟨-, hpublished, -, -, hnext, -⟩ := (Producer.create_spec hcreate).1
    refine ⟨?_, ?_, ?_, ?_, ?_⟩
    · rw [hnext, hhanded]
      rfl
    · simp [hhanded]
    · simp [hhanded, haccepted]
    · simp [hidle]
    · simp [hpublished]
  · intro tr s e s' _ ih hs hne'
    rw [pool_of_step hs] at hne'
    exact (ih hne').step hne' hs

/-- The margin of the buffers is that of the ring's cells. -/
theorem Inv.margin_iff {s : FrameRing} (h : s.Inv) :
    (∀ i j b, i < j → s.handed[i]? = some b → s.handed[j]? = some b → s.Accepted i →
      s.size - 1 ≤ (keptBetween s.Accepted i j).card) ↔ FullMargin s.size s.Accepted s.handed.length := by
  constructor
  · intro hmargin i j hij hj hacc hmod
    refine hmargin i j _ hij (h.handed i (hij.trans hj)) ?_ hacc
    rw [h.handed j hj, hmod]
  · intro hfull i j b hij hi hj hacc
    have hjlt := (List.getElem?_eq_some_iff.mp hj).1
    rw [h.handed i (hij.trans hjlt)] at hi
    rw [h.handed j hjlt, ← hi] at hj
    have hmod : j % s.size = i % s.size := Int.natCast_inj.mp (Option.some.inj hj)
    exact hfull i j hij hjlt hacc hmod

end FrameRing

/-- **When accepted frames keep their margin**, in every run of a pool of two or more buffers: exactly when,
once a frame has been accepted and a whole round of buffers has been handed out since, no frame in between has
been refused. -/
theorem keepsMargin_iff {tr : List FrameEv} {s : FrameRing} (hrun : frameRingMachine.Run tr s)
    (hn : 2 ≤ s.size) : s.KeepsMargin ↔ s.NoneRefused := by
  have hne : s.prod.pool.dmaBufFds ≠ [] := by
    intro hempty
    rw [FrameRing.size, hempty] at hn
    exact absurd hn (by decide)
  have h := FrameRing.inv_of_run hrun hne
  rw [FrameRing.NoneRefused, ← fullMargin_iff hn, ← h.margin_iff]
  constructor
  · exact fun hkeeps => hkeeps.margin
  · intro hmargin
    refine ⟨hmargin, fun d desc hd hdesc heq => ?_⟩
    obtain ⟨hturns, hindex⟩ := h.filling d hd
    obtain ⟨i, hi, hlast, hbo⟩ := h.newest desc hdesc
    have hlt : i < s.accepted.length := (List.getElem?_eq_some_iff.mp hi).1
    -- the buffer in hand is that of the next turn, and nothing was accepted since `i`
    have hother := (h.margin_iff.mp hmargin).newest hn hlt (by omega) hi fun k hik _ => hlast k hik
    rw [hindex, hbo] at heq
    exact hother (Int.natCast_inj.mp heq)

/-- A descriptor of sixteen bytes, and one that no publish accepts. -/
def FrameEv.good : FrameEv := .publish 7 (AcquiredDescriptor.bytesFrame 16 .None).desc none
/-- A descriptor that is refused. -/
def FrameEv.bad : FrameEv := .publish 7 default none

/-- A first frame refused and three accepted, on three buffers: the margin is kept when the fifth buffer is
handed out. -/
theorem keepsMargin_three : ∃ s : FrameRing, s.size = 3 ∧ s.accepted = [false, true, true, true] ∧
    s.handed = [0, 1, 2, 0, 1] ∧ s.KeepsMargin := by
  obtain ⟨prod, hprod⟩ : ∃ prod, Producer.create ⟨false, false⟩ (.memfds 3 4096) .obliging = some prod := ⟨_, rfl⟩
  obtain ⟨s, hs⟩ : ∃ s, frameRingMachine.exec ⟨prod, none, [], []⟩
      [.acquire, .bad, .acquire, .good, .acquire, .good, .acquire, .good, .acquire] = some s := by
    cases hprod
    exact ⟨_, rfl⟩
  obtain ⟨hsize, haccepted, hhanded⟩ : s.size = 3 ∧ s.accepted = [false, true, true, true] ∧
      s.handed = [0, 1, 2, 0, 1] := by
    cases hprod
    cases hs
    exact ⟨rfl, rfl, rfl⟩
  have hrun := Machine.Run.of_exec (M := frameRingMachine) ⟨⟨_, _, _, hprod⟩, rfl, rfl, rfl⟩ hs
  refine ⟨s, hsize, haccepted, hhanded, (keepsMargin_iff hrun (by rw [hsize]; decide)).mpr ?_⟩
  -- only a round that begins with the second publish ends within the five turns
  intro a b ha hround hturns c hac hcb
  rw [hsize] at hround
  rw [hhanded] at hturns
  have hturns : b < 5 := hturns
  unfold FrameRing.Accepted at ha ⊢
  rw [haccepted] at ha ⊢
  have hcases : c = 1 ∨ c = 2 ∨ c = 3 := by omega
  rcases hcases with rfl | rfl | rfl <;> rfl

/-- **A refused frame costs the margin**: on two buffers, one frame is accepted and the next refused, and the
buffer handed out then is the one the published descriptor names. -/
theorem refused_frame_costs_margin : ∃ (tr : List FrameEv) (s : FrameRing) (d : AcquiredDescriptor)
    (desc : TensorDescriptor), frameRingMachine.Run tr s ∧ s.size = 2 ∧ s.accepted = [true, false] ∧
    s.acquired = some d ∧ s.prod.pub.published.getLast? = some desc ∧ d.bufferIndex = 0 ∧
    desc.boHandle = 0 ∧ ¬ s.KeepsMargin := by
  obtain ⟨prod, hprod⟩ : ∃ prod, Producer.create ⟨false, false⟩ (.memfds 2 4096) .obliging = some prod := ⟨_, rfl⟩
  obtain ⟨s, hs⟩ : ∃ s, frameRingMachine.exec ⟨prod, none, [], []⟩
      [.acquire, .good, .acquire, .bad, .acquire] = some s := by
    cases hprod
    exact ⟨_, rfl⟩
  have hrun := Machine.Run.of_exec (M := frameRingMachine) ⟨⟨_, _, _, hprod⟩, rfl, rfl, rfl⟩ hs
  obtain ⟨d, desc, hsize, haccepted, hd, hdesc, hindex, hbo⟩ : ∃ d desc, s.size = 2 ∧
      s.accepted = [true, false] ∧ s.acquired = some d ∧ s.prod.pub.published.getLast? = some desc ∧
      d.bufferIndex = 0 ∧ desc.boHandle = 0 := by
    cases hprod
    cases hs
    exact ⟨_, _, rfl, rfl, rfl, rfl, rfl, rfl⟩
  -- buffer 0 is handed out again while it holds the newest frame
  refine ⟨_, s, d, desc, hrun, hsize, haccepted, hd, hdesc, hindex, hbo, fun h => ?_⟩
  exact h.newest d desc hd hdesc (by rw [hindex, hbo]; rfl)

end Axon
