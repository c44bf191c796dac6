import Axon.ProducerBundles

/-! # The buffer size in the pool, the publisher and the bundle

The size of a buffer is kept in three places: by the pool, by the publisher, which reads it once when it
is created, and in the header of the bundles announced. `published_frames_fit` says what holds of a
frame's range in runs in which no reallocation changes the size. -/

namespace Axon

open Foundation

/-- A message announces buffers of `n` bytes, if it announces any. -/
def Message.HasSize (n : UInt64) : Message → Prop
  | .pool header _ _ => header.bufferSize = n
  | .fence _ _ => True

/-- A message announced as such has the size announced. -/
theorem Message.Announced.hasSize {a : Announcement} {m : Message} (h : m.Announced a) :
    m.HasSize a.size := by
  cases m with
  | pool header files ext => exact h.1
  | fence header file => trivial

namespace Producer

/-- **The condition on a step**: a reallocation asks for buffers of the size the publisher works with. -/
def KeepsSize (s : Producer) : ProducerEv → Prop
  | .reallocate n => s.pool.requestedSize n s.sys = s.pub.bufferSize
  | _ => True

end Producer

/-- The producer machine, started with a pool that knows its buffers' size. -/
def sizedProducerMachine : Machine Producer ProducerEv where
  init s := producerMachine.init s ∧ s.pool.bufferSize ≠ 0
  step := producerMachine.step

namespace Producer

/-- A publisher works with the size of the pool it is created on. -/
theorem bufferSize_of_create {s : Producer} (h : producerMachine.init s)
    (hsize : s.pool.bufferSize ≠ 0) : s.pub.bufferSize = s.pool.bufferSize := by
  obtain ⟨build, cfg, sys, h⟩ := h
  unfold create at h
  split at h
  · cases h
  · split at h
    · cases h
    · rename_i pub sys₂ hpub
      cases h
      unfold TensorPublisher.create TensorPublisher.initialBufferSize at hpub
      -- the size is the pool's, as that is not zero
      simp only [if_pos hsize] at hpub
      split_ifs at hpub
      · cases hpub
      · cases hpub
      · split at hpub
        · cases hpub
        · split at hpub
          · cases hpub
          · cases hpub
            rfl

/-- Only a reallocation changes the pool. -/
theorem pool_of_step {s s' : Producer} {e : ProducerEv} (hs : s.step e = some s')
    (he : ∀ n, e ≠ .reallocate n) : s'.pool = s.pool := by
  cases e with
  | reallocate n => exact absurd rfl (he n)
  | handshake | publish | reannounce =>
      obtain ⟨r, -, rfl⟩ := Option.map_eq_some_iff.mp hs
      rfl
  | acquire | connect | acceptFails | read | hangup =>
      cases hs
      rfl

/-- **One step keeps the pool's buffer size**, if a reallocation asks for the size announced. -/
theorem bufferSize_of_step {s s' : Producer} {e : ProducerEv} {a : Announcement}
    (ha : s.pub.Announces a) (h : s.pool.bufferSize = a.size) (hkeep : s.KeepsSize e)
    (hs : s.step e = some s') : s'.pool.bufferSize = a.size := by
  by_cases he : ∃ n, e = .reallocate n
  · obtain ⟨n, rfl⟩ := he
    cases hs
    have hsize := s.pool.retireAndReallocate_bufferSize n s.sys
    exact hsize.trans (hkeep.trans ha.size)
  · push Not at he
    rw [pool_of_step hs he, h]

/-- In a run that keeps the size, the size announced is the pool's. -/
theorem announces_pool_size {tr : List ProducerEv} {s : Producer}
    (h : sizedProducerMachine.RunWhere KeepsSize tr s) :
    ∃ a, s.Announces a ∧ s.pool.bufferSize = a.size := by
  refine h.invariant (P := fun _ s => ∃ a, Producer.Announces s a ∧ s.pool.bufferSize = a.size)
    (fun s (hs : producerMachine.init s ∧ s.pool.bufferSize ≠ 0) =>
      ⟨_, announces_of_create hs.1, (bufferSize_of_create hs.1 hs.2).symm⟩) ?_
  intro _ s e s' _ ⟨a, ha, hsize⟩ hkeep hs
  obtain ⟨a', ha', hsize', -⟩ := announces_step ha hs
  exact ⟨a', ha', hsize'.symm ▸ bufferSize_of_step ha.pub hsize hkeep hs⟩

end Producer

/-- **Published frames fit the pool generation they name**, in every run whose reallocations all ask for the
size the pool was created with. Whatever is published next: when `publish` returns 0, the descriptor it
published names the pool's generation and its range lies inside the pool's buffers, and the bundle
announced for this generation, like every bundle ever sent, tells the pool's buffer size. When `publish`
refuses with `EMSGSIZE`, the range does not fit the pool's buffers. -/
theorem published_frames_fit {tr : List ProducerEv} {s : Producer}
    (hrun : sizedProducerMachine.RunWhere Producer.KeepsSize tr s) (now : UInt64)
    (d : AcquiredDescriptor) (syncFd : Option Fd) (p' : TensorPublisher) :
    (s.pub.publish s.pool now d syncFd = some (.ok (), p') →
      ∃ desc ∈ p'.published, desc.offset = d.desc.offset ∧ desc.size = d.desc.size ∧
        desc.poolGeneration = s.pool.generation ∧ desc.FitsIn s.pool.bufferSize ∧
        p'.server.header.poolGeneration = .ofNat s.pool.generation ∧
        p'.server.header.bufferSize = s.pool.bufferSize ∧
        p'.server.AllSent (Message.HasSize s.pool.bufferSize)) ∧
    (s.pub.publish s.pool now d syncFd = some (.error .EMSGSIZE, p') →
      ¬ d.desc.FitsIn s.pool.bufferSize) := by
  obtain ⟨a, h, hpool⟩ := Producer.announces_pool_size hrun
  rw [hpool]
  -- accepted: the checks passed with the size of the pool
  constructor
  · intro hp
    obtain ⟨hann, hcheck, hmem, hbundle, hgen⟩ := h.pub.publish_ok h.pool hp
    rw [TensorPublisher.check, h.pub.size] at hcheck
    exact ⟨_, hmem, rfl, rfl, rfl, fitsIn_of_descriptorError hcheck, hgen, hbundle.1,
      hann.sent.mono fun _ hm => hm.announced.hasSize⟩
  -- refused: they failed with it
  · intro hp
    obtain ⟨-, hcheck⟩ := h.pub.publish_error hp
    rw [TensorPublisher.check, h.pub.size] at hcheck
    exact not_fitsIn_of_descriptorError hcheck

/-- A pool of one page, reallocated at its size and announced again, takes a frame of a page. -/
theorem published_frames_fit_onePage : ∃ (s : Producer) (p' : TensorPublisher),
    s.pub.publish s.pool 7 (.bytesFrame 4096 .None) none = some (.ok (), p') ∧
    ∃ desc ∈ p'.published, desc.poolGeneration = 2 ∧ desc.FitsIn s.pool.bufferSize ∧
      p'.server.header.bufferSize = s.pool.bufferSize := by
  obtain ⟨s₀, hs₀⟩ : ∃ s, Producer.create ⟨false, false⟩ (.oneBuffer 4096) .obliging = some s := ⟨_, rfl⟩
  obtain ⟨s, hs⟩ : ∃ s, sizedProducerMachine.exec s₀ [.reallocate 4096, .reannounce] = some s := by
    cases hs₀
    exact ⟨_, rfl⟩
  have hrun := Machine.RunWhere.of_exec (M := sizedProducerMachine) (C := Producer.KeepsSize)
    ⟨⟨_, _, _, hs₀⟩, by cases hs₀; decide⟩ hs ⟨by cases hs₀; rfl, fun _ _ => ⟨trivial, fun _ _ => trivial⟩⟩
  obtain ⟨p', hp⟩ : ∃ p', s.pub.publish s.pool 7 (.bytesFrame 4096 .None) none = some (.ok (), p') := by
    cases hs₀
    cases hs
    exact ⟨_, rfl⟩
  obtain ⟨desc, hmem, -, -, hgen, hfit, -, hsize, -⟩ := (published_frames_fit hrun _ _ _ p').1 hp
  -- the pool has been reallocated once
  refine ⟨s, p', hp, desc, hmem, hgen.trans ?_, hfit, hsize⟩
  cases hs₀
  cases hs
  rfl

/-- **A reallocation to another size breaks the agreement.** Halving a pool of two pages and announcing it
again, the publisher accepts a frame of two pages and announces two pages. Doubling a pool of one page, it
refuses a frame of two pages, which the pool's buffers have room for. -/
theorem resized_pool_disagrees :
    (∃ (s s' : Producer) (p' : TensorPublisher), Producer.create ⟨false, false⟩ (.oneBuffer 8192) .obliging = some s ∧
      producerMachine.exec s [.reallocate 4096, .reannounce] = some s' ∧
      s'.pub.publish s'.pool 7 (.bytesFrame 8192 .None) none = some (.ok (), p') ∧
      s'.pool.bufferSize = 4096 ∧ p'.server.header.bufferSize = 8192) ∧
    ∃ (s s' : Producer) (p' : TensorPublisher), Producer.create ⟨false, false⟩ (.oneBuffer 4096) .obliging = some s ∧
      producerMachine.exec s [.reallocate 8192, .reannounce] = some s' ∧
      s'.pub.publish s'.pool 7 (.bytesFrame 8192 .None) none = some (.error .EMSGSIZE, p') ∧
      s'.pool.bufferSize = 8192 :=
  ⟨⟨_, _, _, rfl, rfl, rfl, rfl, rfl⟩, ⟨_, _, _, rfl, rfl, rfl, rfl⟩⟩

end Axon
