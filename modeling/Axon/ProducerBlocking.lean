import Axon.Producer

/-! # When the producer blocks

`publish` sends the frame's fence to every consumer and the pool bundle to every new one, with blocking
sends. `frames_complete_iff` says exactly when a sequence of `acquire_descriptor` and `publish` calls
completes, whatever the consumers do in between. -/

namespace Axon

open Foundation

namespace TensorPublisher

/-- Every live consumer has room for the frame's fence, if the frame has one to send. -/
def FenceFits (p : TensorPublisher) (d : AcquiredDescriptor) (syncFd : Option Fd) : Prop :=
  syncFd ≠ none → d.desc.syncFenceKind = .SyncFileViaSidecar →
    ∀ c ∈ p.server.clients, c.peerOpen = true → c.HasRoom SyncFenceHeader.size

/-- The bundle that `publish` hands to new consumers. -/
def nextBundle (p : TensorPublisher) (pool : TensorPool) : Message :=
  (p.cachePool pool false).server.bundle

/-- **The condition under which `publish` does not wait**: the frame is refused, or there is room for its
fence and, for the consumers picked up on the way, room for the bundle. -/
def NoWait (p : TensorPublisher) (pool : TensorPool) (d : AcquiredDescriptor) (syncFd : Option Fd) :
    Prop :=
  p.check d ≠ none ∨ (p.FenceFits d syncFd ∧
    SidecarServer.PendingFit (p.nextBundle pool).files.length (p.nextBundle pool).size p.server.backlog)

/-- Sending one fence waits for no consumer but a live one without room. -/
theorem send_fence_isSome {c : Conn} {token : UInt64} {fd : Fd} :
    (sendFds c (SidecarServer.fenceMessage token fd)).isSome = true ↔
      (c.peerOpen = true → c.HasRoom SyncFenceHeader.size) := by
  have hfiles : ¬ kMaxSidecarFds < (SidecarServer.fenceMessage token fd).files.length := by
    simp [SidecarServer.fenceMessage, Message.files, kMaxSidecarFds]
  rw [SidecarServer.sendFds_isSome, or_iff_right hfiles]
  show c.peerOpen = false ∨ c.HasRoom SyncFenceHeader.size ↔ _
  cases c.peerOpen <;> simp

/-- `sendFence` returns when every live consumer has room for the fence, if there is one to send. -/
theorem sendFence_isSome {p : TensorPublisher} {desc : TensorDescriptor} {d : AcquiredDescriptor}
    {syncFd : Option Fd} (hkind : desc.syncFenceKind = d.desc.syncFenceKind) :
    (p.sendFence desc syncFd).isSome = true ↔ p.FenceFits d syncFd := by
  unfold sendFence FenceFits
  cases syncFd with
  | none => simp
  | some fd =>
      simp only [hkind]
      split_ifs with hk
      · rw [Option.isSome_map, SidecarServer.broadcastSyncFence, Option.isSome_map,
          SidecarServer.sendAll_isSome]
        simp [send_fence_isSome, hk]
      · simp [hk]

/-- The bundle cached next does not depend on what has been sent and published so far. -/
theorem nextBundle_eq (p : TensorPublisher) (pool : TensorPool) (seqno : SeqNo)
    (published : List TensorDescriptor) (clients : List Conn) :
    nextBundle { p with
        seqno := seqno, published := published, server := { p.server with clients := clients } } pool =
      p.nextBundle pool := by
  unfold nextBundle cachePool SidecarServer.setPool
  dsimp only
  split_ifs <;> rfl

/-- Picking up new consumers returns when there is room for the bundle in their FIFOs. -/
theorem pickUpConsumers_isSome {p : TensorPublisher} {pool : TensorPool} :
    (p.pickUpConsumers pool).isSome = true ↔ SidecarServer.PendingFit (p.nextBundle pool).files.length
      (p.nextBundle pool).size p.server.backlog := by
  rw [pickUpConsumers, Option.isSome_map, SidecarServer.acceptAndHandshake,
    SidecarServer.acceptLoop_isSome, (p.cachePool_conns pool false).2]
  rfl

/-- **When one `publish` completes.** -/
theorem publish_isSome {p : TensorPublisher} {pool : TensorPool} {now : UInt64}
    {d : AcquiredDescriptor} {syncFd : Option Fd} :
    (p.publish pool now d syncFd).isSome = true ↔ p.NoWait pool d syncFd := by
  unfold publish NoWait
  cases hcheck : p.check d with
  | some e => simp
  | none =>
      have hfence : (sendFence { p with seqno := p.seqno + 1 } (p.stamp pool now d) syncFd).isSome = true ↔
          FenceFits { p with seqno := p.seqno + 1 } d syncFd := sendFence_isSome rfl
      -- the number of the frame does not matter for the room it needs
      have hfits : FenceFits { p with seqno := p.seqno + 1 } d syncFd ↔ p.FenceFits d syncFd := Iff.rfl
      rw [hfits] at hfence
      simp only [ne_eq, not_true_eq_false, false_or, ← hfence]
      cases hsend : sendFence { p with seqno := p.seqno + 1 } (p.stamp pool now d) syncFd with
      | none => simp
      | some p' =>
          -- the fence may have filled the clients' buffers, never changed the backlog
          obtain ⟨clients, rfl, -⟩ := sendFence_spec hsend
          simp only [Option.isSome_map, pickUpConsumers_isSome, writeMeta, nextBundle_eq,
            Option.isSome_some, true_and]

end TensorPublisher

/-- A call of `acquire_descriptor` or `publish`, or something a consumer does. -/
def ProducerEv.IsFrame : ProducerEv → Prop
  | .handshake | .reallocate _ | .reannounce => False
  | _ => True

/-- `publish` calls meet the condition under which they do not wait. -/
def Producer.NoWait (s : Producer) : ProducerEv → Prop
  | .publish _ d syncFd => s.pub.NoWait s.pool d syncFd
  | _ => True

/-- **When a sequence of frames completes**: from any state, with any consumers doing anything in between,
a sequence of `acquire_descriptor` and `publish` calls runs to its end without waiting for a consumer to
read exactly when every `publish` in it is refused or finds room, in every live consumer's FIFO for its
fence and in every new consumer's FIFO for the bundle. -/
theorem frames_complete_iff (s : Producer) {evs : List ProducerEv} (hevs : ∀ e ∈ evs, e.IsFrame) :
    (producerMachine.exec s evs).isSome = true ↔ producerMachine.Meets Producer.NoWait s evs := by
  refine Machine.exec_isSome_iff (fun s e he => ?_) s
  have hframe := hevs e he
  cases e with
  | publish now d syncFd =>
      show ((s.pub.publish s.pool now d syncFd).map _).isSome = true ↔ _
      rw [Option.isSome_map]
      exact TensorPublisher.publish_isSome
  | handshake => exact hframe.elim
  | reallocate n => exact hframe.elim
  | reannounce => exact hframe.elim
  | _ => exact iff_of_true rfl trivial

/-- A frame without a fence completes with a consumer connected that has no room at all. -/
theorem frames_complete_unfenced : ∃ s : Producer,
    (s.pub.server.clients.any fun c => c.peerOpen && !decide (c.HasRoom 1)) = true ∧
    (producerMachine.exec s [.acquire, .publish 0 (.bytesFrame 16 .None) none]).isSome = true := by
  obtain ⟨s, hs⟩ : ∃ s, ((Producer.create ⟨false, false⟩ (.oneBuffer 4096) .obliging).bind fun s =>
      producerMachine.exec s [.connect 0 24 true, .handshake]) = some s := ⟨_, rfl⟩
  refine ⟨s, by cases hs; rfl, ?_⟩
  refine (frames_complete_iff _ fun e he => ?_).mpr ?_
  · rcases List.mem_cons.mp he with rfl | he
    · exact trivial
    · obtain rfl := List.mem_singleton.mp he
      exact trivial
  · refine ⟨trivial, fun s' hs' => ⟨?_, fun _ _ => trivial⟩⟩
    cases hs
    cases hs'
    exact .inr ⟨fun h => absurd rfl h, trivial⟩

/-- **The producer can block**: a consumer stays connected and never reads its socket, whose FIFO holds 40
bytes. The bundle and the first frame's fence fill it, and the second frame's `publish` waits. -/
theorem publish_blocks_on_full_fifo : ∃ s, producerMachine.Run [.connect 0 40 true, .handshake] s ∧
    (producerMachine.exec s [.acquire, .publish 0 (.bytesFrame 16 .SyncFileViaSidecar) (some ⟨9, ⟨9, 0⟩⟩),
      .acquire]).isSome = true ∧
    producerMachine.exec s [.acquire, .publish 0 (.bytesFrame 16 .SyncFileViaSidecar) (some ⟨9, ⟨9, 0⟩⟩),
      .acquire, .publish 0 (.bytesFrame 16 .SyncFileViaSidecar) (some ⟨9, ⟨9, 0⟩⟩)] = none :=
  ⟨_, .of_exec ⟨⟨false, false⟩, .oneBuffer 4096, .obliging, rfl⟩ rfl, rfl, rfl⟩

end Axon
