import Axon.Foundation.StructLayout
import Axon.WaitSleep

/-! # A slot from an older publisher

Publishers built before the notify fields share a slot that ends after `desc`, and never touch the words
behind it. `create_subscriber` recognises such a slot by its size. Both versions of the structure are
aligned to 64 bytes, and the new fields lie in what was padding (`older_slot_sizeof`), so it recognises
none: `wait_any` sleeps on a word that stays zero. -/

namespace Axon

open Foundation
open TensorDescriptor (WordIdx)

/-! ## The two layouts -/

/-- The members of `TensorDescriptor`. -/
def TensorDescriptor.members : List Member :=
  [⟨8, 8⟩, ⟨8, 8⟩, ⟨8, 8⟩, ⟨8, 8⟩, ⟨8, 8⟩,  -- bo_handle, seqno, pool_generation, the two clocks
    ⟨4 * kMaxRank, 4⟩, ⟨8, 8⟩, ⟨8, 8⟩, ⟨8, 8⟩,  -- shape, offset, size, sync_fence_token
    ⟨4, 4⟩, ⟨4, 4⟩, ⟨4, 4⟩,  -- row_pitch, depth_scale, invalid_value
    ⟨4, 4⟩, ⟨4, 4⟩, ⟨4, 4⟩, ⟨4, 4⟩, ⟨4, 4⟩, ⟨4, 4⟩,  -- the intrinsics
    ⟨1, 1⟩, ⟨1, 1⟩, ⟨1, 1⟩, ⟨1, 1⟩, ⟨1, 1⟩, ⟨1, 1⟩, ⟨6, 1⟩]  -- rank to layout, reserved

/-- The wire size that the code asserts. -/
example : sizeof 8 TensorDescriptor.members = 144 := by decide

/-- The members of `MetadataSlot` up to `desc`: `guard`, `wire_version`, `ready` and `desc`. -/
def MetadataSlot.olderMembers : List Member :=
  [⟨8, 8⟩, ⟨4, 4⟩, ⟨4, 4⟩, ⟨sizeof 8 TensorDescriptor.members, 8⟩]

/-- `notify` and `waiters`. -/
def MetadataSlot.notifyMembers : List Member := [⟨4, 4⟩, ⟨4, 4⟩]

/-- The size of the slot of an older publisher. -/
def MetadataSlot.olderSize : ℕ := sizeof 64 olderMembers

/-- `sizeof(MetadataSlot)`. -/
def MetadataSlot.size : ℕ := sizeof 64 (olderMembers ++ notifyMembers)

/-- **The notify fields lie in the padding** of the older slot, which is as large as the new one. -/
theorem older_slot_sizeof : MetadataSlot.size = MetadataSlot.olderSize :=
  sizeof_append_of_le (by decide) (by decide) (by decide +kernel)

/-- **`create_subscriber`**, where `st_size` is the size that `fstat` reports. -/
def MetadataChannel.createSubscriber (stSize : Option ℕ) : MetadataChannel where
  hasNotify :=
    match stSize with
    | some n => !decide (n < MetadataSlot.size)
    | none => true

/-- An older slot is taken for a new one. -/
theorem createSubscriber_older {stSize : Option ℕ} (h : stSize = none ∨
    stSize = some MetadataSlot.olderSize) : MetadataChannel.createSubscriber stSize = ⟨true⟩ := by
  obtain rfl | rfl := h
  · rfl
  · rw [MetadataChannel.createSubscriber, older_slot_sizeof]
    simp

/-! ## An older publisher and a current subscriber -/

/-- One access of the older `publish`, which returns once `ready` is set. -/
def olderPublishStep (m : MetadataSlot) : PublishPc → PublishEv → Option (MetadataSlot × PublishPc)
  -- no notify word is bumped, no flag is exchanged
  | .readied, .ret => some (m, .idle)
  | .readied, _ => none
  | pc, e => publishStep m pc e

/-- The slot of an older publisher, with a current subscriber. -/
structure OlderStream where
  slot : SlotState Unit
  waiter : Waiter Unit
  /-- The frames stored in the slot so far, oldest first. -/
  stored : List TensorDescriptor

/-- What happens. -/
inductive OlderEv
  | pub (e : PublishEv)
  | wait (e : WaitEv Unit)

namespace OlderStream

/-- The subscriber. -/
def sub (s : OlderStream) : TensorSubscriber := s.waiter.subs ()

/-- The four bytes that a current subscriber takes for the notify word. -/
def notify (s : OlderStream) (_ : Unit) : UInt32 := s.slot.slot.notify

/-- The frames stored after an access of `publish`. -/
def storedAfter (s : OlderStream) (e : PublishEv) : List TensorDescriptor :=
  match s.slot.writer, e with
  | .copying d _ _, .storeEven => s.stored ++ [d]
  | _, _ => s.stored

/-- One event. -/
def step (s : OlderStream) : OlderEv → Option OlderStream
  | .pub e => (olderPublishStep s.slot.slot s.slot.writer e).map fun p => { s with
      slot := { s.slot with slot := p.1, writer := p.2 }
      stored := s.storedAfter e }
  | .wait e => (s.waiter.step s.notify e).bind fun w =>
      match e.access () with
      | none => some { s with waiter := w }
      | some (_, a) => (s.slot.step a).map fun slot => { s with slot := slot, waiter := w }

end OlderStream

/-- **An older publisher from its creation, and a current subscriber** attached to it through
`create_subscriber`, which remembers the value `seen` of the notify word of an earlier publisher, or zero. -/
def olderMachine (seen : UInt32) : Machine OlderStream OlderEv where
  init s := s.slot = .initial ∧ s.waiter.phase = .idle ∧ s.stored = [] ∧ s.sub.seenNotify = seen ∧
    ∃ stSize, (stSize = none ∨ stSize = some MetadataSlot.olderSize) ∧
      s.sub.metadata = some (.createSubscriber stSize)
  step := OlderStream.step

namespace OlderStream

variable {seen : UInt32} {tr : List OlderEv} {s s' : OlderStream}

/-- The older `publish` leaves the word alone, and stays out of the part that would bump it. -/
theorem olderPublishStep_spec {m m' : MetadataSlot} {pc pc' : PublishPc} {e : PublishEv}
    (h : olderPublishStep m pc e = some (m', pc')) (hpc : pc.stage ≤ 4) :
    m'.notify = m.notify ∧ pc'.stage ≤ 4 := by
  unfold olderPublishStep at h
  split at h
  · cases h
    exact ⟨rfl, Nat.zero_le _⟩
  · cases h
  · rename_i hret hother
    -- up to `ready` both versions make the same accesses
    have hc := publishStep_cases h
    cases hc with
    | bumpNotify => exact (hret rfl).elim
    | takeWaiters => simp [PublishPc.stage] at hpc
    | wake => simp [PublishPc.stage] at hpc
    | ret => simp [PublishPc.stage] at hpc
    | _ => exact ⟨rfl, by simp [PublishPc.stage]⟩

/-- **The subscriber hears nothing**: the word is zero, and what is remembered of it is zero or stems from
an earlier publisher; the stream is reported only in the second case. -/
structure Deaf (seen : UInt32) (s : OlderStream) : Prop where
  writer : s.slot.writer.stage ≤ 4
  notify : s.slot.slot.notify = 0
  metadata : s.sub.metadata = some ⟨true⟩
  seenNotify : s.sub.seenNotify = seen ∨ s.sub.seenNotify = 0
  viewing : ∀ notify_now, s.waiter.phase = .viewing () notify_now → notify_now = 0
  reported : s.waiter.phase = .reported () → s.sub.seenNotify ≠ 0
  asleep : ∀ ws, s.waiter.phase = .asleep ws → () ∈ ws → s.sub.seenNotify = 0

namespace Deaf

/-- At the beginning the subscriber has seen what the slot shows. -/
theorem initial (h : (olderMachine seen).init s) : Deaf seen s := by
  obtain ⟨hslot, hphase, -, hseen, stSize, hstat, hmeta⟩ := h
  refine ⟨?_, ?_, ?_, .inl hseen, fun n hn => ?_, fun hn => ?_, fun ws hn => ?_⟩
  · rw [hslot]
    exact Nat.zero_le _
  · rw [hslot]
    rfl
  · rw [hmeta, createSubscriber_older hstat]
  all_goals cases hphase.symm.trans hn

/-- The subscriber's accesses leave the word and the publisher alone. -/
theorem access {e : WaitEv Unit} {i : Unit} {a : SlotEv Unit} {slot slot' : SlotState Unit}
    (ha : e.access () = some (i, a)) (hs : slot.step a = some slot') :
    slot'.writer = slot.writer ∧ slot'.slot.notify = slot.slot.notify := by
  cases SlotState.step_cases hs with
  | rd hc => exact ⟨rfl, rfl⟩
  | raise r => exact ⟨rfl, rfl⟩
  | pub hc =>
      obtain ⟨e', h⟩ | h := WaitEv.access_cases ha
      · cases h
      · cases h

/-- A step of the subscriber. -/
theorem wait (h : Deaf seen s) {e : WaitEv Unit} {w : Waiter Unit} {slot : SlotState Unit}
    (hw : s.waiter.StepCase s.notify e w) (hwriter : slot.writer = s.slot.writer)
    (hnotify : slot.slot.notify = s.slot.slot.notify) :
    Deaf seen { s with slot := slot, waiter := w } := by
  have hzero : s.notify () = 0 := h.notify
  have hmarks : (w.subs ()).metadata = s.sub.metadata ∧
      ((w.subs ()).seenNotify = s.sub.seenNotify ∨ (w.subs ()).seenNotify = 0) := by
    obtain hsame | ⟨d, retries, now, notify_now, -, hphase, -, hmeta, hseen, -⟩ := hw.marks h.metadata
    · exact ⟨hsame.metadata, .inl hsame.seenNotify⟩
    · -- `latest_view` loads zero and remembers it
      exact ⟨hmeta, .inr (hseen.trans (h.viewing notify_now hphase))⟩
  refine ⟨?_, hnotify.trans h.notify, hmarks.1.trans h.metadata, ?_, ?_, ?_, ?_⟩
  · rw [hwriter]
    exact h.writer
  · obtain hsame | hseen := hmarks.2
    · exact h.seenNotify.imp hsame.trans hsame.trans
    · exact .inr hseen
  · intro notify_now hphase
    obtain ⟨n, -, hnow⟩ | ⟨hphase, -⟩ := hw.viewing hphase
    · exact hnow.trans hzero
    · exact h.viewing notify_now hphase
  · intro hphase
    obtain ⟨hsubs, ch, read, hch, hup⟩ := hw.reported hphase
    obtain rfl := Option.some.inj (hch.symm.trans h.metadata)
    -- reported because the word differs from what is remembered
    have hne : s.notify () ≠ (s.waiter.subs ()).seenNotify := of_decide_eq_true hup
    show (w.subs ()).seenNotify ≠ 0
    rw [hsubs, ← hzero]
    exact hne.symm
  · intro ws hphase hws
    obtain ⟨hsubs, -, hsame⟩ := hw.asleep hphase
    show (w.subs ()).seenNotify = 0
    rw [hsubs, ← hzero]
    exact (hsame () hws).symm

/-- **A step leaves the subscriber deaf.** -/
theorem step (h : Deaf seen s) {e : OlderEv} (hs : s.step e = some s') : Deaf seen s' := by
  cases e with
  | pub e =>
      obtain ⟨⟨m, pc⟩, hp, rfl⟩ := Option.map_eq_some_iff.mp hs
      obtain ⟨hnotify, hpc⟩ := olderPublishStep_spec hp h.writer
      exact ⟨hpc, hnotify.trans h.notify, h.metadata, h.seenNotify, h.viewing, h.reported, h.asleep⟩
  | wait e =>
      obtain ⟨w, hw, hs⟩ := Option.bind_eq_some_iff.mp hs
      split at hs
      · cases hs
        exact h.wait (Waiter.step_cases hw) rfl rfl
      · rename_i i a ha
        obtain ⟨slot, hslot, rfl⟩ := Option.map_eq_some_iff.mp hs
        obtain ⟨hwriter, hnotify⟩ := access ha hslot
        exact h.wait (Waiter.step_cases hw) hwriter hnotify

/-- **In every run** it is. -/
theorem of_run (h : (olderMachine seen).Run tr s) : Deaf seen s := by
  refine h.invariant (P := fun _ s => Deaf seen s) (fun s hs => initial hs) ?_
  intro tr s e s' _ hd hs
  exact hd.step hs

end Deaf

/-- The newest frame stored has not been handed out. -/
def HasNewer (s : OlderStream) : Prop := ∃ d ∈ s.stored, s.sub.seenSeqno < d.seqno

end OlderStream

/-- **No update from an older slot**: whatever frames its publisher has stored, `has_update` is true exactly
while the subscriber remembers a notify word of an earlier publisher that was not zero. The channel is
taken to have a notify word; the stream is reported only in that case, and the subscriber sleeps on it only
in the other. A subscriber that remembers zero never has an update. -/
theorem older_slot_update_iff {seen : UInt32} {tr : List OlderEv} {s : OlderStream}
    (hrun : (olderMachine seen).Run tr s) :
    s.sub.hasNotifyWord = true ∧
    (∀ ch read, s.sub.metadata = some ch →
      (hasUpdate ch (s.notify ()) read s.sub.seenNotify s.sub.seenSeqno = true ↔ s.sub.seenNotify ≠ 0)) ∧
    (s.waiter.phase = .reported () → s.sub.seenNotify ≠ 0) ∧
    (∀ ws, s.waiter.phase = .asleep ws → () ∈ ws → s.sub.seenNotify = 0) ∧
    (s.sub.seenNotify = seen ∨ s.sub.seenNotify = 0) := by
  have h := OlderStream.Deaf.of_run hrun
  refine ⟨?_, fun ch read hch => ?_, h.reported, h.asleep, h.seenNotify⟩
  · rw [TensorSubscriber.hasNotifyWord, h.metadata]
    rfl
  -- the word behind an older slot is zero for ever
  · obtain rfl := Option.some.inj (hch.symm.trans h.metadata)
    have hzero : s.notify () = 0 := h.notify
    show decide (s.notify () ≠ s.sub.seenNotify) = true ↔ _
    rw [decide_eq_true_iff, hzero]
    exact ne_comm

/-- An older publisher that stores its first frame, and a subscriber that waits for it. -/
def waitForOlder : List OlderEv :=
  ((publishAccesses { (default : TensorDescriptor) with seqno := 1 }).take (WordIdx.all.length + 4)).map
      OlderEv.pub ++
    [.pub .ret, .wait (.waitCall [()]), .wait (.raise ()), .wait (.check () none), .wait .sleep]

/-- The subscriber has just opened the older slot. -/
def olderStream : OlderStream where
  slot := .initial
  waiter := ⟨fun _ => { TensorSubscriber.create with
    metadata := some (.createSubscriber (some MetadataSlot.olderSize)) }, .idle⟩
  stored := []

/-- A stream of an older publisher is a beginning. -/
theorem olderStream_init : (olderMachine 0).init olderStream :=
  ⟨rfl, rfl, rfl, rfl, some MetadataSlot.olderSize, .inr rfl, rfl⟩

/-- The subscriber sleeps with the frame unread. -/
theorem older_slot_sleeps : ∃ (tr : List OlderEv) (s : OlderStream), (olderMachine 0).Run tr s ∧
    s.HasNewer ∧ s.waiter.phase = .asleep [()] ∧ ∀ ch read, s.sub.metadata = some ch →
      hasUpdate ch (s.notify ()) read s.sub.seenNotify s.sub.seenSeqno = false := by
  have hexec : ((olderMachine 0).exec olderStream waitForOlder).map (fun s =>
      (s.waiter.phase.isAsleep, s.stored.map (·.seqno), s.sub.seenSeqno)) = some (true, [1], 0) := by
    decide +kernel
  obtain ⟨s, hs, hres⟩ := Option.map_eq_some_iff.mp hexec
  simp only [Prod.mk.injEq] at hres
  obtain ⟨hasleep, hstored, hseqno⟩ := hres
  have hphase := WaiterPhase.eq_asleep hasleep
  have h := OlderStream.Deaf.of_run (.of_exec olderStream_init hs)
  refine ⟨_, s, .of_exec olderStream_init hs, ?_, hphase, fun ch read hch => ?_⟩
  -- the slot holds frame 1
  · obtain ⟨d, hd, hnum⟩ : ∃ d ∈ s.stored, d.seqno = 1 := by
      rw [← List.mem_map, hstored]
      exact List.mem_singleton.mpr rfl
    refine ⟨d, hd, ?_⟩
    rw [hnum, hseqno]
    exact Nat.one_pos
  -- the word compared is zero on both sides
  · obtain rfl := Option.some.inj (hch.symm.trans h.metadata)
    have hsame : s.notify () = s.sub.seenNotify :=
      h.notify.trans (h.asleep [()] hphase (List.mem_singleton.mpr rfl)).symm
    exact decide_eq_false (not_not.mpr hsame)

/-- The run of the counterexample, as the theorem sees it. -/
theorem older_slot_update_iff_asleep : ∃ s : OlderStream, s.waiter.phase = .asleep [()] ∧
    s.sub.seenNotify = 0 ∧ s.sub.hasNotifyWord = true := by
  have hexec : ((olderMachine 0).exec olderStream waitForOlder).map (·.waiter.phase.isAsleep) =
      some true := by
    decide +kernel
  obtain ⟨s, hs, hasleep⟩ := Option.map_eq_some_iff.mp hexec
  have hphase := WaiterPhase.eq_asleep hasleep
  have h := older_slot_update_iff (.of_exec olderStream_init hs)
  exact ⟨s, hphase, h.2.2.2.1 [()] hphase (List.mem_singleton.mpr rfl), h.1⟩

end Axon
