import Axon.WaitAny

/-! # What a subscriber has seen of its stream

A subscriber remembers the value of the notify word and the number of the last frame it was handed fresh.
`Watermark` relates both to the publisher's progress: the word counted `b` frames when `latest_view`
loaded it, and the frame read afterwards is at least the `b`-th, because a frame is counted only after it
has been stored.

* **`Viewing`** is the part of the invariant for a thread inside `latest_view`.
* **`viewed_ge`**: a frame handed out is no older than what the notify word counted. -/

namespace Axon

open Foundation

/-! ## How far a publisher has come -/

namespace Publication

variable {R : Type} [DecidableEq R] {tr : List (PublicationEv R)} {s s' : Publication R}

/-- The frames published are those that `publish` has returned from, and the one it is about. -/
theorem called_eq (h : (publicationMachine R).Run tr s) : s.prod.pub.published.length =
    pubCount .ret (slotTrace tr) + if 1 ≤ s.slot.writer.stage then 1 else 0 := by
  rw [← (Numbers.of_run h).args]
  exact (WriterInv.of_run (slot_run h)).counts.called

/-- The frames written are those whose closing guard store has happened. -/
theorem stored_eq (h : (publicationMachine R).Run tr s) : s.stored = pubCount .storeEven (slotTrace tr) := by
  have hclosed := (WriterInv.of_run (slot_run h)).counts.closed
  have hcalled := called_eq h
  unfold stored passed
  -- the stages from the closing guard store on count the frame as stored
  split_ifs at * <;> omega

/-- The frames counted are those whose increment of the notify word has happened. -/
theorem counted_eq (h : (publicationMachine R).Run tr s) :
    s.counted = pubCount .bumpNotify (slotTrace tr) := by
  have hnotified := (WriterInv.of_run (slot_run h)).counts.notified
  have hcalled := called_eq h
  unfold counted passed
  split_ifs at * <;> omega

/-- The word counts the frames, modulo `2^32`. -/
theorem notify_eq (h : (publicationMachine R).Run tr s) : s.slot.slot.notify = UInt32.ofNat s.counted := by
  rw [counted_eq h]
  exact (WriterInv.of_run (slot_run h)).notify

omit [DecidableEq R] in
/-- A frame is stored before it is counted. -/
theorem counted_le_stored (s : Publication R) : s.counted ≤ s.stored := by
  unfold counted stored passed
  split_ifs <;> omega

omit [DecidableEq R] in
/-- A frame is published before it is stored. -/
theorem stored_le (s : Publication R) : s.stored ≤ s.prod.pub.published.length := Nat.sub_le _ _

omit [DecidableEq R] in
/-- A frame is published before it is counted. -/
theorem counted_le (s : Publication R) : s.counted ≤ s.prod.pub.published.length := Nat.sub_le _ _

/-- A publisher that goes on has published, stored and counted no less. -/
structure NoLess (s s' : Publication R) : Prop where
  published : s.prod.pub.published.length ≤ s'.prod.pub.published.length
  counted : s.counted ≤ s'.counted

/-- No step takes a frame back. -/
theorem noLess_of_step (h : (publicationMachine R).Run tr s) {e : PublicationEv R}
    (hs : s.step e = some s') : s.NoLess s' := by
  have h' := h.snoc hs
  refine ⟨?_, ?_⟩
  · rw [← (Numbers.of_run h).args, ← (Numbers.of_run h').args, slotTrace_snoc]
    exact ((List.sublist_append_left _ _).filterMap _).length_le
  · rw [counted_eq h, counted_eq h', slotTrace_snoc]
    exact (List.sublist_append_left _ _).countP_le

/-- Fewer than `2 ^ 63` publishes do not wrap the guard. -/
theorem noGuardWrap_of_lt (h : (publicationMachine R).Run tr s)
    (hlt : s.prod.pub.published.length < 2 ^ 63) : NoGuardWrap (slotTrace tr) := by
  intro r b e _ _ _ _
  have hle : pubCount .storeEven ((slotTrace tr).take e) ≤ pubCount .storeEven (slotTrace tr) :=
    countP_take_le _ _ _
  have hstored := s.stored_le
  rw [stored_eq h] at hstored
  omega

end Publication

namespace Streams

variable {ι R : Type} [DecidableEq ι] [DecidableEq R] {tr : List (StreamsEv ι R)} {s s' : Streams ι R}

omit [DecidableEq R] in
/-- The history of one slot, with one more event of the streams. -/
theorem slotTrace_pubTrace_snoc (i : ι) (tr : List (StreamsEv ι R)) (e : StreamsEv ι R) :
    slotTrace (pubTrace i (tr ++ [e])) =
      slotTrace (pubTrace i tr) ++ ((e.toPub i).bind PublicationEv.toSlot).toList := by
  rw [pubTrace, List.filterMap_append, ← pubTrace]
  cases he : e.toPub i with
  | none => simp [he]
  | some b =>
      rw [List.filterMap_cons_some he, List.filterMap_nil, Publication.slotTrace_snoc]
      rfl

/-- Every publisher goes on. -/
theorem noLess_of_step (h : (streamsMachine ι R).Run tr s) {e : StreamsEv ι R} (hs : s.step e = some s')
    (i : ι) : (s.pubs i).NoLess (s'.pubs i) := by
  obtain ⟨b, -, hb⟩ | ⟨-, hsame⟩ := pub_of_step i hs
  · exact Publication.noLess_of_step (pub_run i h) hb
  · rw [hsame]
    exact ⟨le_rfl, le_rfl⟩

/-- **The thread `r` inside `latest_view` of stream `i`** knows how many frames the notify word counted when
it was loaded; as many had been stored when the read of the slot began. -/
def Viewing (tr : List (StreamsEv ι R)) (s : Streams ι R) (r : R) (i : ι) : Prop :=
  ∀ notify_now, (s.waiters r).phase = .viewing i notify_now →
    notify_now = UInt32.ofNat (s.loaded r i) ∧ s.loaded r i ≤ (s.pubs i).counted ∧
      ∃ c n, CallAt (slotTrace (pubTrace i tr)) r n c ∧
        s.loaded r i ≤ pubCount .storeEven ((slotTrace (pubTrace i tr)).take c)

/-- An access of the reader `r` to a slot is an event of the thread `r`. -/
theorem wait_of_toSlot {i : ι} {e : StreamsEv ι R} (hs : s.step e = some s') {r : R} {a : ReadEv}
    (h : (e.toPub i).bind PublicationEv.toSlot = some (.rd r a)) :
    ∃ b, e = .wait r b ∧ b.access r = some (i, .rd r a) := by
  cases step_cases hs with
  | pub j b p hby hwake hp =>
      rw [StreamsEv.toPub] at h
      split_ifs at h
      · -- a publisher does not read
        cases b with
        | slot a' =>
            cases h
            cases hby
        | _ => cases h
      · cases h
  | wake j p hp =>
      rw [StreamsEv.toPub] at h
      split_ifs at h <;> cases h
  | silent r' b w haccess hw =>
      rw [StreamsEv.toPub, haccess] at h
      cases h
  | access r' b w j a' p haccess hw hp =>
      rw [StreamsEv.toPub, haccess, Option.bind_some] at h
      split_ifs at h with hj
      · cases h
        subst hj
        obtain ⟨a', ha'⟩ | ha' := WaitEv.access_cases haccess
        · cases ha'
          exact ⟨b, rfl, haccess⟩
        · cases ha'
      · cases h

/-- A thread stays inside `latest_view` while its slot is accessed by others, or by its own read. -/
theorem Viewing.congr {r : R} {i : ι} {e : StreamsEv ι R} (h : Viewing tr s r i) {notify_now : UInt32}
    (hphase : (s.waiters r).phase = .viewing i notify_now) (hloaded : s'.loaded r i = s.loaded r i)
    (hcounted : (s.pubs i).counted ≤ (s'.pubs i).counted)
    (hcall : ∀ n, (e.toPub i).bind PublicationEv.toSlot ≠ some (.rd r (.call n))) :
    notify_now = UInt32.ofNat (s'.loaded r i) ∧ s'.loaded r i ≤ (s'.pubs i).counted ∧
      ∃ c n, CallAt (slotTrace (pubTrace i (tr ++ [e]))) r n c ∧
        s'.loaded r i ≤ pubCount .storeEven ((slotTrace (pubTrace i (tr ++ [e]))).take c) := by
  obtain ⟨hnow, hle, c, n, hc, hstored⟩ := h notify_now hphase
  rw [hloaded, slotTrace_pubTrace_snoc]
  refine ⟨hnow, hle.trans hcounted, c, n, ?_, ?_⟩
  -- an event that is not one of the slot leaves its trace alone
  · cases ha : (e.toPub i).bind PublicationEv.toSlot with
    | none =>
        rw [Option.toList_none, List.append_nil]
        exact hc
    | some a => exact hc.snoc fun n hn => hcall n (hn ▸ ha)
  · rw [List.take_append_of_le_length hc.lt_length.le]
    exact hstored

/-- **Every event keeps the invariant of the threads inside `latest_view`.** -/
theorem Viewing.step {r : R} {i : ι} (h : Viewing tr s r i) (hrun : (streamsMachine ι R).Run tr s)
    {e : StreamsEv ι R} (hs : s.step e = some s') : Viewing (tr ++ [e]) s' r i := by
  have hcounted := (noLess_of_step hrun hs i).counted
  intro notify_now hv
  cases thread_of_step r hs with
  | own b he hw hcall hkept =>
      subst he
      obtain ⟨n, rfl, hnow⟩ | ⟨hphase, a, rfl, hno⟩ := hw.viewing hv
      · -- the call: the word has just been loaded
        have hslot : ((StreamsEv.wait r (.viewCall i n)).toPub i).bind PublicationEv.toSlot =
            some (SlotEv.rd r (.call n)) := by
          rw [StreamsEv.toPub, WaitEv.access, Option.bind_some, if_pos rfl]
          rfl
        rw [hcall i n rfl, slotTrace_pubTrace_snoc, hslot]
        refine ⟨hnow.trans (Publication.notify_eq (pub_run i hrun)), hcounted,
          (slotTrace (pubTrace i tr)).length, n, ⟨.snoc_self ⟨n, rfl⟩, by simp⟩, ?_⟩
        rw [List.take_left, ← Publication.stored_eq (pub_run i hrun)]
        exact (s.pubs i).counted_le_stored
      · -- an access of its own read, which is no further call
        refine h.congr hphase (hkept i (by simp)) hcounted fun n hn => ?_
        obtain ⟨b, hb, haccess⟩ := wait_of_toSlot hs hn
        cases hb
        cases haccess
        exact hno n rfl
  | wake j he hw hloaded =>
      -- a thread inside `latest_view` does not sleep, so the wake-up passes it by
      have hphase : (s.waiters r).phase = .viewing i notify_now := by
        rw [hw] at hv
        obtain ⟨ws, -, -, hraised⟩ | ⟨-, hsame⟩ := Waiter.woken_phase j (s.waiters r)
        · cases hraised.symm.trans hv
        · rwa [hsame] at hv
      refine h.congr hphase (congrFun hloaded i) hcounted fun n hn => ?_
      obtain ⟨b, hb, -⟩ := wait_of_toSlot hs hn
      cases he.symm.trans hb
  | still hwait hwake hw hloaded =>
      refine h.congr (hw ▸ hv) (congrFun hloaded i) hcounted fun n hn => ?_
      obtain ⟨b, hb, -⟩ := wait_of_toSlot hs hn
      exact hwait b hb

/-- **In every run** a `latest_view` in progress knows how many frames the word counted when it was loaded. -/
theorem Viewing.of_run (h : (streamsMachine ι R).Run tr s) (r : R) (i : ι) : Viewing tr s r i := by
  refine h.invariant (P := fun tr s => Viewing tr s r i) ?_ ?_
  · intro s hs notify_now hv
    cases (hs.2 r).1.symm.trans hv
  · intro tr s e s' hrun hv hs
    exact hv.step hrun hs

/-- A `latest_view` that has read `d` ends when `read_latest` returns it. -/
theorem done_of_viewRet {r : R} {i : ι} {res : Option TensorDescriptor} {retries : ℕ} {now : UInt64}
    (hs : s.step (.wait r (.viewRet i res retries now)) = some s') :
    (s.pubs i).slot.readers r = .done res retries := by
  cases step_cases hs with
  | silent r b w haccess hw => cases haccess
  | access r b w j a p haccess hw hp =>
      cases haccess
      obtain ⟨slot, hslot, -⟩ := Option.bind_eq_some_iff.mp hp
      cases SlotState.step_cases hslot with
      | rd hc =>
          generalize (s.pubs i).slot.readers r = pc at hc
          cases hc
          rfl

/-- **What `latest_view` has read is a frame published**, the one of its number, and no older than what the
notify word counted at its head. -/
theorem viewed_ge (hrun : (streamsMachine ι R).Run tr s) {r : R} {i : ι}
    (hlt : (s.pubs i).prod.pub.published.length < 2 ^ 63) {d : TensorDescriptor} {retries : ℕ}
    {now : UInt64} {notify_now : UInt32} (hphase : (s.waiters r).phase = .viewing i notify_now)
    (hs : s.step (.wait r (.viewRet i (some d) retries now)) = some s') :
    s.loaded r i ≤ d.seqno ∧ ∃ m, (s.pubs i).prod.pub.published[m]? = some d ∧ d.seqno = m + 1 := by
  have hpub := pub_run i hrun
  obtain ⟨-, -, c, n, hcall, hfloor⟩ := Viewing.of_run hrun r i notify_now hphase
  have hread := ReaderInv.of_run (Publication.slot_run hpub) (Publication.noGuardWrap_of_lt hpub hlt) r
  rw [done_of_viewRet hs] at hread
  -- both invariants speak of the same call of `read_latest`
  obtain ⟨c', n', m, hcall', hrec⟩ := hread
  obtain ⟨rfl, rfl⟩ := hcall.unique hcall'
  obtain ⟨hm, hseqno⟩ := (Publication.Numbers.of_run hpub).of_arg hrec.arg
  refine ⟨?_, m, hm, hseqno⟩
  rw [hseqno]
  exact hfloor.trans hrec.floor

/-- **What `r` remembers of stream `i`**: the value of the notify word is one it has had, and the frames it
counted are no newer than the last one handed out fresh. -/
structure Watermark (s : Streams ι R) (r : R) (i : ι) : Prop where
  metadata : ((s.waiters r).subs i).metadata = some ⟨true⟩
  seen : ∃ b, b ≤ (s.pubs i).counted ∧ ((s.waiters r).subs i).seenNotify = UInt32.ofNat b ∧
    b ≤ ((s.waiters r).subs i).seenSeqno

namespace Watermark

variable {r : R} {i : ι}

/-- A watermark of zero counts no frame. -/
theorem initial (hs : (streamsMachine ι R).init s) (r : R) (i : ι) : Watermark s r i := by
  obtain ⟨hmeta, hnotify, -⟩ := (hs.2 r).2 i
  exact ⟨hmeta, 0, Nat.zero_le _, hnotify, Nat.zero_le _⟩

omit [DecidableEq ι] [DecidableEq R] in
/-- A subscriber that remembers the same, and a publisher that goes on. -/
theorem congr (h : Watermark s r i) (hmarks : ((s.waiters r).subs i).SameMarks ((s'.waiters r).subs i))
    (hcounted : (s.pubs i).counted ≤ (s'.pubs i).counted) : Watermark s' r i := by
  obtain ⟨hmeta, b, hb, hnotify, hseqno⟩ := h
  refine ⟨hmarks.metadata.trans hmeta, b, hb.trans hcounted, hmarks.seenNotify.trans hnotify, ?_⟩
  rw [hmarks.seenSeqno]
  exact hseqno

/-- **A step keeps the watermark.** -/
theorem step (h : Watermark s r i) (hrun : (streamsMachine ι R).Run tr s) {e : StreamsEv ι R}
    (hs : s.step e = some s') (hlt : (s.pubs i).prod.pub.published.length < 2 ^ 63) :
    Watermark s' r i := by
  have hcounted := (noLess_of_step hrun hs i).counted
  cases thread_of_step r hs with
  | own b he hw hcall hkept =>
      subst he
      obtain hmarks | ⟨d, retries, now, notify_now, rfl, hphase, -, hmeta, hnotify, hseqno⟩ :=
        hw.marks h.metadata
      · exact h.congr hmarks hcounted
      · -- a fresh frame is no older than what the word loaded before counted
        obtain ⟨hnow, hle, -⟩ := Viewing.of_run hrun r i notify_now hphase
        refine ⟨hmeta.trans h.metadata, s.loaded r i, hle.trans hcounted, hnotify.trans hnow, ?_⟩
        rw [hseqno]
        exact (viewed_ge hrun hlt hphase hs).1
  | wake j he hw hloaded =>
      refine h.congr ?_ hcounted
      rw [hw, Waiter.woken_subs]
      exact .refl _
  | still hwait hwake hw hloaded =>
      refine h.congr ?_ hcounted
      rw [hw]
      exact .refl _

/-- The invariant holds in every run of fewer than `2 ^ 63` publishes. -/
theorem of_run (h : (streamsMachine ι R).Run tr s) (r : R) (i : ι)
    (hlt : (s.pubs i).prod.pub.published.length < 2 ^ 63) : Watermark s r i := by
  refine h.invariant (P := fun _ s => (s.pubs i).prod.pub.published.length < 2 ^ 63 → Watermark s r i)
    (fun s hs _ => initial hs r i) ?_ hlt
  intro tr s e s' hrun ih hs hlt
  have hbefore := (noLess_of_step hrun hs i).published.trans_lt hlt
  exact (ih hbefore).step hrun hs hbefore

end Watermark

end Streams

end Axon
