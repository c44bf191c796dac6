import Axon.WaitWatermark

/-! # What a wait reports

`wait_for_update` and `wait_any` report a stream whose notify word differs from the one that `latest_view`
loaded. The word is loaded before the descriptor is read and incremented after the descriptor has been
stored, so a frame may be read before it is counted: then the wait reports the frame that has been read
already. `wait_reports_newer` shows that nothing else goes wrong: in a run in which every frame handed out
had been counted when its `latest_view` began (`HandsOutCounted`), a wait reports only newer frames. -/

namespace Axon

open Foundation
open TensorDescriptor (WordIdx)

/-- The event is the end of a `latest_view`. -/
def StreamsEv.IsViewRet {ι R : Type} : StreamsEv ι R → Bool
  | .wait _ (.viewRet _ _ _ _) => true
  | _ => false

namespace Streams

variable {ι R : Type} [DecidableEq ι] [DecidableEq R] {tr : List (StreamsEv ι R)} {s s' : Streams ι R}

/-- **A frame about to be handed out fresh has been counted**: it is the one whose increment of the notify
word was the last before `latest_view` loaded the word. -/
def HandsOutCounted (s : Streams ι R) : StreamsEv ι R → Prop
  | .wait r (.viewRet i (some d) _ _) => ((s.waiters r).subs i).Accepts d → d.seqno = s.loaded r i
  | _ => True

omit [DecidableEq ι] [DecidableEq R] in
/-- Only the end of a `latest_view` is at issue. -/
theorem HandsOutCounted.of_not_viewRet {e : StreamsEv ι R} (h : e.IsViewRet = false) (s : Streams ι R) :
    s.HandsOutCounted e := by
  unfold HandsOutCounted
  split
  · cases h
  · trivial

/-- **What `r` remembers of stream `i`, exactly**: the notify word counted the frame handed out last, and
when the stream is reported, it counts a newer one. -/
structure UpToDate (s : Streams ι R) (r : R) (i : ι) : Prop where
  metadata : ((s.waiters r).subs i).metadata = some ⟨true⟩
  seenNotify : ((s.waiters r).subs i).seenNotify = UInt32.ofNat ((s.waiters r).subs i).seenSeqno
  seen_le : ((s.waiters r).subs i).seenSeqno ≤ (s.pubs i).counted
  reported : (s.waiters r).phase = .reported i → ((s.waiters r).subs i).seenSeqno < (s.pubs i).counted

namespace UpToDate

variable {r : R} {i : ι}

omit [DecidableEq ι] [DecidableEq R] in
/-- What is up to date stays so while more frames are counted. -/
theorem congr (h : UpToDate s r i) (hmarks : ((s.waiters r).subs i).SameMarks ((s'.waiters r).subs i))
    (hcounted : (s.pubs i).counted ≤ (s'.pubs i).counted)
    (hreported : (s'.waiters r).phase = .reported i →
      ((s.waiters r).subs i).seenSeqno < (s'.pubs i).counted) : UpToDate s' r i where
  metadata := hmarks.metadata.trans h.metadata
  seenNotify := by rw [hmarks.seenNotify, hmarks.seenSeqno, h.seenNotify]
  seen_le := by rw [hmarks.seenSeqno]; exact h.seen_le.trans hcounted
  reported := by rw [hmarks.seenSeqno]; exact hreported

/-- A thread comes to report a stream by finding its notify word changed. -/
theorem lt_of_reported (h : UpToDate s r i) (hrun : (streamsMachine ι R).Run tr s) {b : WaitEv ι}
    {w : Waiter ι} (hw : (s.waiters r).StepCase s.notify b w) (hphase : w.phase = .reported i) :
    ((s.waiters r).subs i).seenSeqno < (s.pubs i).counted := by
  obtain ⟨-, ch, read, hch, hup⟩ := hw.reported hphase
  rw [h.metadata] at hch
  cases hch
  have hne : s.notify i ≠ ((s.waiters r).subs i).seenNotify := of_decide_eq_true hup
  refine lt_of_le_of_ne h.seen_le fun heq => hne ?_
  rw [h.seenNotify, heq]
  exact Publication.notify_eq (pub_run i hrun)

/-- **A step keeps a reader up to date.** -/
theorem step (h : UpToDate s r i) (hrun : (streamsMachine ι R).Run tr s) {e : StreamsEv ι R}
    (hc : s.HandsOutCounted e) (hs : s.step e = some s') : UpToDate s' r i := by
  have hcounted := (noLess_of_step hrun hs i).counted
  cases thread_of_step r hs with
  | own b he hw hcall hkept =>
      subst he
      obtain hmarks | ⟨d, retries, now, notify_now, rfl, hphase, hacc, hmeta, hnotify, hseqno⟩ :=
        hw.marks h.metadata
      · exact h.congr hmarks hcounted fun hrep => (h.lt_of_reported hrun hw hrep).trans_le hcounted
      · -- the frame handed out is the one the notify word counted last
        obtain ⟨hnow, hle, -⟩ := Viewing.of_run hrun r i notify_now hphase
        have hd : d.seqno = s.loaded r i := hc hacc
        refine ⟨hmeta.trans h.metadata, ?_, ?_, fun hrep => ?_⟩
        · rw [hnotify, hseqno, hd, hnow]
        · rw [hseqno, hd]
          exact hle.trans hcounted
        · -- `latest_view` reports nothing
          generalize s'.waiters r = w at hw hrep
          cases hw with
          | viewRet => cases hrep
  | wake j he hw hloaded =>
      refine h.congr ?_ hcounted fun hrep => ?_
      · rw [hw, Waiter.woken_subs]
        exact .refl _
      · rw [hw] at hrep
        obtain ⟨ws, -, -, hraised⟩ | ⟨-, hsame⟩ := Waiter.woken_phase j (s.waiters r)
        · cases hraised.symm.trans hrep
        · rw [hsame] at hrep
          exact (h.reported hrep).trans_le hcounted
  | still hwait hwake hw hloaded =>
      refine h.congr ?_ hcounted fun hrep => ?_
      · rw [hw]
        exact .refl _
      · rw [hw] at hrep
        exact (h.reported hrep).trans_le hcounted

/-- **In every run** whose views are of counted frames, a reader is up to date. -/
theorem of_run (h : (streamsMachine ι R).RunWhere HandsOutCounted tr s) (r : R) (i : ι) :
    UpToDate s r i := by
  refine h.invariant (P := fun _ s => UpToDate s r i) ?_ ?_
  · intro s hs
    obtain ⟨hphase, hattached⟩ := hs.2 r
    obtain ⟨hmeta, hnotify, hseqno⟩ := hattached i
    refine ⟨hmeta, ?_, ?_, fun hrep => ?_⟩
    · rw [hnotify, hseqno]
      rfl
    · rw [hseqno]
      exact Nat.zero_le _
    · cases hphase.symm.trans hrep
  · intro tr s e s' hrun hinv hc hs
    exact hinv.step hrun.run hc hs

end UpToDate

end Streams

/-- **A wait reports only newer frames**, in every interleaving in which each frame handed out fresh had been
counted in the notify word when its `latest_view` began: a stream about to be reported holds, or has held, a
frame newer than the last one its subscriber was handed fresh. -/
theorem wait_reports_newer {ι R : Type} [DecidableEq ι] [DecidableEq R] {tr : List (StreamsEv ι R)}
    {s : Streams ι R} (hrun : (streamsMachine ι R).RunWhere Streams.HandsOutCounted tr s) (r : R) (i : ι)
    (h : (s.waiters r).phase = .reported i) :
    ∃ d ∈ (s.pubs i).prod.pub.published.take (s.pubs i).stored,
      ((s.waiters r).subs i).seenSeqno < d.seqno := by
  have hlt := (Streams.UpToDate.of_run hrun r i).reported h
  have hn := Publication.Numbers.of_run (Streams.pub_run i hrun.run)
  -- the last frame stored
  obtain ⟨m, hm⟩ : ∃ m, (s.pubs i).stored = m + 1 := by
    refine Nat.exists_eq_succ_of_ne_zero (Nat.ne_of_gt ?_)
    exact ((Nat.zero_le _).trans_lt hlt).trans_le (s.pubs i).counted_le_stored
  have hlen : m < (s.pubs i).prod.pub.published.length := by
    have := (s.pubs i).stored_le
    omega
  have hm' : (s.pubs i).prod.pub.published[m]? = some (s.pubs i).prod.pub.published[m] :=
    List.getElem?_eq_getElem hlen
  refine ⟨(s.pubs i).prod.pub.published[m], List.mem_iff_getElem?.mpr ⟨m, ?_⟩, ?_⟩
  · rw [List.getElem?_take_of_lt (by omega), hm']
  · rw [hn.seqno_eq hm', ← hm]
    exact hlt.trans_le (s.pubs i).counted_le_stored

/-! ## One stream and one subscriber -/

/-- A publisher of one-buffer frames with a subscriber that has just attached to it. -/
def oneStream (prod : Producer) : Streams Unit Unit where
  pubs _ := ⟨prod, .idle, .initial⟩
  waiters _ := ⟨fun _ => { TensorSubscriber.create with
    metadata := some ⟨true⟩
    views := [none]
    poolGeneration := 1 }, .idle⟩
  loaded _ _ := 0

/-- One stream is a beginning. -/
theorem oneStream_init {prod : Producer} (h : producerMachine.init prod) :
    (streamsMachine Unit Unit).init (oneStream prod) :=
  ⟨fun _ => ⟨h, rfl, rfl⟩, fun _ => ⟨rfl, fun _ => ⟨rfl, rfl, rfl⟩⟩⟩

/-- `publish` of a frame up to the store into `ready`: it can be read, and has not been counted. -/
def storeEvents (desc : TensorDescriptor) : List (StreamsEv Unit Unit) :=
  [.pub () (.publish desc.producerPublishTsNs (.bytesFrame 16 .None) none), .pub () .sendFence] ++
    ((publishAccesses desc).take (WordIdx.all.length + 4)).map fun e => .pub () (.slot (.pub e))

/-- The rest of that `publish`, when no flag is raised. -/
def countEvents : List (StreamsEv Unit Unit) :=
  [.pub () (.slot (.pub .bumpNotify)), .pub () (.slot (.pub .takeWaiters)), .pub () (.slot (.pub .ret)),
    .pub () .pickUp]

/-- The accesses of a `latest_view` that reads the slot at once, up to its return. -/
def viewEvents (desc : TensorDescriptor) : List (StreamsEv Unit Unit) :=
  .wait () (.viewCall () 0) :: (readAccesses desc).tail.dropLast.map fun e => .wait () (.read () e)

/-- `wait_any` up to its first look at the stream. -/
def lookEvents : List (StreamsEv Unit Unit) :=
  [.wait () (.waitCall [()]), .wait () (.raise ()), .wait () (.check () none)]

/-- The thread is about to report the stream. -/
def WaiterPhase.isReported {ι : Type} : WaiterPhase ι → Bool
  | .reported _ => true
  | _ => false

/-- A wait that has reported has reported the one stream. -/
theorem WaiterPhase.eq_reported {p : WaiterPhase Unit} (h : p.isReported = true) : p = .reported () := by
  unfold isReported at h
  split at h
  · rfl
  · cases h

/-- The second frame is counted after the first has been handed out, and the wait reports it. -/
theorem wait_reports_newer_second : ∃ s : Streams Unit Unit, ((s.waiters ()).subs ()).seenSeqno = 1 ∧
    ∃ d ∈ (s.pubs ()).prod.pub.published.take (s.pubs ()).stored,
      ((s.waiters ()).subs ()).seenSeqno < d.seqno := by
  obtain ⟨prod, hprod⟩ : ∃ prod, Producer.create ⟨false, false⟩ (.oneBuffer 4096) .obliging = some prod :=
    ⟨_, rfl⟩
  let desc := prod.pub.stamp prod.pool 7 (.bytesFrame 16 .None)
  have hfirst : ((streamsMachine Unit Unit).exec (oneStream prod)
      (storeEvents desc ++ countEvents ++ viewEvents desc)).map (·.loaded () ()) = some 1 := by
    cases hprod
    decide +kernel
  -- the first view has counted frame 1
  obtain ⟨s₁, hs₁, hloaded⟩ := Option.map_eq_some_iff.mp hfirst
  have hsecond : ((streamsMachine Unit Unit).exec (oneStream prod)
      ((storeEvents desc ++ countEvents ++ viewEvents desc) ++
        .wait () (.viewRet () (some desc) 0 9) ::
          (storeEvents { desc with seqno := 2 } ++ countEvents ++ lookEvents))).map
      (fun s => ((s.waiters ()).phase.isReported, ((s.waiters ()).subs ()).seenSeqno)) =
      some (true, 1) := by
    cases hprod
    decide +kernel
  obtain ⟨s, hs, hres⟩ := Option.map_eq_some_iff.mp hsecond
  rw [Machine.exec_append, hs₁, Option.bind_some] at hs
  simp only [Prod.mk.injEq] at hres
  -- no other view is taken in the run
  have hother₁ : ∀ e ∈ storeEvents desc ++ countEvents ++ viewEvents desc, e.IsViewRet = false := by
    cases hprod
    decide +kernel
  have hother₂ : ∀ e ∈ storeEvents { desc with seqno := 2 } ++ countEvents ++ lookEvents,
      e.IsViewRet = false := by
    cases hprod
    decide +kernel
  have hrun : (streamsMachine Unit Unit).RunWhere Streams.HandsOutCounted _ s₁ :=
    .of_exec (oneStream_init ⟨_, _, _, hprod⟩) hs₁ (.of_forall (fun e he => .of_not_viewRet (hother₁ e he)) _)
  refine ⟨s, hres.2, wait_reports_newer (hrun.append_exec hs ⟨fun _ => ?_, fun _ _ => ?_⟩) () ()
    (WaiterPhase.eq_reported hres.1)⟩
  · rw [hloaded]
    cases hprod
    rfl
  · exact .of_forall (fun e he => .of_not_viewRet (hother₂ e he)) _

/-- The frame is read before it is counted; the wait afterwards reports the frame that has just been handed
out, and there is no other. -/
theorem wait_reports_read_frame : ∃ (tr : List (StreamsEv Unit Unit)) (s : Streams Unit Unit),
    (streamsMachine Unit Unit).Run tr s ∧ (s.waiters ()).phase = .reported () ∧
      ((s.waiters ()).subs ()).seenSeqno = 1 ∧ ∀ d ∈ (s.pubs ()).prod.pub.published, d.seqno ≤ 1 := by
  obtain ⟨prod, hprod⟩ : ∃ prod, Producer.create ⟨false, false⟩ (.oneBuffer 4096) .obliging = some prod :=
    ⟨_, rfl⟩
  let desc := prod.pub.stamp prod.pool 7 (.bytesFrame 16 .None)
  have hexec : ((streamsMachine Unit Unit).exec (oneStream prod) (storeEvents desc ++ viewEvents desc ++
      .wait () (.viewRet () (some desc) 0 9) :: (countEvents ++ lookEvents))).map (fun s =>
        ((s.waiters ()).phase.isReported, ((s.waiters ()).subs ()).seenSeqno,
          (s.pubs ()).prod.pub.published.map (·.seqno))) = some (true, 1, [1]) := by
    cases hprod
    decide +kernel
  obtain ⟨s, hs, hres⟩ := Option.map_eq_some_iff.mp hexec
  simp only [Prod.mk.injEq] at hres
  obtain ⟨hphase, hseen, hpublished⟩ := hres
  -- the only frame has been read before it was counted
  refine ⟨_, s, .of_exec (oneStream_init ⟨_, _, _, hprod⟩) hs, WaiterPhase.eq_reported hphase, hseen, fun d hd => ?_⟩
  have hmem : d.seqno ∈ (s.pubs ()).prod.pub.published.map (·.seqno) := List.mem_map_of_mem hd
  rw [hpublished, List.mem_singleton] at hmem
  exact hmem.le

end Axon
