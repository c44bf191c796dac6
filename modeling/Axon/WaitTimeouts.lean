import Axon.WaitClock
import Axon.WaitReports
import Axon.WaitSleep

/-! # What `wait_any` returns, and when

The streams and their consumers run with a clock. `wait_any_returns` says what a consumer knows when a call
returns: for a stream, that its notify word has counted a frame, and that no stream before it in the list had
one to offer; for `ETIMEDOUT`, that the whole timeout has gone by, and that no stream had one. -/

namespace Axon

open Foundation
open Rt (ErrNo EINVAL)

namespace TimedStreams

variable {ι R : Type} [DecidableEq ι] [DecidableEq R] {tr : List (TimedEv ι R)} {s s' : TimedStreams ι R}
  {e : TimedEv ι R} {r : R}

/-! ## What a pass has found -/

/-- None of these streams had a frame to offer: the last one handed out fresh is as new as every frame whose
`publish` had returned when the pass began. -/
def NothingMissed (c : WaitCall ι) (w : Waiter ι) (l : List ι) : Prop :=
  ∀ i ∈ l, c.published i ≤ (w.subs i).seenSeqno

/-- The notify word of a stream has counted a frame since `latest_view` loaded it for the last fresh one. -/
def FrameCounted (s : Streams ι R) (r : R) (i : ι) : Prop :=
  ∃ b, ((s.waiters r).subs i).seenNotify = UInt32.ofNat b ∧ b < (s.pubs i).counted

/-- **The loop of `wait_any`** goes over the streams of the call, and asks the clock after a pass only. -/
def LoopShape (c : WaitCall ι) : WaiterPhase ι → Prop
  | .raising ws todo => ws = c.subs ∧ c.asked = none ∧ todo ≠ [] ∧ todo.length ≤ ws.length
  | .checking _ ws todo => ws = c.subs ∧ c.asked = none ∧ todo ≠ [] ∧ todo.length ≤ ws.length
  | .checked _ ws => ws = c.subs ∧ ws ≠ []
  | .asleep ws => ws = c.subs ∧ c.asked = none ∧ ws ≠ []
  | _ => True

/-- **A pass of the loop**: the streams already checked had nothing to offer. -/
def PassInv (c : WaitCall ι) (t : Streams ι R) (r : R) : WaiterPhase ι → Prop
  | .checking _ ws todo => ∃ done, ws = done ++ todo ∧ NothingMissed c (t.waiters r) done
  | .checked _ ws => NothingMissed c (t.waiters r) ws
  | .reported i =>
      ∃ done todo, c.subs = done ++ i :: todo ∧ NothingMissed c (t.waiters r) done ∧ FrameCounted t r i
  | _ => True

omit [DecidableEq R] in
/-- What is noted down is not about the loop. -/
theorem LoopShape.noted {c : WaitCall ι} {phase : WaiterPhase ι} (h : LoopShape c phase) (t : Streams ι R) :
    LoopShape (noted t phase c) phase := by
  unfold TimedStreams.noted
  split_ifs
  · cases phase <;> exact h
  · exact h

omit [DecidableEq R] in
/-- A thread's own step keeps the shape of its loop. -/
theorem LoopShape.own {w : Waiter ι} {c : WaitCall ι} (h : LoopShape (s.calls r) (s.phase r))
    (hown : s.OwnCase r e w c) : LoopShape c w.phase := by
  -- only the steps of the loop change what it is going through
  cases hown with
  | thread b w hb hstep =>
      cases hstep with
      | raise i ws todo hphase =>
          rw [show s.phase r = .raising ws (i :: todo) from hphase] at h
          obtain ⟨hws, hasked, -, hlen⟩ := h
          -- the last stream is flagged, and the checks begin
          cases todo with
          | nil => exact ⟨hws, hasked, List.ne_nil_of_length_pos hlen, le_rfl⟩
          | cons j todo => exact ⟨hws, hasked, by simp, (Nat.le_succ _).trans hlen⟩
      | check i read futexes ws todo ch hphase hch hup =>
          rw [show s.phase r = .checking futexes ws (i :: todo) from hphase] at h
          obtain ⟨hws, hasked, -, hlen⟩ := h
          -- the last stream is checked, and the clock is next
          cases todo with
          | nil => exact ⟨hws, List.ne_nil_of_length_pos hlen⟩
          | cons j todo => exact ⟨hws, hasked, by simp, (Nat.le_succ _).trans hlen⟩
      | read i e notify_now hphase =>
          rw [hphase]
          trivial
      | drainFences i segs ready hphase =>
          show LoopShape _ (s.streams.waiters r).phase
          rw [hphase]
          trivial
      | setFallbackPolicy i p hphase =>
          show LoopShape _ (s.streams.waiters r).phase
          rw [hphase]
          trivial
      | report => trivial
      | viewCall => trivial
      | viewRet => trivial
      -- the other steps are not taken without the clock
      | _ => cases hb
  | refuse subs timeoutMs hphase =>
      rw [show (s.streams.waiters r).phase = .idle from hphase]
      trivial
  | waitAny subs timeoutMs w hsubs hstep =>
      cases hstep with
      | waitCall => exact ⟨rfl, rfl, hsubs, le_rfl⟩
      | waitCallPolling => exact ⟨rfl, rfl, hsubs, le_rfl⟩
  | timeLeft futexes ws hphase hasked hup =>
      rw [show (s.streams.waiters r).phase = .checked futexes ws from hphase]
      rw [hphase] at h
      exact h
  | timeUp => trivial
  | sleep ws hphase hasked =>
      rw [hphase] at h
      exact ⟨h.1, rfl, h.2⟩
  | waitvReturns errno ws hphase herrno =>
      rw [hphase] at h
      exact ⟨h.1, h.2.1, h.2.2, le_rfl⟩
  | waitvFails => trivial
  | ret => trivial
  | again ws hphase hasked =>
      rw [hphase] at h
      exact ⟨h.1, rfl, h.2, le_rfl⟩
  | noWaitv ws hphase hasked =>
      rw [hphase] at h
      exact ⟨h.1, rfl, h.2, le_rfl⟩
  | nanosleep signal ws t hphase hasked ht =>
      rw [hphase] at h
      exact ⟨h.1, rfl, h.2, le_rfl⟩

/-- So does every step of the system. -/
theorem LoopShape.step (h : LoopShape (s.calls r) (s.phase r)) (hs : s.step e = some s') :
    LoopShape (s'.calls r) (s'.phase r) := by
  rw [calls_of_step hs r]
  apply LoopShape.noted
  by_cases hr : e.thread? = some r
  · exact h.own (own_of_step hs hr)
  · obtain ⟨hcall, hw | ⟨i, hw⟩⟩ := other_of_step hs hr
    · rw [hcall, phase, hw]
      exact h
    · rw [hcall, phase, hw]
      obtain ⟨ws, hasleep, -, hraised⟩ | ⟨-, hsame⟩ := Waiter.woken_phase i (s.streams.waiters r)
      · -- a sleeper goes through its loop again
        rw [show s.phase r = .asleep ws from hasleep] at h
        rw [hraised]
        exact ⟨h.1, h.2.1, h.2.2, le_rfl⟩
      · rw [hsame]
        exact h

/-- **In every run** a call is where its loop can be. -/
theorem LoopShape.of_run (hrun : (timedMachine ι R).Run tr s) (r : R) : LoopShape (s.calls r) (s.phase r) := by
  refine hrun.invariant (P := fun _ s => LoopShape (s.calls r) (s.phase r)) ?_ ?_
  · intro s hs
    rw [show s.phase r = .idle from (hs.1.2 r).1]
    trivial
  · intro tr s e s' _ ih hs
    exact ih.step hs

omit [DecidableEq R] in
/-- What is noted down at the beginning of a pass is for the streams that are yet to be checked. -/
theorem PassInv.noted {c : WaitCall ι} {t : Streams ι R} {phase : WaiterPhase ι} (h : PassInv c t r phase) :
    PassInv (noted t phase c) t r phase := by
  unfold TimedStreams.noted
  split_ifs with hbegins
  · cases phase with
    | checking futexes ws todo =>
        obtain ⟨done, hdone, hmissed⟩ := h
        cases futexes with
        | true => cases hbegins
        | false =>
            obtain rfl : todo = ws := of_decide_eq_true hbegins
            -- nothing has been checked
            obtain rfl : done = [] := List.append_left_eq_self.mp hdone.symm
            exact ⟨[], rfl, by simp [NothingMissed]⟩
    | raising ws todo => trivial
    | _ => cases hbegins
  · exact h

omit [DecidableEq ι] [DecidableEq R] in
/-- Publishers that go on, and subscribers that remember the same. -/
theorem PassInv.congr {c : WaitCall ι} {t t' : Streams ι R} {phase : WaiterPhase ι} (h : PassInv c t r phase)
    (hsubs : (t'.waiters r).subs = (t.waiters r).subs)
    (hcounted : ∀ i, (t.pubs i).counted ≤ (t'.pubs i).counted) : PassInv c t' r phase := by
  -- the marks are those before, and the counts have only grown
  have hmissed : ∀ l, NothingMissed c (t.waiters r) l → NothingMissed c (t'.waiters r) l := by
    intro l hl i hi
    rw [hsubs]
    exact hl i hi
  cases phase with
  | checking futexes ws todo =>
      obtain ⟨done, hdone, hl⟩ := h
      exact ⟨done, hdone, hmissed done hl⟩
  | checked futexes ws => exact hmissed ws h
  | reported i =>
      obtain ⟨done, todo, hc, hl, b, hb, hlt⟩ := h
      refine ⟨done, todo, hc, hmissed done hl, b, ?_, hlt.trans_le (hcounted i)⟩
      rw [hsubs]
      exact hb
  | _ => trivial

/-- A stream found without an update has nothing newer than the last frame handed out. -/
theorem le_seen_of_no_update {t : Streams ι R} {tr : List (StreamsEv ι R)}
    (hrun : (streamsMachine ι R).Run tr t) {i : ι} (hfew : (t.pubs i).prod.pub.published.length < 2 ^ 32)
    {ch : MetadataChannel} {read : Option TensorDescriptor}
    (hch : ((t.waiters r).subs i).metadata = some ch)
    (hup : hasUpdate ch (t.notify i) read ((t.waiters r).subs i).seenNotify
      ((t.waiters r).subs i).seenSeqno = false) :
    (t.pubs i).counted ≤ ((t.waiters r).subs i).seenSeqno := by
  obtain ⟨hmeta, b, hb, hseen, hle⟩ := Streams.Watermark.of_run hrun r i (by omega)
  cases hmeta.symm.trans hch
  have hsame : t.notify i = ((t.waiters r).subs i).seenNotify := not_not.mp (of_decide_eq_false hup)
  have hword : t.notify i = UInt32.ofNat (t.pubs i).counted := Publication.notify_eq (Streams.pub_run i hrun)
  rw [hword, hseen] at hsame
  have hcounted := (t.pubs i).counted_le
  have := uint32_ofNat_inj_of_lt hsame.symm hb (by omega)
  exact this.ge.trans hle

/-- A stream found with an update has counted a frame. -/
theorem frameCounted_of_update {t : Streams ι R} {tr : List (StreamsEv ι R)}
    (hrun : (streamsMachine ι R).Run tr t) {i : ι} (hfew : (t.pubs i).prod.pub.published.length < 2 ^ 32)
    {ch : MetadataChannel} {read : Option TensorDescriptor}
    (hch : ((t.waiters r).subs i).metadata = some ch)
    (hup : hasUpdate ch (t.notify i) read ((t.waiters r).subs i).seenNotify
      ((t.waiters r).subs i).seenSeqno = true) : FrameCounted t r i := by
  obtain ⟨hmeta, b, hb, hseen, -⟩ := Streams.Watermark.of_run hrun r i (by omega)
  cases hmeta.symm.trans hch
  have hne : t.notify i ≠ ((t.waiters r).subs i).seenNotify := of_decide_eq_true hup
  have hword : t.notify i = UInt32.ofNat (t.pubs i).counted := Publication.notify_eq (Streams.pub_run i hrun)
  refine ⟨b, hseen, lt_of_le_of_ne hb ?_⟩
  rintro rfl
  exact hne (hword.trans hseen.symm)

/-- No more publishes were noted than have been counted. -/
def NotedCounted (s : TimedStreams ι R) (r : R) : Prop :=
  ∀ i, (s.calls r).published i ≤ (s.streams.pubs i).counted

/-- An event leaves the notes of a thread alone, or a call begins. -/
theorem callOf_published (hs : s.step e = some s') (r : R) :
    (s.callOf e r).published = (s.calls r).published ∨ (s.callOf e r).published = fun _ => 0 := by
  by_cases hr : e.thread? = some r
  · have hown := own_of_step hs hr
    generalize s'.streams.waiters r = w at hown
    generalize s.callOf e r = c at hown
    cases hown with
    | refuse => exact .inr rfl
    | waitAny => exact .inr rfl
    | _ => exact .inl rfl
  · rw [(other_of_step hs hr).1]
    exact .inl rfl

/-- The publishers go on. -/
theorem noLess_of_step (hrun : (timedMachine ι R).Run tr s) (hs : s.step e = some s') (i : ι) :
    (s.streams.pubs i).NoLess (s'.streams.pubs i) := by
  have hbase := (step_eq hs).2.2
  cases hb : e.base with
  | none =>
      rw [hb] at hbase
      rw [hbase]
      exact ⟨le_rfl, le_rfl⟩
  | some b =>
      rw [hb] at hbase
      exact Streams.noLess_of_step (streams_run hrun) hbase i

/-- **In every run** no more publishes were noted than have been counted. -/
theorem NotedCounted.of_run (hrun : (timedMachine ι R).Run tr s) (r : R) : s.NotedCounted r := by
  refine hrun.invariant (P := fun _ s => s.NotedCounted r) ?_ ?_
  · intro s hs i
    rw [hs.2.2 r]
    exact Nat.zero_le _
  · intro tr s e s' hrun ih hs i
    rw [calls_of_step hs r, noted]
    split_ifs
    · exact Publication.returned_le_counted (Streams.pub_run i (streams_run (hrun.snoc hs)))
    · obtain hsame | hzero := callOf_published hs r
      · rw [hsame]
        exact (ih i).trans (noLess_of_step hrun hs i).counted
      · rw [hzero]
        exact Nat.zero_le _

/-- **Every event of the thread keeps the invariant of its pass.** -/
theorem PassInv.own {w : Waiter ι} {c : WaitCall ι} (h : PassInv (s.calls r) s.streams r (s.phase r))
    (hrun : (timedMachine ι R).Run tr s)
    (hfew : ∀ i, (s.streams.pubs i).prod.pub.published.length < 2 ^ 32) (hown : s.OwnCase r e w c)
    {t : Streams ι R} (hw : t.waiters r = w) (hcounted : ∀ i, (s.streams.pubs i).counted ≤ (t.pubs i).counted) :
    PassInv c t r w.phase := by
  have hstreams := streams_run hrun
  have hshape := LoopShape.of_run hrun r
  cases hown with
  | thread b w hb hstep =>
      cases hstep with
      | raise i ws todo hphase =>
          cases todo with
          | nil => exact ⟨[], rfl, by simp [NothingMissed]⟩
          | cons j todo => trivial
      | report i read futexes ws todo ch hphase hch hup =>
          rw [show s.phase r = .checking futexes ws (i :: todo) from hphase] at h hshape
          obtain ⟨done, hdone, hmissed⟩ := h
          have hrep : PassInv (s.calls r) s.streams r (.reported i) :=
            ⟨done, todo, hshape.1 ▸ hdone, hmissed, frameCounted_of_update hstreams (hfew i) hch hup⟩
          exact hrep.congr (by rw [hw]) hcounted
      | check i read futexes ws todo ch hphase hch hup =>
          rw [show s.phase r = .checking futexes ws (i :: todo) from hphase] at h
          obtain ⟨done, hdone, hmissed⟩ := h
          -- the stream checked now joins those checked before
          have hmissed' : NothingMissed (s.calls r) (s.streams.waiters r) (done ++ [i]) := by
            intro j hj
            obtain hj | hj := List.mem_append.mp hj
            · exact hmissed j hj
            · rw [List.mem_singleton] at hj
              subst hj
              exact (NotedCounted.of_run hrun r j).trans (le_seen_of_no_update hstreams (hfew j) hch hup)
          have hnext : PassInv (s.calls r) s.streams r (Waiter.afterCheck futexes ws todo) := by
            cases todo with
            | nil => exact hdone ▸ hmissed'
            | cons j todo => exact ⟨done ++ [i], by simpa using hdone, hmissed'⟩
          exact hnext.congr (by rw [hw]) hcounted
      | read i e notify_now hphase =>
          rw [hphase]
          trivial
      | drainFences i segs ready hphase =>
          show PassInv _ t r (s.streams.waiters r).phase
          rw [hphase]
          trivial
      | setFallbackPolicy i p hphase =>
          show PassInv _ t r (s.streams.waiters r).phase
          rw [hphase]
          trivial
      | viewCall => trivial
      | viewRet => trivial
      | _ => cases hb
  | refuse subs timeoutMs hphase =>
      rw [show (s.streams.waiters r).phase = .idle from hphase]
      trivial
  | waitAny subs timeoutMs w hsubs hstep =>
      cases hstep with
      | waitCall => trivial
      | waitCallPolling => exact ⟨[], rfl, by simp [NothingMissed]⟩
  | timeLeft futexes ws hphase hasked hup =>
      rw [show (s.streams.waiters r).phase = .checked futexes ws from hphase]
      rw [hphase] at h
      have hnow : PassInv { s.calls r with asked := some s.now } s.streams r (.checked futexes ws) := h
      exact hnow.congr (by rw [hw]) hcounted
  | noWaitv ws hphase hasked => exact ⟨[], rfl, by simp [NothingMissed]⟩
  | nanosleep signal ws t hphase hasked ht => exact ⟨[], rfl, by simp [NothingMissed]⟩
  | timeUp => trivial
  | sleep => trivial
  | again => trivial
  | waitvReturns => trivial
  | waitvFails => trivial
  | ret => trivial

/-- **Every event keeps it**: those of the thread, and those of the publishers and other consumers. -/
theorem PassInv.step (h : PassInv (s.calls r) s.streams r (s.phase r)) (hrun : (timedMachine ι R).Run tr s)
    (hs : s.step e = some s') (hfew : ∀ i, (s.streams.pubs i).prod.pub.published.length < 2 ^ 32) :
    PassInv (s'.calls r) s'.streams r (s'.phase r) := by
  have hcounted := fun i => (noLess_of_step hrun hs i).counted
  rw [calls_of_step hs r]
  apply PassInv.noted
  by_cases hr : e.thread? = some r
  · exact h.own hrun hfew (own_of_step hs hr) rfl hcounted
  · obtain ⟨hcall, hw | ⟨i, hw⟩⟩ := other_of_step hs hr
    · rw [hcall, phase, hw]
      exact h.congr (by rw [hw]) hcounted
    · rw [hcall, phase, hw]
      obtain ⟨ws, -, -, hraised⟩ | ⟨-, hsame⟩ := Waiter.woken_phase i (s.streams.waiters r)
      · -- the pass of a sleeper begins again
        rw [hraised]
        trivial
      · rw [hsame]
        exact h.congr (by rw [hw, Waiter.woken_subs]) hcounted

/-- **In every run** with few frames, the streams that a pass has checked had nothing to offer. -/
theorem PassInv.of_run (hrun : (timedMachine ι R).Run tr s)
    (hfew : ∀ i, (s.streams.pubs i).prod.pub.published.length < 2 ^ 32) (r : R) :
    PassInv (s.calls r) s.streams r (s.phase r) := by
  refine hrun.invariant (P := fun _ s => (∀ i, (s.streams.pubs i).prod.pub.published.length < 2 ^ 32) →
    PassInv (s.calls r) s.streams r (s.phase r)) ?_ ?_ hfew
  · intro s hs _
    rw [show s.phase r = .idle from (hs.1.2 r).1]
    trivial
  · intro tr s e s' hrun ih hs hfew
    have hbefore : ∀ i, (s.streams.pubs i).prod.pub.published.length < 2 ^ 32 := fun i =>
      (noLess_of_step hrun hs i).published.trans_lt (hfew i)
    exact (ih hbefore).step hrun hs hbefore

end TimedStreams

/-! ## The clock -/

namespace WaitCall

variable {ι : Type} {c : WaitCall ι} {now now' : Timespec} {phase phase' : WaiterPhase ι}

/-- **The time of a call**, in nanoseconds: `begun`, the pauses without a signal, the last look at the clock and
now follow one another, and the loop goes on from a look at the clock only before the deadline. -/
structure Timing (c : WaitCall ι) (now : Timespec) (phase : WaiterPhase ι) : Prop where
  begun_normal : c.begun.Normal
  now_normal : now.Normal
  deadline : c.deadline = deadlineAfter c.begun (if c.timeoutMs < 0 then 0 else c.timeoutMs)
  elapsed : c.begun.ns + c.naps * 100000 ≤ now.ns
  asked : ∀ t, c.asked = some t → c.begun.ns + c.naps * 100000 ≤ t.ns ∧ t.ns ≤ now.ns ∧
    (0 ≤ c.timeoutMs.toInt → t.ns < c.begun.ns + c.timeoutMs.toInt * 1000000)
  naps : 0 ≤ c.timeoutMs.toInt → (c.naps : ℤ) ≤ 10 * c.timeoutMs.toInt
  asleep : ∀ ws, phase = .asleep ws → c.timeoutMs.toInt ≠ 0

namespace Timing

/-- **A call is out of time** when its timeout is not negative and has gone by, to the nanosecond. -/
theorem timeUp_iff (h : Timing c now phase) :
    c.TimeUp now ↔ 0 ≤ c.timeoutMs.toInt ∧ c.begun.ns + c.timeoutMs.toInt * 1000000 ≤ now.ns := by
  refine and_congr_right fun hms => ?_
  have hclamp : (if c.timeoutMs < 0 then 0 else c.timeoutMs) = c.timeoutMs := by
    refine if_neg fun hneg => ?_
    rw [Int32.lt_iff_toInt_lt] at hneg
    exact absurd hms (not_le.mpr hneg)
  rw [h.deadline, hclamp, past_iff (deadlineAfter_normal h.begun_normal hms) h.now_normal, deadlineAfter_ns]

/-- A call begins. -/
theorem begin (subs : List ι) (timeoutMs : Int32) (h : now.Normal) (hphase : ∀ ws, phase ≠ .asleep ws) :
    Timing (.begin subs timeoutMs now) now phase where
  begun_normal := h
  now_normal := h
  deadline := rfl
  elapsed := by simp [WaitCall.begin]
  asked := by simp [WaitCall.begin]
  naps := by simp [WaitCall.begin]
  asleep := fun ws hws => absurd hws (hphase ws)

/-- Time goes by, or the thread moves on, while the call keeps its locals. -/
theorem congr (h : Timing c now phase) (hnormal : now'.Normal) (hnow : now.ns ≤ now'.ns)
    (hphase : ∀ ws, phase' = .asleep ws → phase = .asleep ws) : Timing c now' phase' where
  begun_normal := h.begun_normal
  now_normal := hnormal
  deadline := h.deadline
  elapsed := h.elapsed.trans hnow
  asked := fun t ht => ⟨(h.asked t ht).1, (h.asked t ht).2.1.trans hnow, (h.asked t ht).2.2⟩
  naps := h.naps
  asleep := fun ws hws => h.asleep ws (hphase ws hws)

/-- The call returns. -/
theorem ret (h : Timing c now phase) (res : WaitResult ι) :
    Timing { c with returned := some res } now .idle where
  begun_normal := h.begun_normal
  now_normal := h.now_normal
  deadline := h.deadline
  elapsed := h.elapsed
  asked := h.asked
  naps := h.naps
  asleep := fun ws hws => by cases hws

/-- `past(deadline)` says no. -/
theorem look (h : Timing c now phase) (hup : ¬ c.TimeUp now) :
    Timing { c with asked := some now } now phase where
  begun_normal := h.begun_normal
  now_normal := h.now_normal
  deadline := h.deadline
  elapsed := h.elapsed
  asked := by
    rintro t ⟨⟩
    refine ⟨h.elapsed, le_rfl, fun hms => ?_⟩
    by_contra hle
    exact hup (h.timeUp_iff.mpr ⟨hms, not_lt.mp hle⟩)
  naps := h.naps
  asleep := h.asleep

/-- The loop goes on from its look at the clock, to sleep or to another pass. -/
theorem goOn (h : Timing c now phase) (hasked : c.asked ≠ none) (phase' : WaiterPhase ι) :
    Timing { c with asked := none } now phase' where
  begun_normal := h.begun_normal
  now_normal := h.now_normal
  deadline := h.deadline
  elapsed := h.elapsed
  asked := fun t ht => by cases ht
  naps := h.naps
  asleep := by
    intro ws _ hzero
    obtain ⟨t, ht⟩ := Option.ne_none_iff_exists'.mp hasked
    obtain ⟨hfrom, -, hbefore⟩ := h.asked t ht
    have hlt := hbefore hzero.ge
    -- with a timeout of zero there has never been time left
    rw [show c.timeoutMs.toInt = 0 from hzero] at hlt
    omega

/-- A pause of 100 µs has ended by itself: the look at the clock before it was in time for one more. -/
theorem nap (h : Timing c now phase) {t : Timespec} (ht : c.asked = some t) (hnap : t.ns + 100000 ≤ now.ns)
    (hphase : ∀ ws, phase' ≠ .asleep ws) :
    Timing { c with asked := none, naps := c.naps + 1 } now phase' where
  begun_normal := h.begun_normal
  now_normal := h.now_normal
  deadline := h.deadline
  elapsed := by
    have := (h.asked t ht).1
    push_cast
    omega
  asked := fun t ht => by cases ht
  -- another 100 us have gone by before the deadline
  naps := by
    intro hms
    obtain ⟨hfrom, -, hbefore⟩ := h.asked t ht
    have hlt := hbefore hms
    push_cast
    dsimp only at hms ⊢
    omega
  asleep := fun ws hws => absurd hws (hphase ws)

end Timing

end WaitCall

namespace TimedStreams

variable {ι R : Type} [DecidableEq ι] [DecidableEq R] {tr : List (TimedEv ι R)} {s s' : TimedStreams ι R}
  {e : TimedEv ι R} {r : R}

omit [DecidableEq R] in
/-- What is noted down has nothing to do with the clock. -/
theorem timing_noted {c : WaitCall ι} {now : Timespec} {phase : WaiterPhase ι} (h : c.Timing now phase)
    (t : Streams ι R) : (noted t phase c).Timing now phase := by
  unfold noted
  split_ifs
  · exact ⟨h.begun_normal, h.now_normal, h.deadline, h.elapsed, h.asked, h.naps, h.asleep⟩
  · exact h

/-- A step that has nothing to do with the clock does not end in sleep. -/
theorem not_asleep_of_clockless {notify : ι → UInt32} {w w' : Waiter ι} {b : WaitEv ι} (hb : b.clockless = true)
    (h : w.StepCase notify b w') (ws : List ι) : w'.phase ≠ .asleep ws := by
  intro hasleep
  obtain ⟨-, hchecked, -⟩ := h.asleep hasleep
  cases h with
  | sleep => cases hb
  | again => cases hb
  | noWaitv => cases hb
  | giveUp => cases hb
  | _ => cases hchecked.symm.trans ‹w.phase = _›

omit [DecidableEq R] in
/-- A thread's own step keeps its timing. -/
theorem timing_own {w : Waiter ι} {c : WaitCall ι} (h : (s.calls r).Timing s.now (s.phase r))
    (hown : s.OwnCase r e w c) : c.Timing s.now w.phase := by
  -- a step without the clock, or one that reads it, sleeps or returns
  cases hown with
  | thread b w hb hstep =>
      exact h.congr h.now_normal le_rfl fun ws hws => absurd hws (not_asleep_of_clockless hb hstep ws)
  | refuse subs timeoutMs hphase =>
      rw [show (s.streams.waiters r).phase = .idle from hphase]
      have hbegin : (WaitCall.begin subs timeoutMs s.now).Timing s.now .idle :=
        .begin subs timeoutMs h.now_normal (by simp)
      exact hbegin.ret _
  | waitAny subs timeoutMs w hsubs hstep =>
      refine .begin subs timeoutMs h.now_normal fun ws hws => ?_
      cases hstep <;> cases hws
  | timeLeft futexes ws hphase hasked hup => exact h.look hup
  | timeUp => exact h.ret _
  | sleep ws hphase hasked => exact h.goOn hasked _
  | again ws hphase hasked => exact h.goOn hasked _
  | waitvReturns errno ws hphase herrno => exact h.congr h.now_normal le_rfl (by simp)
  | noWaitv ws hphase hasked => exact h.goOn hasked _
  | waitvFails => exact h.ret _
  | nanosleep signal ws t hphase hasked ht =>
      cases signal with
      | true => exact h.goOn (by simp [hasked]) _
      | false => exact h.nap hasked (by simpa using ht) (by simp)
  | ret => exact h.ret _

/-- The clock goes on. -/
theorem now_of_step (hs : s.step e = some s') (h : s.now.Normal) : s'.now.Normal ∧ s.now.ns ≤ s'.now.ns := by
  obtain ⟨hcan, hafter, -⟩ := step_eq hs
  rw [show s'.now = s.nowAfter e from congrArg TimedStreams.now hafter]
  cases e with
  | tick now => exact hcan
  | _ => exact ⟨h, le_rfl⟩

/-- The clock stands still during an event of a thread. -/
theorem now_of_own (hs : s.step e = some s') (hr : e.thread? = some r) : s'.now = s.now := by
  rw [show s'.now = s.nowAfter e from congrArg TimedStreams.now (step_eq hs).2.1]
  cases e with
  | tick now => cases hr
  | _ => rfl

/-- So does every step of the system, the clock's included. -/
theorem timing_step (h : (s.calls r).Timing s.now (s.phase r)) (hs : s.step e = some s') :
    (s'.calls r).Timing s'.now (s'.phase r) := by
  rw [calls_of_step hs r]
  apply timing_noted
  by_cases hr : e.thread? = some r
  · rw [now_of_own hs hr]
    exact timing_own h (own_of_step hs hr)
  · obtain ⟨hnormal, hnow⟩ := now_of_step hs h.now_normal
    obtain ⟨hcall, hw⟩ := other_of_step hs hr
    rw [hcall]
    refine h.congr hnormal hnow fun ws hws => ?_
    obtain hw | ⟨i, hw⟩ := hw
    · rw [phase, hw] at hws
      exact hws
    · -- a wake-up puts nobody to sleep
      rw [phase, hw] at hws
      obtain ⟨ws', -, -, hraised⟩ | ⟨-, hsame⟩ := Waiter.woken_phase i (s.streams.waiters r)
      · cases hraised.symm.trans hws
      · rw [hsame] at hws
        exact hws

/-- **In every run** a call keeps to its deadline. -/
theorem timing_of_run (hrun : (timedMachine ι R).Run tr s) (r : R) : (s.calls r).Timing s.now (s.phase r) := by
  refine hrun.invariant (P := fun _ s => (s.calls r).Timing s.now (s.phase r)) ?_ ?_
  · intro s hs
    rw [hs.2.2 r]
    refine .begin [] 0 hs.2.1 fun ws hws => ?_
    cases (hs.1.2 r).1.symm.trans hws
  · intro tr s e s' _ ih hs
    exact timing_step ih hs

end TimedStreams

/-! ## The results -/

/-- The thread that an event returns to from `wait_any`, with the result. -/
def TimedEv.result? {ι R : Type} : TimedEv ι R → Option (R × WaitResult ι)
  | .refuse r _ _ => some (r, .failed EINVAL)
  | .timeUp r => some (r, .failed ETIMEDOUT)
  | .waitvFails r errno => if errno = ENOSYS then none else some (r, .failed errno)
  | .ret r i => some (r, .update i)
  | _ => none

/-- Only the end of the timeout is no error. -/
theorem waitForUpdate_eq_zero {ι : Type} {res : WaitResult ι} (h : waitForUpdate res = 0) :
    res = .failed ETIMEDOUT := by
  cases res with
  | update i => cases h
  | failed errno =>
      rw [waitForUpdate] at h
      split_ifs at h with herrno
      · rw [herrno]
      · cases h

/-- **What a result of `wait_any` says**, in every interleaving of the publishers with the consumers and the
clock. A stream that is returned has had a frame counted since `latest_view` loaded its notify word for the last fresh
view, and the streams before it in the list had nothing to offer in this pass. When `wait_for_update` makes a `0` of the result,
the timeout was not negative and has gone by, to the nanosecond, and no stream had anything to offer in the last
pass. -/
theorem wait_any_returns {ι R : Type} [DecidableEq ι] [DecidableEq R] {tr : List (TimedEv ι R)}
    {s s' : TimedStreams ι R} (hrun : (timedMachine ι R).Run tr s)
    (hfew : ∀ i, (s.streams.pubs i).prod.pub.published.length < 2 ^ 32) {e : TimedEv ι R}
    (hs : (timedMachine ι R).step s e = some s') {r : R} {res : WaitResult ι}
    (hres : e.result? = some (r, res)) :
    (s'.calls r).returned = some res ∧
      (∀ i, res = .update i → ∃ done todo, (s.calls r).subs = done ++ i :: todo ∧
        TimedStreams.NothingMissed (s.calls r) (s.streams.waiters r) done ∧
        TimedStreams.FrameCounted s.streams r i) ∧
      (waitForUpdate res = 0 → 0 ≤ (s.calls r).timeoutMs.toInt ∧
        (s.calls r).begun.ns + (s.calls r).timeoutMs.toInt * 1000000 ≤ s.now.ns ∧
        TimedStreams.NothingMissed (s.calls r) (s.streams.waiters r) (s.calls r).subs) := by
  have hpass := TimedStreams.PassInv.of_run hrun hfew r
  have hshape := TimedStreams.LoopShape.of_run hrun r
  have htime := TimedStreams.timing_of_run hrun r
  -- the thread returns by a step of its own
  have hr : e.thread? = some r := by
    cases e with
    | waitvFails r' errno =>
        rw [TimedEv.result?] at hres
        split_ifs at hres
        cases hres
        rfl
    | _ => cases hres <;> rfl
  have hown := TimedStreams.own_of_step hs hr
  have hcall := TimedStreams.calls_of_step hs r
  rw [TimedStreams.phase] at hcall
  generalize s'.streams.waiters r = w at hown hcall
  generalize s.callOf e r = c at hown hcall
  have hreturned : (s'.calls r).returned = c.returned := by
    rw [hcall, TimedStreams.noted]
    split_ifs <;> rfl
  rw [hreturned]
  -- it returns in four ways, and `ETIMEDOUT` is the answer of one
  cases hown with
  | refuse subs timeoutMs hphase =>
      cases hres
      refine ⟨rfl, by simp, fun h => ?_⟩
      cases waitForUpdate_eq_zero h
  | timeUp futexes ws hphase hasked hup =>
      cases hres
      rw [hphase] at hpass hshape
      -- the deadline has gone by, and the pass has missed nothing
      obtain ⟨hms, hgone⟩ := htime.timeUp_iff.mp hup
      exact ⟨rfl, by simp, fun _ => ⟨hms, hgone, hshape.1 ▸ hpass⟩⟩
  | waitvFails errno ws hphase hasked hne hno =>
      rw [TimedEv.result?, if_neg hne] at hres
      cases hres
      refine ⟨rfl, by simp, fun h => ?_⟩
      cases waitForUpdate_eq_zero h
      exact absurd rfl hno.2.2
  | ret i hphase =>
      cases hres
      -- the stream reported has counted a frame
      rw [hphase] at hpass
      refine ⟨rfl, ?_, fun h => ?_⟩
      · rintro j ⟨⟩
        exact hpass
      · cases waitForUpdate_eq_zero h
  | _ => cases hres

/-- A call of `wait_any` on the stream, up to its look at the clock. -/
def waitEvents (timeoutMs : Int32) : List (TimedEv Unit Unit) :=
  [.waitAny () [()] timeoutMs, .thread () (.raise ()), .thread () (.check () none)]

/-- One publisher and one subscriber, just attached, at a time of the clock. -/
def oneTimedStream (prod : Producer) (now : Timespec) : TimedStreams Unit Unit where
  streams := oneStream prod
  calls _ := .begin [] 0 now
  now := now

/-- One stream and a clock that shows a time is a beginning. -/
theorem oneTimedStream_init {prod : Producer} (h : producerMachine.init prod) {now : Timespec}
    (hnow : now.Normal) : (timedMachine Unit Unit).init (oneTimedStream prod now) :=
  ⟨oneStream_init h, hnow, fun _ => rfl⟩

/-- Nothing has been published and the timeout is zero: the call returns after its first pass. -/
theorem wait_any_returns_at_once : ∃ s s' : TimedStreams Unit Unit,
    (timedMachine Unit Unit).step s (.timeUp ()) = some s' ∧
      (s'.calls ()).returned = some (.failed ETIMEDOUT) ∧
      TimedStreams.NothingMissed (s.calls ()) (s.streams.waiters ()) (s.calls ()).subs := by
  obtain ⟨prod, hprod⟩ : ∃ prod, Producer.create ⟨false, false⟩ (.oneBuffer 4096) .obliging = some prod :=
    ⟨_, rfl⟩
  -- with timeout 0 the deadline has gone by at the first look
  have hexec : ((timedMachine Unit Unit).exec (oneTimedStream prod ⟨5, 0⟩) (waitEvents 0)).map (fun s =>
      (((timedMachine Unit Unit).step s (.timeUp ())).isSome,
        (s.streams.pubs ()).prod.pub.published.length)) = some (true, 0) := by
    cases hprod
    decide +kernel
  obtain ⟨s, hs, hres⟩ := Option.map_eq_some_iff.mp hexec
  simp only [Prod.mk.injEq] at hres
  obtain ⟨s', hs'⟩ := Option.isSome_iff_exists.mp hres.1
  have hrun := Machine.Run.of_exec (oneTimedStream_init ⟨_, _, _, hprod⟩ (by decide)) hs
  have hall := wait_any_returns hrun (fun _ => hres.2 ▸ by omega) hs' rfl
  exact ⟨s, s', hs', hall.1, (hall.2.2 rfl).2.2⟩

/-- **`wait_any` stays within its timeout**, in every interleaving, when the timeout is not negative. It goes to
sleep or pauses only after a look at the clock before the deadline, so with a timeout of zero it never does; and
its polling loop has paused at most ten times for every millisecond of the timeout, signals apart. -/
theorem wait_any_stays_in_time {ι R : Type} [DecidableEq ι] [DecidableEq R] {tr : List (TimedEv ι R)}
    {s : TimedStreams ι R} (hrun : (timedMachine ι R).Run tr s) {r : R}
    (hms : 0 ≤ (s.calls r).timeoutMs.toInt) :
    (∀ e s', (timedMachine ι R).step s e = some s' → (e = .waitv r ∨ ∃ signal, e = .nanosleep r signal) →
      ∃ t, (s.calls r).asked = some t ∧ (s.calls r).begun.ns ≤ t.ns ∧
        t.ns < (s.calls r).begun.ns + (s.calls r).timeoutMs.toInt * 1000000) ∧
      ((s.calls r).naps : ℤ) ≤ 10 * (s.calls r).timeoutMs.toInt ∧
      ((s.calls r).timeoutMs.toInt = 0 → (s.calls r).asked = none ∧ ∀ ws, s.phase r ≠ .asleep ws) := by
  have htime := TimedStreams.timing_of_run hrun r
  -- what was asked of the clock was answered since the call began
  have hlook : ∀ t, (s.calls r).asked = some t → (s.calls r).begun.ns ≤ t.ns ∧
      t.ns < (s.calls r).begun.ns + (s.calls r).timeoutMs.toInt * 1000000 := by
    intro t ht
    obtain ⟨hfrom, -, hbefore⟩ := htime.asked t ht
    exact ⟨by omega, hbefore hms⟩
  refine ⟨?_, htime.naps hms, fun hzero => ⟨?_, fun ws hws => htime.asleep ws hws hzero⟩⟩
  · intro e s' hs he
    -- both calls come after a look that found time left
    have hasked : (s.calls r).asked ≠ none := by
      obtain rfl | ⟨signal, rfl⟩ := he
      · exact (TimedStreams.step_eq hs).1
      · obtain ⟨t, ht, -⟩ := (TimedStreams.step_eq hs).1
        exact Option.ne_none_iff_exists'.mpr ⟨t, ht⟩
    obtain ⟨t, ht⟩ := Option.ne_none_iff_exists'.mp hasked
    exact ⟨t, ht, hlook t ht⟩
  · rw [Option.eq_none_iff_forall_ne_some]
    intro t ht
    have := hlook t ht
    rw [hzero] at this
    omega

/-- A call with a timeout of one millisecond, about to sleep. -/
theorem wait_any_stays_in_time_one : ∃ s : TimedStreams Unit Unit,
    (s.calls ()).asked = some ⟨5, 0⟩ ∧ ((s.calls ()).naps : ℤ) ≤ 10 * (s.calls ()).timeoutMs.toInt := by
  obtain ⟨prod, hprod⟩ : ∃ prod, Producer.create ⟨false, false⟩ (.oneBuffer 4096) .obliging = some prod :=
    ⟨_, rfl⟩
  have hexec : ((timedMachine Unit Unit).exec (oneTimedStream prod ⟨5, 0⟩)
      (waitEvents 1 ++ [.timeLeft ()])).map (fun s => ((s.calls ()).asked, (s.calls ()).timeoutMs)) =
      some (some ⟨5, 0⟩, 1) := by
    cases hprod
    decide +kernel
  obtain ⟨s, hs, hres⟩ := Option.map_eq_some_iff.mp hexec
  simp only [Prod.mk.injEq] at hres
  have hrun := Machine.Run.of_exec (oneTimedStream_init ⟨_, _, _, hprod⟩ (by decide)) hs
  refine ⟨s, hres.1, (wait_any_stays_in_time hrun ?_).2.1⟩
  rw [hres.2]
  decide

end Axon
