import Axon.Metadata.Slot
import Axon.Subscriber

/-! # Waiting for an update

`wait_any` sleeps on the notify words of several streams until one of them has a frame newer than the last
`latest_view`. A `Waiter` is one consumer thread with its subscribers, one for every stream in `ι`, between
two accesses to shared memory: it takes frames with `latest_view` and waits on the streams it chooses.

On the futex path, with at most `kMaxWaitv` streams that all have a notify word, the kernel compares the
words and puts the caller to sleep in one step; otherwise the loop polls. -/

namespace Axon

/-- `has_update`: the subscriber has a frame newer than its last `latest_view`. `notify` is the value of the
notify word, if the channel has one; `read` is what `read_latest` returns, which is asked otherwise. -/
def hasUpdate (ch : MetadataChannel) (notify : UInt32) (read : Option TensorDescriptor)
    (seenNotify : UInt32) (seenSeqno : SeqNo) : Bool :=
  -- `SEQ_CST` load: the word is compared, not the frame
  if ch.hasNotify then decide (notify ≠ seenNotify)
  else
    match read with
    | some d => decide (d.seqno ≠ seenSeqno)
    | none => false

/-- `FUTEX_WAITV_MAX`, the most streams that the futex path takes. -/
def kMaxWaitv : ℕ := 128

/-- The subscriber's channel has a notify word. -/
def TensorSubscriber.hasNotifyWord (s : TensorSubscriber) : Bool := s.metadata.any (·.hasNotify)

/-- Where a consumer thread stands. -/
inductive WaiterPhase (ι : Type)
  | idle
  /-- Inside `latest_view` of a stream, with the value of the notify word loaded at its head. -/
  | viewing (i : ι) (notify_now : UInt32)
  /-- Inside `wait_any`: the waiter flags of `todo` are still to be raised. -/
  | raising (ws todo : List ι)
  /-- The streams in `todo` are still to be checked for an update, on the futex path or polling. -/
  | checking (futexes : Bool) (ws todo : List ι)
  /-- No stream has had an update; about to sleep. -/
  | checked (futexes : Bool) (ws : List ι)
  /-- Asleep in `futex_waitv`. -/
  | asleep (ws : List ι)
  /-- About to return `i`: it has an update. -/
  | reported (i : ι)
  deriving DecidableEq

/-- A consumer thread and its subscribers. -/
structure Waiter (ι : Type) where
  subs : ι → TensorSubscriber
  phase : WaiterPhase ι

/-- What a consumer thread does next. -/
inductive WaitEv (ι : Type)
  /-- `latest_view` begins: load the notify word and call `read_latest`. -/
  | viewCall (i : ι) (maxRetry : ℤ)
  /-- An access of `read_latest`. -/
  | read (i : ι) (e : ReadEv)
  /-- `read_latest` returns `res`, and `latest_view` ends at clock `now`. -/
  | viewRet (i : ι) (res : Option TensorDescriptor) (retries : ℕ) (now : UInt64)
  /-- Fence messages arrive and are drained. -/
  | drainFences (i : ι) (segs : List Segment) (ready : ℕ)
  | setFallbackPolicy (i : ι) (p : FallbackPolicy)
  /-- `wait_any` begins. -/
  | waitCall (ws : List ι)
  /-- Store `1` into the waiter flag of the next stream. -/
  | raise (i : ι)
  /-- `has_update` of the next stream; `read` is what `read_latest` returns if it is asked. -/
  | check (i : ι) (read : Option TensorDescriptor)
  /-- `futex_waitv`: go to sleep if no word has changed. -/
  | sleep
  /-- `futex_waitv` returns early: a signal, or the deadline. -/
  | interrupt
  /-- The kernel has no `futex_waitv`: poll from now on. -/
  | noWaitv
  /-- Polling: the pause of 100 µs ends. -/
  | nap
  /-- The deadline has passed, or `futex_waitv` has failed: return `-1`. -/
  | giveUp
  /-- Return the stream that has an update. -/
  | ret

/-- The access to a slot that an event of the consumer `r` is. -/
def WaitEv.access {ι R : Type} (r : R) : WaitEv ι → Option (ι × SlotEv R)
  | .viewCall i maxRetry => some (i, .rd r (.call maxRetry))
  | .read i e => some (i, .rd r e)
  | .viewRet i res retries _ => some (i, .rd r (.ret res retries))
  | .raise i => some (i, .raise r)
  | _ => none

/-- A consumer reads slots and raises flags, in its own name. -/
theorem WaitEv.access_cases {ι R : Type} {r : R} {e : WaitEv ι} {i : ι} {a : SlotEv R}
    (h : e.access r = some (i, a)) : (∃ e', a = .rd r e') ∨ a = .raise r := by
  unfold WaitEv.access at h
  split at h
  · cases h
    exact .inl ⟨_, rfl⟩
  · cases h
    exact .inl ⟨_, rfl⟩
  · cases h
    exact .inl ⟨_, rfl⟩
  · cases h
    exact .inr rfl
  · cases h

namespace Waiter

variable {ι : Type} [DecidableEq ι]

/-- The thread with another subscriber for stream `i`. -/
def setSub (w : Waiter ι) (i : ι) (sub : TensorSubscriber) : Waiter ι :=
  { w with subs := Function.update w.subs i sub }

/-- The subscriber that was replaced. -/
@[simp] theorem setSub_subs_self (w : Waiter ι) (i : ι) (sub : TensorSubscriber) :
    (w.setSub i sub).subs i = sub := by
  show Function.update w.subs i sub i = sub
  exact Function.update_self i sub w.subs

/-- The others stay. -/
theorem setSub_subs_of_ne (w : Waiter ι) {i j : ι} (h : j ≠ i) (sub : TensorSubscriber) :
    (w.setSub i sub).subs j = w.subs j := by
  show Function.update w.subs i sub j = w.subs j
  exact Function.update_of_ne h sub w.subs

/-- The loop of `wait_any` after the flag of a stream has been raised. -/
def afterRaise (ws : List ι) : List ι → WaiterPhase ι
  | [] => .checking true ws ws
  | todo => .raising ws todo

/-- The loop of `wait_any` after a stream has been found without an update. -/
def afterCheck (futexes : Bool) (ws : List ι) : List ι → WaiterPhase ι
  | [] => .checked futexes ws
  | todo => .checking futexes ws todo

/-- One event, when the notify words are as `notify` says. -/
def step (notify : ι → UInt32) (w : Waiter ι) : WaitEv ι → Option (Waiter ι)
  | .viewCall i _ =>
      match w.phase with
      | .idle => some { w with phase := .viewing i (notify i) }
      | _ => none
  | .read i e =>
      match w.phase, e with
      | _, .call _ => none
      | _, .ret _ _ => none
      | .viewing j _, _ => if i = j then some w else none
      | _, _ => none
  | .viewRet i res retries now =>
      match w.phase with
      | .viewing j notify_now =>
          if i = j then
            some { w.setSub i ((w.subs i).latestView notify_now res retries now).2 with phase := .idle }
          else none
      | _ => none
  | .drainFences i segs ready =>
      match w.phase with
      | .idle => some (w.setSub i
          (TensorSubscriber.drainFences { w.subs i with client := (w.subs i).client.arrive segs } ready).2)
      | _ => none
  | .setFallbackPolicy i p =>
      match w.phase with
      | .idle => some (w.setSub i ((w.subs i).setFallbackPolicy p))
      | _ => none
  | .waitCall ws =>
      match w.phase with
      | .idle =>
          -- `EINVAL` for no stream, or for one that has not been attached
          if ws ≠ [] ∧ ∀ i ∈ ws, (w.subs i).metadata ≠ none then
            -- the futex path needs a notify word of every stream
            if ws.length ≤ kMaxWaitv ∧ ∀ i ∈ ws, (w.subs i).hasNotifyWord = true then
              some { w with phase := .raising ws ws }
            else some { w with phase := .checking false ws ws }
          else none
      | _ => none
  | .raise i =>
      match w.phase with
      | .raising ws (j :: todo) => if i = j then some { w with phase := afterRaise ws todo } else none
      | _ => none
  | .check i read =>
      match w.phase with
      | .checking futexes ws (j :: todo) =>
          if i = j then
            match (w.subs i).metadata with
            | some ch =>
                -- the first stream with an update ends the loop
                if hasUpdate ch (notify i) read (w.subs i).seenNotify (w.subs i).seenSeqno then
                  some { w with phase := .reported i }
                else some { w with phase := afterCheck futexes ws todo }
            | none => none
          else none
      | _ => none
  | .sleep =>
      match w.phase with
      | .checked true ws =>
          -- the kernel compares with `seen_notify`; `EAGAIN` sends the caller through the loop again
          if ∀ i ∈ ws, notify i = (w.subs i).seenNotify then some { w with phase := .asleep ws }
          else some { w with phase := .raising ws ws }
      | _ => none
  | .interrupt =>
      match w.phase with
      | .asleep ws => some { w with phase := .raising ws ws }
      | _ => none
  | .noWaitv =>
      match w.phase with
      | .checked true ws => some { w with phase := .checking false ws ws }
      | _ => none
  | .nap =>
      match w.phase with
      | .checked false ws => some { w with phase := .checking false ws ws }
      | _ => none
  | .giveUp =>
      match w.phase with
      | .checked _ _ => some { w with phase := .idle }
      | _ => none
  | .ret =>
      match w.phase with
      | .reported _ => some { w with phase := .idle }
      | _ => none

/-- `FUTEX_WAKE` on the notify word of stream `i`: a sleeper goes through its loop again. -/
def woken (i : ι) (w : Waiter ι) : Waiter ι :=
  match w.phase with
  | .asleep ws => if i ∈ ws then { w with phase := .raising ws ws } else w
  | _ => w

/-! ## What a step does -/

/-- The events of a consumer thread, with the thread after each. -/
inductive StepCase (notify : ι → UInt32) (w : Waiter ι) : WaitEv ι → Waiter ι → Prop
  | viewCall (i : ι) (maxRetry : ℤ) (h : w.phase = .idle) :
      StepCase notify w (.viewCall i maxRetry) { w with phase := .viewing i (notify i) }
  | read (i : ι) (e : ReadEv) (notify_now : UInt32) (h : w.phase = .viewing i notify_now)
      (hcall : ∀ n, e ≠ .call n) (hret : ∀ res k, e ≠ .ret res k) : StepCase notify w (.read i e) w
  | viewRet (i : ι) (res : Option TensorDescriptor) (retries : ℕ) (now : UInt64) (notify_now : UInt32)
      (h : w.phase = .viewing i notify_now) : StepCase notify w (.viewRet i res retries now)
        { w.setSub i ((w.subs i).latestView notify_now res retries now).2 with phase := .idle }
  | drainFences (i : ι) (segs : List Segment) (ready : ℕ) (h : w.phase = .idle) :
      StepCase notify w (.drainFences i segs ready) (w.setSub i
        (TensorSubscriber.drainFences { w.subs i with client := (w.subs i).client.arrive segs } ready).2)
  | setFallbackPolicy (i : ι) (p : FallbackPolicy) (h : w.phase = .idle) :
      StepCase notify w (.setFallbackPolicy i p) (w.setSub i ((w.subs i).setFallbackPolicy p))
  | waitCall (ws : List ι) (h : w.phase = .idle) (hlen : ws.length ≤ kMaxWaitv)
      (hword : ∀ i ∈ ws, (w.subs i).hasNotifyWord = true) :
      StepCase notify w (.waitCall ws) { w with phase := .raising ws ws }
  | waitCallPolling (ws : List ι) (h : w.phase = .idle)
      (hpoll : ¬ (ws.length ≤ kMaxWaitv ∧ ∀ i ∈ ws, (w.subs i).hasNotifyWord = true)) :
      StepCase notify w (.waitCall ws) { w with phase := .checking false ws ws }
  | raise (i : ι) (ws todo : List ι) (h : w.phase = .raising ws (i :: todo)) :
      StepCase notify w (.raise i) { w with phase := afterRaise ws todo }
  | report (i : ι) (read : Option TensorDescriptor) (futexes : Bool) (ws todo : List ι)
      (ch : MetadataChannel) (h : w.phase = .checking futexes ws (i :: todo))
      (hch : (w.subs i).metadata = some ch)
      (hup : hasUpdate ch (notify i) read (w.subs i).seenNotify (w.subs i).seenSeqno = true) :
      StepCase notify w (.check i read) { w with phase := .reported i }
  | check (i : ι) (read : Option TensorDescriptor) (futexes : Bool) (ws todo : List ι)
      (ch : MetadataChannel) (h : w.phase = .checking futexes ws (i :: todo))
      (hch : (w.subs i).metadata = some ch)
      (hup : hasUpdate ch (notify i) read (w.subs i).seenNotify (w.subs i).seenSeqno = false) :
      StepCase notify w (.check i read) { w with phase := afterCheck futexes ws todo }
  | sleep (ws : List ι) (h : w.phase = .checked true ws)
      (hsame : ∀ i ∈ ws, notify i = (w.subs i).seenNotify) :
      StepCase notify w .sleep { w with phase := .asleep ws }
  | again (ws : List ι) (h : w.phase = .checked true ws) :
      StepCase notify w .sleep { w with phase := .raising ws ws }
  | interrupt (ws : List ι) (h : w.phase = .asleep ws) :
      StepCase notify w .interrupt { w with phase := .raising ws ws }
  | noWaitv (ws : List ι) (h : w.phase = .checked true ws) :
      StepCase notify w .noWaitv { w with phase := .checking false ws ws }
  | nap (ws : List ι) (h : w.phase = .checked false ws) :
      StepCase notify w .nap { w with phase := .checking false ws ws }
  | giveUp (futexes : Bool) (ws : List ι) (h : w.phase = .checked futexes ws) :
      StepCase notify w .giveUp { w with phase := .idle }
  | ret (i : ι) (h : w.phase = .reported i) : StepCase notify w .ret { w with phase := .idle }

/-- **What a step does.** -/
theorem step_cases {notify : ι → UInt32} {w w' : Waiter ι} {e : WaitEv ι}
    (h : w.step notify e = some w') : w.StepCase notify e w' := by
  -- one event after the other, each of which wants the phase it is possible in
  unfold step at h
  split at h
  case h_1 i n =>
    split at h
    · cases h
      exact .viewCall i n ‹_›
    · cases h
  case h_2 i e =>
    split at h
    · cases h
    · cases h
    · rename_i j notify_now hphase hcall hret
      split_ifs at h with hij
      cases h
      subst hij
      exact .read i _ notify_now hphase (fun n hn => hcall n hn) fun res k he => hret res k he
    · cases h
  case h_3 i res retries now =>
    split at h
    · rename_i j notify_now hphase
      split_ifs at h with hij
      cases h
      subst hij
      exact .viewRet i res retries now notify_now hphase
    · cases h
  case h_4 i segs ready =>
    split at h
    · cases h
      exact .drainFences i segs ready ‹_›
    · cases h
  case h_5 i p =>
    split at h
    · cases h
      exact .setFallbackPolicy i p ‹_›
    · cases h
  case h_6 ws =>
    split at h
    -- the list is waited on with futexes if every stream has a notify word
    · rename_i hphase
      split_ifs at h with hws hfutex
      · cases h
        exact .waitCall ws hphase hfutex.1 hfutex.2
      · cases h
        exact .waitCallPolling ws hphase hfutex
    · cases h
  case h_7 i =>
    split at h
    · rename_i ws j todo hphase
      split_ifs at h with hij
      cases h
      subst hij
      exact .raise i ws todo hphase
    · cases h
  case h_8 i read =>
    split at h
    · rename_i futexes ws j todo hphase
      split_ifs at h with hij
      subst hij
      split at h
      · rename_i ch hch
        split_ifs at h with hup
        · cases h
          exact .report i read futexes ws todo ch hphase hch hup
        · cases h
          exact .check i read futexes ws todo ch hphase hch (Bool.eq_false_iff.mpr hup)
      · cases h
    · cases h
  case h_9 =>
    split at h
    · rename_i ws hphase
      split_ifs at h with hsame
      · cases h
        exact .sleep ws hphase hsame
      · cases h
        exact .again ws hphase
    · cases h
  case h_10 =>
    split at h
    · cases h
      exact .interrupt _ ‹_›
    · cases h
  case h_11 =>
    split at h
    · cases h
      exact .noWaitv _ ‹_›
    · cases h
  case h_12 =>
    split at h
    · cases h
      exact .nap _ ‹_›
    · cases h
  case h_13 =>
    split at h
    · cases h
      exact .giveUp _ _ ‹_›
    · cases h
  case h_14 =>
    split at h
    · cases h
      exact .ret _ ‹_›
    · cases h

end Waiter

/-! ## What a thread remembers of a stream -/

/-- Two subscribers that remember the same of their stream. -/
structure TensorSubscriber.SameMarks (s s' : TensorSubscriber) : Prop where
  metadata : s'.metadata = s.metadata
  seenNotify : s'.seenNotify = s.seenNotify
  seenSeqno : s'.seenSeqno = s.seenSeqno

/-- Nothing has been read. -/
theorem TensorSubscriber.SameMarks.refl (s : TensorSubscriber) : s.SameMarks s := ⟨rfl, rfl, rfl⟩

/-- **Only a fresh frame moves the marks**: to its number, and to the value that the notify word had at the
head of the call, or zero without such a word. -/
theorem TensorSubscriber.latestView_marks (s : TensorSubscriber) (notify : UInt32)
    (res : Option TensorDescriptor) (retries : ℕ) (now : UInt64) :
    s.SameMarks (s.latestView notify res retries now).2 ∨ ∃ ch d, s.metadata = some ch ∧ res = some d ∧
      s.Accepts d ∧ (s.latestView notify res retries now).2.metadata = s.metadata ∧
      (s.latestView notify res retries now).2.seenNotify = (if ch.hasNotify = true then notify else 0) ∧
      (s.latestView notify res retries now).2.seenSeqno = d.seqno := by
  cases hch : s.metadata with
  | none =>
      rw [latestView, hch]
      exact .inl (.refl s)
  | some ch =>
      have hview : s.latestView notify res retries now =
          s.handOut (if ch.hasNotify = true then notify else 0) res retries now := by
        rw [latestView, hch]
      rw [hview]
      cases res with
      | none => exact .inl ⟨rfl, rfl, rfl⟩
      | some d =>
          -- whatever is not accepted leads to the fallback, which moves nothing
          by_cases hacc : s.Accepts d
          · rw [handOut, if_pos hacc]
            exact .inr ⟨ch, d, rfl, rfl, hacc, hch, rfl, rfl⟩
          · rw [handOut, if_neg hacc]
            exact .inl ⟨rfl, rfl, rfl⟩

namespace Waiter

variable {ι : Type} [DecidableEq ι] {notify : ι → UInt32} {w w' : Waiter ι} {e : WaitEv ι}

/-- Replacing a subscriber by one that remembers the same. -/
theorem sameMarks_setSub (w : Waiter ι) {i : ι} {sub : TensorSubscriber} (h : (w.subs i).SameMarks sub)
    (j : ι) : (w.subs j).SameMarks ((w.setSub i sub).subs j) := by
  by_cases hj : j = i
  · subst hj
    rw [setSub_subs_self]
    exact h
  · rw [setSub_subs_of_ne w hj]
    exact .refl _

/-- **What a thread remembers of stream `i` after a step**: what it remembered before, or the frame that
`latest_view` handed out, with the value of the notify word loaded at its head. -/
theorem StepCase.watermark (h : w.StepCase notify e w') (i : ι) :
    (w.subs i).SameMarks (w'.subs i) ∨ ∃ ch d retries now notify_now, (w.subs i).metadata = some ch ∧
      e = .viewRet i (some d) retries now ∧ w.phase = .viewing i notify_now ∧ (w.subs i).Accepts d ∧
      (w'.subs i).metadata = (w.subs i).metadata ∧
      (w'.subs i).seenNotify = (if ch.hasNotify = true then notify_now else 0) ∧
      (w'.subs i).seenSeqno = d.seqno := by
  cases h with
  | viewRet j res retries now notify_now hphase =>
      by_cases hj : i = j
      · -- the stream whose `latest_view` ends
        subst hj
        show (w.subs i).SameMarks ((w.setSub i _).subs i) ∨ ∃ ch d retries' now' notify_now', _ ∧ _ ∧ _ ∧ _ ∧
          ((w.setSub i _).subs i).metadata = _ ∧ ((w.setSub i _).subs i).seenNotify = _ ∧
          ((w.setSub i _).subs i).seenSeqno = _
        rw [setSub_subs_self]
        obtain hsame | ⟨ch, d, hch, rfl, hacc, hm, hn, hs⟩ :=
          (w.subs i).latestView_marks notify_now res retries now
        · exact .inl hsame
        · exact .inr ⟨ch, d, retries, now, notify_now, hch, rfl, hphase, hacc, hm, hn, hs⟩
      · -- another stream
        refine .inl ?_
        show (w.subs i).SameMarks ((w.setSub j _).subs i)
        rw [setSub_subs_of_ne w hj]
        exact .refl _
  | drainFences j segs ready hphase =>
      -- draining changes the fences alone
      apply Or.inl
      apply w.sameMarks_setSub
      exact ⟨rfl, rfl, rfl⟩
  | setFallbackPolicy j p hphase =>
      apply Or.inl
      apply w.sameMarks_setSub
      exact ⟨rfl, rfl, rfl⟩
  | _ => exact .inl (.refl _)

/-- The same for a stream with a notify word. -/
theorem StepCase.marks (h : w.StepCase notify e w') {i : ι} (hmeta : (w.subs i).metadata = some ⟨true⟩) :
    (w.subs i).SameMarks (w'.subs i) ∨ ∃ d retries now notify_now, e = .viewRet i (some d) retries now ∧
      w.phase = .viewing i notify_now ∧ (w.subs i).Accepts d ∧
      (w'.subs i).metadata = (w.subs i).metadata ∧ (w'.subs i).seenNotify = notify_now ∧
      (w'.subs i).seenSeqno = d.seqno := by
  refine (h.watermark i).imp_right ?_
  rintro ⟨ch, d, retries, now, notify_now, hch, he, hphase, hacc, hm, hn, hs⟩
  obtain rfl := Option.some.inj (hmeta.symm.trans hch)
  exact ⟨d, retries, now, notify_now, he, hphase, hacc, hm, hn, hs⟩

/-- What a thread does between its handshakes leaves its attachments alone. -/
theorem StepCase.sameAttachment (h : w.StepCase notify e w') (i : ι) :
    (w.subs i).SameAttachment (w'.subs i) ∧ (w'.subs i).metadata = (w.subs i).metadata := by
  have hset : ∀ (j : ι) (sub : TensorSubscriber), (w.subs j).SameAttachment sub ∧
      sub.metadata = (w.subs j).metadata → (w.subs i).SameAttachment ((w.setSub j sub).subs i) ∧
        ((w.setSub j sub).subs i).metadata = (w.subs i).metadata := by
    intro j sub hsame
    -- the subscriber that the step works on, or another
    by_cases hj : i = j
    · subst hj
      rw [setSub_subs_self]
      exact hsame
    · rw [setSub_subs_of_ne w hj]
      exact ⟨.refl _, rfl⟩
  cases h with
  | viewRet j res retries now notify_now hphase =>
      exact hset j _ ((w.subs j).latestView_sameAttachment notify_now res retries now)
  | drainFences j segs ready hphase => exact hset j _ ⟨⟨rfl, rfl, rfl, rfl, rfl, rfl, rfl, rfl⟩, rfl⟩
  | setFallbackPolicy j p hphase => exact hset j _ ⟨⟨rfl, rfl, rfl, rfl, rfl, rfl, rfl, rfl⟩, rfl⟩
  | _ => exact ⟨.refl _, rfl⟩

/-- A thread comes into `latest_view` by calling it, and stays there for the accesses of its read. -/
theorem StepCase.viewing (h : w.StepCase notify e w') {i : ι} {notify_now : UInt32}
    (hphase : w'.phase = .viewing i notify_now) :
    (∃ n, e = .viewCall i n ∧ notify_now = notify i) ∨
      (w.phase = .viewing i notify_now ∧ ∃ a, e = .read i a ∧ ∀ n, a ≠ .call n) := by
  -- only these steps end in a read, or leave one going on
  cases h with
  | viewCall j n h =>
      cases hphase
      exact .inl ⟨n, rfl, rfl⟩
  | read j a notify_now' h hcall hret =>
      cases h.symm.trans hphase
      exact .inr ⟨h, a, rfl, hcall⟩
  | drainFences j segs ready h => cases h.symm.trans hphase
  | setFallbackPolicy j p h => cases h.symm.trans hphase
  | raise j ws todo h =>
      unfold afterRaise at hphase
      dsimp only at hphase
      split at hphase <;> cases hphase
  | check j read futexes ws todo ch h hch hup =>
      unfold afterCheck at hphase
      dsimp only at hphase
      split at hphase <;> cases hphase
  | _ => cases hphase

/-- A thread comes to report a stream by finding an update. -/
theorem StepCase.reported (h : w.StepCase notify e w') {i : ι} (hphase : w'.phase = .reported i) :
    w'.subs = w.subs ∧ ∃ ch read, (w.subs i).metadata = some ch ∧
      hasUpdate ch (notify i) read (w.subs i).seenNotify (w.subs i).seenSeqno = true := by
  cases h with
  -- the only way in: `has_update` was true
  | report j read futexes ws todo ch h hch hup =>
      cases hphase
      exact ⟨rfl, ch, read, hch, hup⟩
  | check j read futexes ws todo ch h hch hup =>
      unfold afterCheck at hphase
      dsimp only at hphase
      split at hphase <;> cases hphase
  | raise j ws todo h =>
      unfold afterRaise at hphase
      dsimp only at hphase
      split at hphase <;> cases hphase
  | read j a notify_now h hcall hret => cases h.symm.trans hphase
  | drainFences j segs ready h => cases h.symm.trans hphase
  | setFallbackPolicy j p h => cases h.symm.trans hphase
  | _ => cases hphase

/-- A wake-up changes the phase of sleepers only. -/
theorem woken_subs (i : ι) (w : Waiter ι) : (w.woken i).subs = w.subs := by
  unfold woken
  split
  · split_ifs <;> rfl
  · rfl

/-- A thread that has been woken goes through its loop again; the others stay where they are. -/
theorem woken_phase (i : ι) (w : Waiter ι) :
    (∃ ws, w.phase = .asleep ws ∧ i ∈ ws ∧ (w.woken i).phase = .raising ws ws) ∨
      ((∀ ws, w.phase = .asleep ws → i ∉ ws) ∧ w.woken i = w) := by
  unfold woken
  split
  · rename_i ws hphase
    split_ifs with hi
    · exact .inl ⟨ws, hphase, hi, rfl⟩
    · refine .inr ⟨fun ws' hws' => ?_, rfl⟩
      cases hphase.symm.trans hws'
      exact hi
  · rename_i hphase
    exact .inr ⟨fun ws hws => absurd hws (hphase ws), rfl⟩

end Waiter

end Axon
