import Axon.Foundation.Rank
import Axon.WaitTimeouts

/-! # `wait_any` comes to an end

Once the timeout of a call has gone by, no thread sleeps through another pass: `waitRank` counts the steps that
the loop still has before it, and each of them takes it down. `wait_any_ends` bounds the steps, and says that
there is always one to take within a second, without a signal: the deadline that `futex_waitv` was given ends the
sleep. -/

namespace Axon

open Foundation
open Rt (ErrNo EINVAL)

/-- A thread is inside `wait_any`. -/
def WaiterPhase.inWaitAny {ι : Type} : WaiterPhase ι → Bool
  | .idle => false
  | .viewing _ _ => false
  | _ => true

/-- **A step that something outside the thread must bring about**: a signal, or an error of `futex_waitv` other
than the deadline's. -/
def TimedEv.fromOutside {ι R : Type} : TimedEv ι R → Bool
  | .waitvReturns _ errno => decide (errno ≠ ETIMEDOUT)
  | .waitvFails _ _ => true
  | .nanosleep _ signal => signal
  | _ => false

/-- **How many steps `wait_any` can still take** before it returns, when it is out of time. -/
def waitRank {ι : Type} (asked : Option Timespec) : WaiterPhase ι → ℕ
  | .raising ws todo => 2 + ws.length + todo.length
  | .checking _ _ todo => 2 + todo.length
  -- the clock was asked in time, so there is one more sleep and one more pass
  | .checked _ ws => if asked = none then 2 else 4 + 2 * ws.length
  | .asleep ws => 3 + 2 * ws.length
  | .reported _ => 1
  | .idle => 0
  | .viewing _ _ => 0

/-- Inside `wait_any` there is a step to take. -/
theorem waitRank_pos {ι : Type} {phase : WaiterPhase ι} (h : phase.inWaitAny = true) (asked : Option Timespec) :
    0 < waitRank asked phase := by
  cases phase with
  | idle => cases h
  | viewing i notify_now => cases h
  | checked futexes ws =>
      rw [waitRank]
      split_ifs <;> omega
  | _ =>
      rw [waitRank]
      omega

/-- The arguments of a call, and its deadline, stay. -/
structure WaitCall.SameCall {ι : Type} (c c' : WaitCall ι) : Prop where
  subs : c'.subs = c.subs
  timeoutMs : c'.timeoutMs = c.timeoutMs
  begun : c'.begun = c.begun

namespace TimedStreams

variable {ι R : Type} [DecidableEq ι] [DecidableEq R] {tr : List (TimedEv ι R)} {s s' : TimedStreams ι R}
  {e : TimedEv ι R} {r : R}

omit [DecidableEq ι] in
/-- A sleep and a pass are the most that is left. -/
theorem waitRank_le {c : WaitCall ι} {phase : WaiterPhase ι} (h : LoopShape c phase) :
    waitRank c.asked phase ≤ 2 * c.subs.length + 4 := by
  -- a step for each stream that is left, to be flagged and to be checked
  cases phase with
  | raising ws todo =>
      obtain ⟨rfl, -, -, hlen⟩ := h
      rw [waitRank]
      omega
  | checking futexes ws todo =>
      obtain ⟨rfl, -, -, hlen⟩ := h
      rw [waitRank]
      omega
  | checked futexes ws =>
      obtain ⟨rfl, -⟩ := h
      rw [waitRank]
      split_ifs <;> omega
  | asleep ws =>
      obtain ⟨rfl, -, -⟩ := h
      rw [waitRank]
      omega
  | _ =>
      rw [waitRank]
      omega

omit [DecidableEq R] in
/-- **A step of the thread that does not return takes the rank down**, when the call is out of time. -/
theorem waitRank_own {w : Waiter ι} {c : WaitCall ι} (hshape : LoopShape (s.calls r) (s.phase r))
    (hup : (s.calls r).TimeUp s.now) (hwait : (s.phase r).inWaitAny = true)
    (hno : ∀ res, e.result? ≠ some (r, res)) (hown : s.OwnCase r e w c) :
    (s.calls r).SameCall c ∧ w.phase.inWaitAny = true ∧
      waitRank c.asked w.phase + 1 ≤ waitRank (s.calls r).asked (s.phase r) := by
  cases hown with
  | thread b w hb hstep =>
      refine ⟨⟨rfl, rfl, rfl⟩, ?_⟩
      cases hstep with
      | raise i ws todo hphase =>
          rw [show s.phase r = .raising ws (i :: todo) from hphase]
          cases todo with
          | nil => exact ⟨rfl, by simp [waitRank, Waiter.afterRaise]⟩
          | cons j todo => exact ⟨rfl, by simp only [waitRank, Waiter.afterRaise, List.length_cons]; omega⟩
      | report i read futexes ws todo ch hphase hch hup =>
          rw [show s.phase r = .checking futexes ws (i :: todo) from hphase]
          exact ⟨rfl, by simp only [waitRank]; omega⟩
      | check i read futexes ws todo ch hphase hch hup =>
          rw [show s.phase r = .checking futexes ws (i :: todo) from hphase] at hshape ⊢
          obtain ⟨-, hasked, -⟩ := hshape
          cases todo with
          | nil => exact ⟨rfl, by simp [waitRank, Waiter.afterCheck, hasked]⟩
          | cons j todo => exact ⟨rfl, by simp only [waitRank, Waiter.afterCheck, List.length_cons]; omega⟩
      | sleep => cases hb
      | again => cases hb
      | interrupt => cases hb
      | noWaitv => cases hb
      | nap => cases hb
      | giveUp => cases hb
      | ret => cases hb
      | _ =>
          -- the others are not inside `wait_any`
          rw [show s.phase r = _ from ‹(s.streams.waiters r).phase = _›] at hwait
          cases hwait
  | refuse subs timeoutMs hphase =>
      rw [hphase] at hwait
      cases hwait
  | waitAny subs timeoutMs w hsubs hstep =>
      cases hstep with
      | waitCall _ hphase =>
          rw [show s.phase r = .idle from hphase] at hwait
          cases hwait
      | waitCallPolling _ hphase =>
          rw [show s.phase r = .idle from hphase] at hwait
          cases hwait
  | timeLeft futexes ws hphase hasked hleft => exact absurd hup hleft
  | timeUp => exact absurd rfl (hno _)
  | sleep ws hphase hasked =>
      refine ⟨⟨rfl, rfl, rfl⟩, rfl, ?_⟩
      rw [hphase, waitRank, waitRank, if_neg hasked]
      omega
  | again ws hphase hasked =>
      refine ⟨⟨rfl, rfl, rfl⟩, rfl, ?_⟩
      rw [hphase, waitRank, waitRank, if_neg hasked]
      omega
  | waitvReturns errno ws hphase herrno =>
      refine ⟨⟨rfl, rfl, rfl⟩, rfl, ?_⟩
      rw [hphase, waitRank, waitRank]
      omega
  | noWaitv ws hphase hasked =>
      refine ⟨⟨rfl, rfl, rfl⟩, rfl, ?_⟩
      rw [hphase, waitRank, waitRank, if_neg hasked]
      omega
  | waitvFails errno ws hphase hasked hne hno' =>
      refine absurd ?_ (hno (.failed errno))
      rw [TimedEv.result?, if_neg hne]
  | nanosleep signal ws t hphase hasked ht =>
      refine ⟨⟨rfl, rfl, rfl⟩, rfl, ?_⟩
      rw [hphase, waitRank, waitRank, hasked, if_neg (by simp)]
      omega
  | ret => exact absurd rfl (hno _)

/-- **The state of a thread whose call of `wait_any` is out of time.** -/
structure OutOfTime (s : TimedStreams ι R) (r : R) (c : WaitCall ι) : Prop where
  reachable : (timedMachine ι R).Reachable s
  same : c.SameCall (s.calls r)
  waiting : (s.phase r).inWaitAny = true
  gone : c.begun.ns + c.timeoutMs.toInt * 1000000 ≤ s.now.ns

/-- A call that is out of time has its deadline behind it. -/
theorem OutOfTime.timeUp {c : WaitCall ι} (h : s.OutOfTime r c) (hms : 0 ≤ c.timeoutMs.toInt) :
    (s.calls r).TimeUp s.now := by
  obtain ⟨tr, hrun⟩ := h.reachable
  rw [(timing_of_run hrun r).timeUp_iff, h.same.timeoutMs, h.same.begun]
  exact ⟨hms, h.gone⟩

/-- It is where its loop can be. -/
theorem OutOfTime.shape {c : WaitCall ι} (h : s.OutOfTime r c) : LoopShape (s.calls r) (s.phase r) := by
  obtain ⟨tr, hrun⟩ := h.reachable
  exact LoopShape.of_run hrun r

omit [DecidableEq R] in
/-- What is noted down is neither the call nor the clock. -/
theorem sameCall_noted {c c' : WaitCall ι} (h : c.SameCall c') (t : Streams ι R) (phase : WaiterPhase ι) :
    c.SameCall (noted t phase c') ∧ (noted t phase c').asked = c'.asked := by
  unfold noted
  split_ifs
  · exact ⟨⟨h.subs, h.timeoutMs, h.begun⟩, rfl⟩
  · exact ⟨h, rfl⟩

/-- **Every step of another leaves the rank as it is, or takes it down with a wake-up.** -/
theorem waitRank_other (hs : s.step e = some s') (hr : e.thread? ≠ some r)
    (hwait : (s.phase r).inWaitAny = true) :
    (s.calls r).SameCall (s'.calls r) ∧ (s'.phase r).inWaitAny = true ∧
      waitRank (s'.calls r).asked (s'.phase r) ≤ waitRank (s.calls r).asked (s.phase r) := by
  obtain ⟨hcall, hw⟩ := other_of_step hs hr
  obtain ⟨hsame, hasked⟩ := sameCall_noted (c := s.calls r) ⟨rfl, rfl, rfl⟩ s'.streams (s'.phase r)
  rw [calls_of_step hs r, hcall, hasked]
  refine ⟨hsame, ?_⟩
  obtain hw | ⟨i, hw⟩ := hw
  · rw [phase, hw]
    exact ⟨hwait, le_rfl⟩
  · rw [phase, hw]
    -- a sleeper that is woken goes on to the next pass, which is no step of its own
    obtain ⟨ws, hasleep, -, hraised⟩ | ⟨-, hstill⟩ := Waiter.woken_phase i (s.streams.waiters r)
    · rw [hraised, show s.phase r = .asleep ws from hasleep, waitRank, waitRank]
      exact ⟨rfl, by omega⟩
    · rw [hstill]
      exact ⟨hwait, le_rfl⟩

/-- **A step of a call that is out of time** brings it nearer to its end. -/
theorem OutOfTime.step {c : WaitCall ι} (h : s.OutOfTime r c) (hms : 0 ≤ c.timeoutMs.toInt)
    (hs : s.step e = some s') (hno : ∀ res, e.result? ≠ some (r, res)) :
    s'.OutOfTime r c ∧ waitRank (s'.calls r).asked (s'.phase r) + (if e.thread? = some r then 1 else 0) ≤
      waitRank (s.calls r).asked (s.phase r) := by
  obtain ⟨tr, hrun⟩ := h.reachable
  have hnow := (now_of_step hs (timing_of_run hrun r).now_normal).2
  have hreach : (timedMachine ι R).Reachable s' := ⟨_, hrun.snoc hs⟩
  -- its own steps bring it nearer to its end, those of others leave it where it is
  by_cases hr : e.thread? = some r
  · obtain ⟨hsame, hwait, hrank⟩ := waitRank_own h.shape (h.timeUp hms) h.waiting hno (own_of_step hs hr)
    obtain ⟨hsame', hasked⟩ := sameCall_noted hsame s'.streams (s'.phase r)
    rw [if_pos hr, calls_of_step hs r, hasked]
    refine ⟨⟨hreach, ?_, hwait, h.gone.trans hnow⟩, hrank⟩
    rw [calls_of_step hs r]
    exact ⟨hsame'.subs.trans h.same.subs, hsame'.timeoutMs.trans h.same.timeoutMs,
      hsame'.begun.trans h.same.begun⟩
  · obtain ⟨hsame, hwait, hrank⟩ := waitRank_other hs hr h.waiting
    rw [if_neg hr]
    exact ⟨⟨hreach, ⟨hsame.subs.trans h.same.subs, hsame.timeoutMs.trans h.same.timeoutMs,
      hsame.begun.trans h.same.begun⟩, hwait, h.gone.trans hnow⟩, hrank⟩

/-! ## There is always a step -/

/-- The subscribers stay attached. -/
theorem metadata_of_run {tr : List (StreamsEv ι R)} {t : Streams ι R} (hrun : (streamsMachine ι R).Run tr t)
    (r : R) (i : ι) : ((t.waiters r).subs i).metadata = some ⟨true⟩ := by
  refine hrun.invariant (P := fun _ t => ((t.waiters r).subs i).metadata = some ⟨true⟩) ?_ ?_
  · intro t ht
    exact ((ht.2 r).2 i).metadata
  · intro tr t b t' _ ih hs
    cases Streams.thread_of_step r hs with
    | own b' he hw hcall hkept =>
        obtain hmarks | ⟨d, retries, now, notify_now, -, -, -, hmeta, -⟩ := hw.marks ih
        · exact hmarks.metadata.trans ih
        · exact hmeta.trans ih
    | wake j he hw hloaded => rw [hw, Waiter.woken_subs, ih]
    | still hwait hwake hw hloaded => rw [hw, ih]

/-- An event can happen when what it is to the streams can. -/
theorem exists_step_of_base {b : StreamsEv ι R} (hcan : s.Can e) (hb : e.base = some b)
    (hstep : ∃ t, s.streams.step b = some t) : ∃ s', s.step e = some s' := by
  obtain ⟨t, ht⟩ := hstep
  rw [TimedStreams.step, if_pos hcan, hb]
  exact ⟨s.after e t, Option.map_eq_some_iff.mpr ⟨t, ht, rfl⟩⟩

/-- The same for a step of a thread that accesses no slot. -/
theorem exists_step_of_waiter {b : WaitEv ι} {w : Waiter ι} (hcan : s.Can e) (hb : e.base = some (.wait r b))
    (haccess : b.access r = none) (hw : (s.streams.waiters r).step s.streams.notify b = some w) :
    ∃ s', s.step e = some s' := by
  refine exists_step_of_base hcan hb ⟨{ s.streams with waiters := Function.update s.streams.waiters r w }, ?_⟩
  rw [Streams.step, hw, Option.bind_some, haccess]

/-- The next step of a thread whose call is out of time: it waits for no signal. -/
theorem OutOfTime.exists_step {c : WaitCall ι} (h : s.OutOfTime r c) (hms : 0 ≤ c.timeoutMs.toInt)
    (hnap : ∀ t, (s.calls r).asked = some t → t.ns + 100000 ≤ s.now.ns) :
    ∃ e s', e.thread? = some r ∧ e.fromOutside = false ∧ s.step e = some s' := by
  obtain ⟨tr, hrun⟩ := h.reachable
  have hup := h.timeUp hms
  have hshape := h.shape
  have hwait := h.waiting
  cases hphase : s.phase r with
  | idle =>
      rw [hphase] at hwait
      cases hwait
  | viewing i notify_now =>
      rw [hphase] at hwait
      cases hwait
  | raising ws todo =>
      rw [hphase] at hshape
      obtain ⟨i, todo, rfl⟩ := List.exists_cons_of_ne_nil hshape.2.2.1
      have hw : (s.streams.waiters r).step s.streams.notify (.raise i) =
          some { s.streams.waiters r with phase := Waiter.afterRaise ws todo } := by
        rw [Waiter.step, show (s.streams.waiters r).phase = _ from hphase]
        exact if_pos rfl
      -- the store into the flag of the slot is always possible
      have hstep : ∃ t, s.streams.step (.wait r (.raise i)) = some t := by
        rw [Streams.step, hw]
        exact ⟨_, rfl⟩
      obtain ⟨s', hs'⟩ := exists_step_of_base (e := .thread r (.raise i)) rfl rfl hstep
      exact ⟨_, s', rfl, rfl, hs'⟩
  | checking futexes ws todo =>
      rw [hphase] at hshape
      obtain ⟨i, todo, rfl⟩ := List.exists_cons_of_ne_nil hshape.2.2.1
      have hmeta := metadata_of_run (streams_run hrun) r i
      have hw : ∃ w, (s.streams.waiters r).step s.streams.notify (.check i none) = some w := by
        rw [Waiter.step, show (s.streams.waiters r).phase = _ from hphase]
        simp only [hmeta, ↓reduceIte]
        split_ifs <;> exact ⟨_, rfl⟩
      obtain ⟨w, hw⟩ := hw
      obtain ⟨s', hs'⟩ := exists_step_of_waiter (e := .thread r (.check i none)) rfl rfl rfl hw
      exact ⟨_, s', rfl, rfl, hs'⟩
  | checked futexes ws =>
      have hphase' : (s.streams.waiters r).phase = .checked futexes ws := hphase
      cases hasked : (s.calls r).asked with
      | none =>
          have hw : (s.streams.waiters r).step s.streams.notify .giveUp =
              some { s.streams.waiters r with phase := .idle } := by
            rw [Waiter.step, hphase']
          obtain ⟨s', hs'⟩ := exists_step_of_waiter (e := .timeUp r) ⟨hasked, hup⟩ rfl rfl hw
          exact ⟨_, s', rfl, rfl, hs'⟩
      | some t =>
          cases futexes with
          | true =>
              have hw : ∃ w, (s.streams.waiters r).step s.streams.notify .sleep = some w := by
                rw [Waiter.step, hphase']
                dsimp only
                split_ifs <;> exact ⟨_, rfl⟩
              obtain ⟨w, hw⟩ := hw
              have hcan : s.Can (.waitv r) := Option.ne_none_iff_exists'.mpr ⟨t, hasked⟩
              obtain ⟨s', hs'⟩ := exists_step_of_waiter hcan rfl rfl hw
              exact ⟨_, s', rfl, rfl, hs'⟩
          | false =>
              have hw : (s.streams.waiters r).step s.streams.notify .nap =
                  some { s.streams.waiters r with phase := .checking false ws ws } := by
                rw [Waiter.step, hphase']
              have hcan : s.Can (.nanosleep r false) := ⟨t, hasked, .inr (hnap t hasked)⟩
              obtain ⟨s', hs'⟩ := exists_step_of_waiter hcan rfl rfl hw
              exact ⟨_, s', rfl, rfl, hs'⟩
  | asleep ws =>
      have hw : (s.streams.waiters r).step s.streams.notify .interrupt =
          some { s.streams.waiters r with phase := .raising ws ws } := by
        rw [Waiter.step, show (s.streams.waiters r).phase = _ from hphase]
      -- the kernel was given the deadline
      have hcan : s.Can (.waitvReturns r ETIMEDOUT) := .inr ⟨rfl, hup⟩
      obtain ⟨s', hs'⟩ := exists_step_of_waiter hcan rfl rfl hw
      exact ⟨_, s', rfl, rfl, hs'⟩
  | reported i =>
      have hw : (s.streams.waiters r).step s.streams.notify .ret =
          some { s.streams.waiters r with phase := .idle } := by
        rw [Waiter.step, show (s.streams.waiters r).phase = _ from hphase]
      have hcan : s.Can (.ret r i) := hphase
      obtain ⟨s', hs'⟩ := exists_step_of_waiter hcan rfl rfl hw
      exact ⟨_, s', rfl, rfl, hs'⟩

/-- **A call that is out of time is never stuck**: a second later, at the latest, its thread can take a step,
whether or not a signal arrives. -/
theorem OutOfTime.goes_on {c : WaitCall ι} (h : s.OutOfTime r c) (hms : 0 ≤ c.timeoutMs.toInt) :
    ∃ now e s', now.ns ≤ s.now.ns + 1000000000 ∧ e.thread? = some r ∧ e.fromOutside = false ∧
      (timedMachine ι R).exec s [.tick now, e] = some s' := by
  obtain ⟨tr, hrun⟩ := h.reachable
  have htime := timing_of_run hrun r
  -- a second later nothing else has changed
  let later : Timespec := ⟨s.now.tvSec + 1, s.now.tvNsec⟩
  have hlater : later.ns = s.now.ns + 1000000000 := by
    show (s.now.tvSec + 1) * 1000000000 + s.now.tvNsec = s.now.ns + 1000000000
    rw [Timespec.ns]
    omega
  have hcan : s.Can (.tick later) := ⟨⟨htime.now_normal.nonneg, htime.now_normal.lt⟩, by omega⟩
  have htick : s.step (.tick later) = some (s.after (.tick later) s.streams) := by
    rw [TimedStreams.step, if_pos hcan]
    rfl
  obtain ⟨h₁, -⟩ := h.step hms htick (by simp [TimedEv.result?])
  have hasked : ∀ t, ((s.after (.tick later) s.streams).calls r).asked = some t → (s.calls r).asked = some t := by
    intro t ht
    have hcall := (other_of_step (r := r) htick (by simp [TimedEv.thread?])).1
    rw [calls_of_step htick r, hcall, (sameCall_noted (c := s.calls r) ⟨rfl, rfl, rfl⟩ _ _).2] at ht
    exact ht
  -- by then a pause of 100 us is over, and so is a sleep with this deadline
  obtain ⟨e, s', hr, hout, hs'⟩ := h₁.exists_step hms fun t ht => by
    have hle := (htime.asked t (hasked t ht)).2.1
    show t.ns + 100000 ≤ later.ns
    omega
  refine ⟨later, e, s', hlater.le, hr, hout, ?_⟩
  rw [Machine.exec_cons, show (timedMachine ι R).step s (.tick later) = _ from htick, Option.bind_some,
    Machine.exec_cons, show (timedMachine ι R).step _ e = _ from hs', Option.bind_some, Machine.exec_nil]

end TimedStreams

/-- **`wait_any` comes to an end**, in every interleaving: once a timeout that is not negative has gone by, the
thread can take a step a second later at the latest, whether or not a signal arrives, and it has returned before
it has taken more than `2 n + 3` of them, `n` streams given. -/
theorem wait_any_ends {ι R : Type} [DecidableEq ι] [DecidableEq R] {tr : List (TimedEv ι R)}
    {s : TimedStreams ι R} (hrun : (timedMachine ι R).Run tr s) {r : R}
    (hwait : (s.phase r).inWaitAny = true) (hms : 0 ≤ (s.calls r).timeoutMs.toInt)
    (hgone : (s.calls r).begun.ns + (s.calls r).timeoutMs.toInt * 1000000 ≤ s.now.ns) :
    ∀ tr' s', (timedMachine ι R).exec s tr' = some s' →
      (∀ e ∈ tr', ∀ res, e.result? ≠ some (r, res)) →
      tr'.countP (fun e => decide (e.thread? = some r)) ≤ 2 * (s.calls r).subs.length + 3 ∧
        ∃ now e s'', now.ns ≤ s'.now.ns + 1000000000 ∧ e.thread? = some r ∧ e.fromOutside = false ∧
          (timedMachine ι R).exec s' [.tick now, e] = some s'' := by
  intro tr' s' hexec hno
  have h : s.OutOfTime r (s.calls r) := ⟨⟨tr, hrun⟩, ⟨rfl, rfl, rfl⟩, hwait, hgone⟩
  -- each step of the thread costs one of the steps that are left
  have hstep : ∀ s₁ e s₂, e ∈ tr' → s₁.OutOfTime r (s.calls r) → (timedMachine ι R).step s₁ e = some s₂ →
      s₂.OutOfTime r (s.calls r) ∧
        waitRank (s₂.calls r).asked (s₂.phase r) + (if decide (e.thread? = some r) = true then 1 else 0) ≤
          waitRank (s₁.calls r).asked (s₁.phase r) := by
    intro s₁ e s₂ he h₁ hs
    simpa only [decide_eq_true_eq] using h₁.step hms hs (hno e he)
  have hcount := Machine.exec_countP_add_rank_le (fun s => waitRank (s.calls r).asked (s.phase r))
    (fun e : TimedEv ι R => decide (e.thread? = some r)) hexec h hstep
  have h' : s'.OutOfTime r (s.calls r) :=
    Machine.exec_invariant (P := fun s₁ => s₁.OutOfTime r (s.calls r)) hexec h fun s₁ e s₂ he h₁ hs _ =>
      (hstep s₁ e s₂ he h₁ hs).1
  refine ⟨?_, h'.goes_on hms⟩
  -- there are at most `2n + 4` to begin with, and one is left
  have hfirst := TimedStreams.waitRank_le h.shape
  have hlast := waitRank_pos h'.waiting (s'.calls r).asked
  omega

/-- A call with a timeout of zero, at its look at the clock: it has a step before the sixth second is over. -/
theorem wait_any_ends_zero : ∃ (s : TimedStreams Unit Unit) (now : Timespec) (e : TimedEv Unit Unit)
    (s' : TimedStreams Unit Unit), (s.calls ()).timeoutMs = 0 ∧ now.ns ≤ 6000000000 ∧ e.thread? = some () ∧
      e.fromOutside = false ∧ (timedMachine Unit Unit).exec s [.tick now, e] = some s' := by
  obtain ⟨prod, hprod⟩ : ∃ prod, Producer.create ⟨false, false⟩ (.oneBuffer 4096) .obliging = some prod :=
    ⟨_, rfl⟩
  have hexec : ((timedMachine Unit Unit).exec (oneTimedStream prod ⟨5, 0⟩) (waitEvents 0)).map (fun s =>
      ((s.phase ()).inWaitAny, (s.calls ()).timeoutMs, (s.calls ()).begun, s.now)) =
      some (true, 0, ⟨5, 0⟩, ⟨5, 0⟩) := by
    cases hprod
    decide +kernel
  obtain ⟨s, hs, hres⟩ := Option.map_eq_some_iff.mp hexec
  simp only [Prod.mk.injEq] at hres
  obtain ⟨hwait, htimeout, hbegun, hnow⟩ := hres
  have hrun := Machine.Run.of_exec (oneTimedStream_init ⟨_, _, _, hprod⟩ (by decide)) hs
  have hends := wait_any_ends hrun (r := ()) hwait (by rw [htimeout]; decide)
    (by rw [htimeout, hbegun, hnow]; decide) [] s rfl (by simp)
  obtain ⟨-, now, e, s', hsoon, he, hout, hs'⟩ := hends
  rw [hnow] at hsoon
  exact ⟨s, now, e, s', htimeout, hsoon, he, hout, hs'⟩

end Axon
