import Axon.Foundation.Timespec
import Axon.Rt.Sysfs
import Axon.WaitWatermark

/-! # Waiting with a timeout

`wait_any` computes its deadline once and asks the clock after each pass over its streams. `timedMachine` puts
the clock beside the streams and their consumers: every `wait_any` keeps the locals of the source
(`WaitCall`), sleeps in `futex_waitv` until the deadline at most, and returns a stream or an `errno`.

* **`TimedStreams.streams_run`**: without the clock, a run is one of the streams, so what holds of those holds
  here.
* **`TimedStreams.own_of_step`** and **`other_of_step`** tell what an event means to one thread. -/

namespace Axon

open Foundation
open Rt (ErrNo EINVAL)

/-! ## The deadline -/

/-- A signal has come in. -/
def EINTR : ErrNo := 4

/-- The word has changed already. -/
def EAGAIN : ErrNo := 11

/-- The kernel does not know the call. -/
def ENOSYS : ErrNo := 38

/-- The deadline has passed. -/
def ETIMEDOUT : ErrNo := 110

/-- **`deadline_after`**, when the clock shows `now`. -/
def deadlineAfter (now : Timespec) (timeoutMs : Int32) : Timespec :=
  let sec := now.tvSec + timeoutMs.toInt.tdiv 1000
  let nsec := now.tvNsec + timeoutMs.toInt.tmod 1000 * 1000000
  if 1000000000 ≤ nsec then ⟨sec + 1, nsec - 1000000000⟩ else ⟨sec, nsec⟩

/-- **`past`**, when the clock shows `now`. -/
def past (d now : Timespec) : Bool :=
  decide (d.tvSec < now.tvSec ∨ (now.tvSec = d.tvSec ∧ d.tvNsec ≤ now.tvNsec))

/-- The deadline is the timeout away, to the nanosecond. -/
theorem deadlineAfter_ns (now : Timespec) (timeoutMs : Int32) :
    (deadlineAfter now timeoutMs).ns = now.ns + timeoutMs.toInt * 1000000 := by
  have hsplit := Int.tdiv_mul_add_tmod timeoutMs.toInt 1000
  unfold deadlineAfter
  dsimp only
  split_ifs <;> simp only [Timespec.ns] <;> omega

/-- A timeout that is not negative makes a deadline that the kernel takes. -/
theorem deadlineAfter_normal {now : Timespec} (h : now.Normal) {timeoutMs : Int32}
    (hms : 0 ≤ timeoutMs.toInt) : (deadlineAfter now timeoutMs).Normal := by
  have hlt := Int.tmod_lt_of_pos timeoutMs.toInt (by omega : (0 : ℤ) < 1000)
  have hnonneg := Int.tmod_nonneg 1000 hms
  obtain ⟨hnow0, hnow1⟩ := h
  unfold deadlineAfter
  dsimp only
  split_ifs with hcarry
  · exact ⟨by dsimp only; omega, by dsimp only; omega⟩
  · exact ⟨by dsimp only; omega, by dsimp only; omega⟩

/-- The comparison is one of times. -/
theorem past_iff {d now : Timespec} (hd : d.Normal) (hnow : now.Normal) : past d now = true ↔ d.ns ≤ now.ns := by
  rw [past, decide_eq_true_eq, Timespec.le_iff_lex hd hnow]

/-! ## A call of `wait_any` -/

/-- What `wait_any` returns: the index of a stream that has an update, or `-1` with `errno` set. -/
inductive WaitResult (ι : Type)
  | update (i : ι)
  | failed (errno : ErrNo)
  deriving DecidableEq

/-- **`wait_for_update`**: what it makes of the result for its one stream. -/
def waitForUpdate {ι : Type} : WaitResult ι → Int32
  | .update _ => 1
  | .failed errno => if errno = ETIMEDOUT then 0 else -1

/-- The arguments and locals of the call of `wait_any` that a thread made last. -/
structure WaitCall (ι : Type) where
  subs : List ι
  timeoutMs : Int32
  /-- What the clock showed when the deadline was computed. -/
  begun : Timespec
  deadline : Timespec
  /-- In this pass, `past(deadline)` has been asked at this time and has said no. -/
  asked : Option Timespec
  /-- How many pauses of the polling loop have gone by without a signal. -/
  naps : ℕ
  /-- How many calls of `publish` had returned, on each stream, when the pass began. -/
  published : ι → ℕ
  returned : Option (WaitResult ι)

/-- The deadline of a call counts, and has passed. -/
def WaitCall.TimeUp {ι : Type} (c : WaitCall ι) (now : Timespec) : Prop :=
  0 ≤ c.timeoutMs.toInt ∧ past c.deadline now = true

/-- Whether the time is up is a comparison of times. -/
instance {ι : Type} (c : WaitCall ι) (now : Timespec) : Decidable (c.TimeUp now) :=
  inferInstanceAs (Decidable (_ ∧ _))

/-- `wait_any` with valid arguments, up to its loop. -/
def WaitCall.begin {ι : Type} (subs : List ι) (timeoutMs : Int32) (now : Timespec) : WaitCall ι where
  subs := subs
  timeoutMs := timeoutMs
  begun := now
  deadline := deadlineAfter now (if timeoutMs < 0 then 0 else timeoutMs)
  asked := none
  naps := 0
  published _ := 0
  returned := none

/-- The streams have not been raised or checked yet in this pass. -/
def WaiterPhase.beginsPass {ι : Type} [DecidableEq ι] : WaiterPhase ι → Bool
  | .raising ws todo => decide (todo = ws)
  | .checking false ws todo => decide (todo = ws)
  | _ => false

/-- The streams, the consumers on them and the clock. -/
structure TimedStreams (ι R : Type) where
  streams : Streams ι R
  calls : R → WaitCall ι
  /-- `CLOCK_MONOTONIC`. -/
  now : Timespec

/-- What happens. -/
inductive TimedEv (ι R : Type)
  /-- Time goes by. -/
  | tick (now : Timespec)
  | pub (i : ι) (e : PublicationEv R)
  /-- A step of a consumer that has nothing to do with the clock. -/
  | thread (r : R) (e : WaitEv ι)
  /-- `wait_any` refuses its arguments. -/
  | refuse (r : R) (subs : List ι) (timeoutMs : Int32)
  | waitAny (r : R) (subs : List ι) (timeoutMs : Int32)
  /-- `timeout_ms >= 0 && past(deadline)` is false. -/
  | timeLeft (r : R)
  /-- It is true, and `wait_any` returns `-1`. -/
  | timeUp (r : R)
  /-- The call of `futex_waitv`: the thread sleeps, or a word has moved. -/
  | waitv (r : R)
  /-- `futex_waitv` returns to the sleeper with an error. -/
  | waitvReturns (r : R) (errno : ErrNo)
  /-- `futex_waitv` fails at once, for another reason than a word that has moved. -/
  | waitvFails (r : R) (errno : ErrNo)
  /-- The pause of the polling loop ends, before its time if there is a signal. -/
  | nanosleep (r : R) (signal : Bool)
  /-- `wait_any` returns the stream that has an update. -/
  | ret (r : R) (i : ι)

/-- The steps of a thread that do not depend on the clock, and are in no other event. -/
def WaitEv.clockless {ι : Type} : WaitEv ι → Bool
  | .waitCall _ => false
  | .sleep => false
  | .interrupt => false
  | .noWaitv => false
  | .nap => false
  | .giveUp => false
  | .ret => false
  | _ => true

/-- What an event is to the streams. -/
def TimedEv.base {ι R : Type} : TimedEv ι R → Option (StreamsEv ι R)
  | .tick _ => none
  | .pub i e => some (.pub i e)
  | .thread r e => some (.wait r e)
  | .refuse _ _ _ => none
  | .waitAny r subs _ => some (.wait r (.waitCall subs))
  | .timeLeft _ => none
  | .timeUp r => some (.wait r .giveUp)
  | .waitv r => some (.wait r .sleep)
  | .waitvReturns r _ => some (.wait r .interrupt)
  -- without the system call the loop goes on polling; any other error ends it
  | .waitvFails r errno => some (.wait r (if errno = ENOSYS then .noWaitv else .giveUp))
  | .nanosleep r _ => some (.wait r .nap)
  | .ret r _ => some (.wait r .ret)

namespace TimedStreams

variable {ι R : Type} [DecidableEq ι] [DecidableEq R]

/-- Where the thread is in its call. -/
def phase (s : TimedStreams ι R) (r : R) : WaiterPhase ι := (s.streams.waiters r).phase

/-- The pass over the streams has found no update. -/
def Checked (s : TimedStreams ι R) (r : R) : Bool :=
  match s.phase r with
  | .checked _ _ => true
  | _ => false

/-- The same on the futex path. -/
def CheckedFutexes (s : TimedStreams ι R) (r : R) : Bool :=
  match s.phase r with
  | .checked futexes _ => futexes
  | _ => false

/-- When an event can happen, as far as the streams do not say so themselves. -/
def Can (s : TimedStreams ι R) : TimedEv ι R → Prop
  | .tick now => now.Normal ∧ s.now.ns ≤ now.ns
  | .pub _ _ => True
  | .thread _ e => e.clockless = true
  | .refuse r subs _ =>
      s.phase r = .idle ∧ (subs = [] ∨ ∃ i ∈ subs, ((s.streams.waiters r).subs i).metadata = none)
  | .waitAny r subs _ => subs ≠ [] ∧ ∀ i ∈ subs, ((s.streams.waiters r).subs i).metadata ≠ none
  | .timeLeft r => s.Checked r = true ∧ (s.calls r).asked = none ∧ ¬ (s.calls r).TimeUp s.now
  | .timeUp r => (s.calls r).asked = none ∧ (s.calls r).TimeUp s.now
  | .waitv r => (s.calls r).asked ≠ none
  -- the kernel is given the deadline, or none when `timeout_ms` is negative
  | .waitvReturns r errno => errno = EINTR ∨ (errno = ETIMEDOUT ∧ (s.calls r).TimeUp s.now)
  | .waitvFails r errno =>
      s.CheckedFutexes r = true ∧ (s.calls r).asked ≠ none ∧ errno ≠ EAGAIN ∧ errno ≠ EINTR ∧ errno ≠ ETIMEDOUT
  | .nanosleep r signal => ∃ t ∈ (s.calls r).asked, signal = true ∨ t.ns + 100000 ≤ s.now.ns
  | .ret r i => s.phase r = .reported i

/-- Whether an event can happen can be read off the state. -/
instance (s : TimedStreams ι R) : (e : TimedEv ι R) → Decidable (s.Can e)
  | .tick now => inferInstanceAs (Decidable (now.Normal ∧ _))
  | .pub _ _ => isTrue trivial
  | .thread _ e => inferInstanceAs (Decidable (e.clockless = true))
  | .refuse _ _ _ => inferInstanceAs (Decidable (_ ∧ _))
  | .waitAny _ _ _ => inferInstanceAs (Decidable (_ ∧ _))
  | .timeLeft _ => inferInstanceAs (Decidable (_ ∧ _))
  | .timeUp _ => inferInstanceAs (Decidable (_ ∧ _))
  | .waitv _ => inferInstanceAs (Decidable (_ ≠ _))
  | .waitvReturns _ _ => inferInstanceAs (Decidable (_ ∨ _))
  | .waitvFails _ _ => inferInstanceAs (Decidable (_ ∧ _))
  | .nanosleep r _ => inferInstanceAs (Decidable (∃ t ∈ (s.calls r).asked, _))
  | .ret _ _ => inferInstanceAs (Decidable (_ = _))

/-- The locals of the thread that an event belongs to, after it. -/
def callAfter (s : TimedStreams ι R) : TimedEv ι R → Option (R × WaitCall ι)
  | .tick _ => none
  | .pub _ _ => none
  | .thread _ _ => none
  | .refuse r subs timeoutMs =>
      some (r, { WaitCall.begin subs timeoutMs s.now with returned := some (.failed EINVAL) })
  | .waitAny r subs timeoutMs => some (r, .begin subs timeoutMs s.now)
  | .timeLeft r => some (r, { s.calls r with asked := some s.now })
  | .timeUp r => some (r, { s.calls r with returned := some (.failed ETIMEDOUT) })
  | .waitv r => some (r, { s.calls r with asked := none })
  | .waitvReturns _ _ => none
  | .waitvFails r errno =>
      if errno = ENOSYS then some (r, { s.calls r with asked := none })
      else some (r, { s.calls r with returned := some (.failed errno) })
  | .nanosleep r signal =>
      some (r, { s.calls r with
        asked := none
        naps := if signal then (s.calls r).naps else (s.calls r).naps + 1 })
  | .ret r i => some (r, { s.calls r with returned := some (.update i) })

/-- The locals of a thread after an event. -/
def callOf (s : TimedStreams ι R) (e : TimedEv ι R) (r : R) : WaitCall ι :=
  match s.callAfter e with
  | some (r', c) => if r = r' then c else s.calls r
  | none => s.calls r

/-- A thread about to begin a pass takes note of the publishes that have returned. -/
def noted (t : Streams ι R) (phase : WaiterPhase ι) (c : WaitCall ι) : WaitCall ι :=
  if phase.beginsPass then { c with published := fun i => (t.pubs i).returned } else c

/-- The time after an event. -/
def nowAfter (s : TimedStreams ι R) : TimedEv ι R → Timespec
  | .tick now => now
  | _ => s.now

/-- The state after an event that takes the streams to `t`. -/
def after (s : TimedStreams ι R) (e : TimedEv ι R) (t : Streams ι R) : TimedStreams ι R where
  streams := t
  calls r := noted t (t.waiters r).phase (s.callOf e r)
  now := s.nowAfter e

/-- One event. -/
def step (s : TimedStreams ι R) (e : TimedEv ι R) : Option (TimedStreams ι R) :=
  if s.Can e then
    match e.base with
    | some b => (s.streams.step b).map (s.after e)
    | none => some (s.after e s.streams)
  else none

end TimedStreams

/-- **The streams with a clock**, before the first call of `wait_any`. -/
def timedMachine (ι R : Type) [DecidableEq ι] [DecidableEq R] :
    Machine (TimedStreams ι R) (TimedEv ι R) where
  init s := (streamsMachine ι R).init s.streams ∧ s.now.Normal ∧ ∀ r, s.calls r = .begin [] 0 s.now
  step := TimedStreams.step

/-- The thread that an event belongs to. -/
def TimedEv.thread? {ι R : Type} : TimedEv ι R → Option R
  | .tick _ => none
  | .pub _ _ => none
  | .thread r _ => some r
  | .refuse r _ _ => some r
  | .waitAny r _ _ => some r
  | .timeLeft r => some r
  | .timeUp r => some r
  | .waitv r => some r
  | .waitvReturns r _ => some r
  | .waitvFails r _ => some r
  | .nanosleep r _ => some r
  | .ret r _ => some r

namespace TimedStreams

variable {ι R : Type} [DecidableEq ι] [DecidableEq R] {tr : List (TimedEv ι R)} {s s' : TimedStreams ι R}
  {e : TimedEv ι R}

/-- What a step is: an event of the streams, or none, and what it leaves in the locals. -/
theorem step_eq (hs : s.step e = some s') : s.Can e ∧ s' = s.after e s'.streams ∧
    match e.base with
    | some b => s.streams.step b = some s'.streams
    | none => s'.streams = s.streams := by
  unfold step at hs
  split_ifs at hs with hcan
  refine ⟨hcan, ?_⟩
  split at hs
  · obtain ⟨t, ht, rfl⟩ := Option.map_eq_some_iff.mp hs
    exact ⟨rfl, ht⟩
  · cases hs
    exact ⟨rfl, rfl⟩

/-- **A run, without the clock, is one of the streams.** -/
theorem streams_run (h : (timedMachine ι R).Run tr s) :
    (streamsMachine ι R).Run (tr.filterMap TimedEv.base) s.streams := by
  refine Machine.Run.project (M := timedMachine ι R) (N := streamsMachine ι R) (f := TimedStreams.streams)
    (g := TimedEv.base) (fun s hs => hs.1) (fun s e s' hs => ?_) h
  have hbase := (step_eq hs).2.2
  cases hb : e.base with
  | none =>
      rw [hb] at hbase
      exact hbase
  | some b =>
      rw [hb] at hbase
      exact hbase

/-! ## What a step means to one thread -/

/-- The subscribers and the phase of a thread, and its locals, after an event of its own. -/
inductive OwnCase (s : TimedStreams ι R) (r : R) : TimedEv ι R → Waiter ι → WaitCall ι → Prop
  | thread (b : WaitEv ι) (w : Waiter ι) (hb : b.clockless = true)
      (hw : (s.streams.waiters r).StepCase s.streams.notify b w) : OwnCase s r (.thread r b) w (s.calls r)
  | refuse (subs : List ι) (timeoutMs : Int32) (h : s.phase r = .idle) :
      OwnCase s r (.refuse r subs timeoutMs) (s.streams.waiters r)
        { WaitCall.begin subs timeoutMs s.now with returned := some (.failed EINVAL) }
  | waitAny (subs : List ι) (timeoutMs : Int32) (w : Waiter ι) (hsubs : subs ≠ [])
      (hw : (s.streams.waiters r).StepCase s.streams.notify (.waitCall subs) w) :
      OwnCase s r (.waitAny r subs timeoutMs) w (.begin subs timeoutMs s.now)
  | timeLeft (futexes : Bool) (ws : List ι) (h : s.phase r = .checked futexes ws)
      (hasked : (s.calls r).asked = none) (hup : ¬ (s.calls r).TimeUp s.now) :
      OwnCase s r (.timeLeft r) (s.streams.waiters r) { s.calls r with asked := some s.now }
  | timeUp (futexes : Bool) (ws : List ι) (h : s.phase r = .checked futexes ws)
      (hasked : (s.calls r).asked = none) (hup : (s.calls r).TimeUp s.now) :
      OwnCase s r (.timeUp r) { s.streams.waiters r with phase := .idle }
        { s.calls r with returned := some (.failed ETIMEDOUT) }
  | sleep (ws : List ι) (h : s.phase r = .checked true ws) (hasked : (s.calls r).asked ≠ none) :
      OwnCase s r (.waitv r) { s.streams.waiters r with phase := .asleep ws } { s.calls r with asked := none }
  | again (ws : List ι) (h : s.phase r = .checked true ws) (hasked : (s.calls r).asked ≠ none) :
      OwnCase s r (.waitv r) { s.streams.waiters r with phase := .raising ws ws } { s.calls r with asked := none }
  | waitvReturns (errno : ErrNo) (ws : List ι) (h : s.phase r = .asleep ws)
      (herrno : errno = EINTR ∨ (errno = ETIMEDOUT ∧ (s.calls r).TimeUp s.now)) :
      OwnCase s r (.waitvReturns r errno) { s.streams.waiters r with phase := .raising ws ws } (s.calls r)
  | noWaitv (ws : List ι) (h : s.phase r = .checked true ws) (hasked : (s.calls r).asked ≠ none) :
      OwnCase s r (.waitvFails r ENOSYS) { s.streams.waiters r with phase := .checking false ws ws }
        { s.calls r with asked := none }
  | waitvFails (errno : ErrNo) (ws : List ι) (h : s.phase r = .checked true ws)
      (hasked : (s.calls r).asked ≠ none) (hne : errno ≠ ENOSYS) (hno : errno ≠ EAGAIN ∧ errno ≠ EINTR ∧
        errno ≠ ETIMEDOUT) :
      OwnCase s r (.waitvFails r errno) { s.streams.waiters r with phase := .idle }
        { s.calls r with returned := some (.failed errno) }
  | nanosleep (signal : Bool) (ws : List ι) (t : Timespec) (h : s.phase r = .checked false ws)
      (hasked : (s.calls r).asked = some t) (ht : signal = true ∨ t.ns + 100000 ≤ s.now.ns) :
      OwnCase s r (.nanosleep r signal) { s.streams.waiters r with phase := .checking false ws ws }
        { s.calls r with
          asked := none
          naps := if signal then (s.calls r).naps else (s.calls r).naps + 1 }
  | ret (i : ι) (h : s.phase r = .reported i) :
      OwnCase s r (.ret r i) { s.streams.waiters r with phase := .idle }
        { s.calls r with returned := some (.update i) }

/-- An event of the streams that a thread makes is a step of the thread. -/
theorem waiter_of_base {r : R} {b : WaitEv ι} {t : Streams ι R} (hs : s.streams.step (.wait r b) = some t) :
    (s.streams.waiters r).StepCase s.streams.notify b (t.waiters r) := by
  cases Streams.thread_of_step r hs with
  | own b' he hw hcall hkept =>
      cases he
      exact hw
  | wake i he => cases he
  | still hwait => exact absurd rfl (hwait b)

/-- The locals after a step. -/
theorem calls_of_step (hs : s.step e = some s') (r : R) :
    s'.calls r = noted s'.streams (s'.phase r) (s.callOf e r) :=
  congrFun (congrArg TimedStreams.calls (step_eq hs).2.1) r

/-- **An event of the thread `r`.** -/
theorem own_of_step {r : R} (hs : s.step e = some s') (hr : e.thread? = some r) :
    s.OwnCase r e (s'.streams.waiters r) (s.callOf e r) := by
  obtain ⟨hcan, -, hbase⟩ := step_eq hs
  -- events of the thread, each with the step of the loop it stands for
  cases e with
  | tick now => cases hr
  | pub i e => cases hr
  | thread r' b =>
      cases hr
      exact .thread b _ hcan (waiter_of_base hbase)
  | refuse r' subs timeoutMs =>
      cases hr
      change s'.streams = s.streams at hbase
      simp only [hbase, callOf, callAfter, ↓reduceIte]
      exact .refuse subs timeoutMs hcan.1
  | waitAny r' subs timeoutMs =>
      cases hr
      simp only [callOf, callAfter, ↓reduceIte]
      exact .waitAny subs timeoutMs _ hcan.1 (waiter_of_base hbase)
  | timeLeft r' =>
      cases hr
      change s'.streams = s.streams at hbase
      obtain ⟨hchecked, hasked, hup⟩ := hcan
      simp only [hbase, callOf, callAfter, ↓reduceIte]
      unfold Checked at hchecked
      -- the look at the clock stands for a pass that found nothing
      split at hchecked
      · rename_i futexes ws hphase
        exact .timeLeft futexes ws hphase hasked hup
      · cases hchecked
  | timeUp r' =>
      cases hr
      simp only [callOf, callAfter, ↓reduceIte]
      have hw := waiter_of_base hbase
      generalize s'.streams.waiters r = w at hw
      cases hw with
      | giveUp futexes ws hphase => exact .timeUp futexes ws hphase hcan.1 hcan.2
  | waitv r' =>
      cases hr
      simp only [callOf, callAfter, ↓reduceIte]
      have hw := waiter_of_base hbase
      generalize s'.streams.waiters r = w at hw
      cases hw with
      | sleep ws hphase hsame => exact .sleep ws hphase hcan
      | again ws hphase => exact .again ws hphase hcan
  | waitvReturns r' errno =>
      cases hr
      have hw := waiter_of_base hbase
      generalize s'.streams.waiters r = w at hw
      cases hw with
      | interrupt ws hphase => exact .waitvReturns errno ws hphase hcan
  | waitvFails r' errno =>
      cases hr
      obtain ⟨hfutexes, hasked, hno⟩ := hcan
      have hw := waiter_of_base hbase
      generalize s'.streams.waiters r = w at hw
      -- without `futex_waitv` the loop goes on polling; any other error ends the call
      by_cases hnosys : errno = ENOSYS
      · subst hnosys
        simp only [callOf, callAfter, ↓reduceIte]
        rw [if_pos rfl] at hw
        cases hw with
        | noWaitv ws hphase => exact .noWaitv ws hphase hasked
      · simp only [callOf, callAfter, if_neg hnosys, ↓reduceIte]
        rw [if_neg hnosys] at hw
        cases hw with
        | giveUp futexes ws hphase =>
            have hphase' : s.phase r = .checked futexes ws := hphase
            rw [CheckedFutexes, hphase'] at hfutexes
            subst hfutexes
            exact .waitvFails errno ws hphase hasked hnosys hno
  | nanosleep r' signal =>
      cases hr
      obtain ⟨t, hasked, ht⟩ := hcan
      simp only [callOf, callAfter, ↓reduceIte]
      have hw := waiter_of_base hbase
      generalize s'.streams.waiters r = w at hw
      cases hw with
      | nap ws hphase => exact .nanosleep signal ws t hphase hasked ht
  | ret r' i =>
      cases hr
      simp only [callOf, callAfter, ↓reduceIte]
      have hw := waiter_of_base hbase
      generalize s'.streams.waiters r = w at hw
      cases hw with
      | ret j hphase => exact .ret i hcan

/-- **An event that is not of the thread `r`** leaves its locals alone, and wakes it if it sleeps on the stream. -/
theorem other_of_step {r : R} (hs : s.step e = some s') (hr : e.thread? ≠ some r) :
    s.callOf e r = s.calls r ∧ (s'.streams.waiters r = s.streams.waiters r ∨
      ∃ i, s'.streams.waiters r = (s.streams.waiters r).woken i) := by
  obtain ⟨-, -, hbase⟩ := step_eq hs
  refine ⟨?_, ?_⟩
  -- what the call remembers changes with its own events only
  · unfold callOf
    split
    · rename_i r' c hc
      refine if_neg fun h => hr ?_
      subst h
      cases e with
      | waitvFails r' errno =>
          rw [callAfter] at hc
          split_ifs at hc <;> cases hc <;> rfl
      | _ => cases hc <;> rfl
    · rfl
  -- another thread may wake it up, but does nothing else to it
  · cases hb : e.base with
    | none =>
        rw [hb] at hbase
        exact .inl (congrArg (fun t => Streams.waiters t r) hbase)
    | some b =>
        rw [hb] at hbase
        cases Streams.thread_of_step r hbase with
        | own b' he hw hcall hkept =>
            refine absurd ?_ hr
            subst he
            cases e <;> cases hb <;> rfl
        | wake i he hw hloaded => exact .inr ⟨i, hw⟩
        | still hwait hwake hw hloaded => exact .inl hw

end TimedStreams

end Axon
