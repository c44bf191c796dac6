import Axon.PublicationNumbers
import Axon.Wait

/-! # Several streams and the consumers that wait on them

`streamsMachine ι R` runs a publisher for every stream in `ι` and a consumer thread for every element of
`R`. A thread has one subscriber for each stream, attached before the run, and loops over `latest_view` and
`wait_any`; all accesses to the slots interleave freely. `Streams.pub_run` makes a run, seen by one stream,
a run of its publisher.

* **`Publication.counted`**, **`stored`** and **`returned`** are how many frames the notify word counts, the
  slot has held, and calls of `publish` have returned.
* **`Watermark`** is the invariant that relates what a subscriber remembers to these numbers. -/

namespace Axon

open Foundation

/-- The publishers with their slots, and the consumers. -/
structure Streams (ι R : Type) where
  pubs : ι → Publication R
  waiters : R → Waiter ι
  /-- How many frames the notify word of a stream counted when `latest_view` last loaded it. -/
  loaded : R → ι → ℕ

/-- What happens. -/
inductive StreamsEv (ι R : Type)
  | pub (i : ι) (e : PublicationEv R)
  | wait (r : R) (e : WaitEv ι)

/-- An event of the publisher's side, not an access by a consumer. -/
def PublicationEv.ByPublisher {R : Type} : PublicationEv R → Bool
  | .slot (.rd _ _) => false
  | .slot (.raise _) => false
  | _ => true

/-- The event is a `FUTEX_WAKE`. -/
def PublicationEv.IsWake {R : Type} : PublicationEv R → Bool
  | .slot (.pub .wake) => true
  | _ => false

/-- How many publishes are past the given stage of `publish` of the metadata channel. -/
def Publication.passed {R : Type} (s : Publication R) (stage : ℕ) : ℕ :=
  s.prod.pub.published.length - if 1 ≤ s.slot.writer.stage ∧ s.slot.writer.stage < stage then 1 else 0

/-- How many frames have been written into the slot. -/
def Publication.stored {R : Type} (s : Publication R) : ℕ := s.passed 3

/-- How many frames the notify word counts. -/
def Publication.counted {R : Type} (s : Publication R) : ℕ := s.passed 5

/-- How many calls of `TensorPublisher::publish` have returned `0`. -/
def Publication.returned {R : Type} (s : Publication R) : ℕ :=
  match s.phase with
  | .writing _ | .written => s.prod.pub.published.length - 1
  | _ => s.prod.pub.published.length

/-- What an event is to the publisher of stream `i`. -/
def StreamsEv.toPub {ι R : Type} [DecidableEq ι] (i : ι) : StreamsEv ι R → Option (PublicationEv R)
  | .pub j e => if j = i then some e else none
  | .wait r e => (e.access r).bind fun p => if p.1 = i then some (.slot p.2) else none

namespace Streams

variable {ι R : Type} [DecidableEq ι] [DecidableEq R]

/-- The notify words of all streams. -/
def notify (s : Streams ι R) (i : ι) : UInt32 := (s.pubs i).slot.slot.notify

/-- What the notify words counted when they were last loaded, after an event of the consumer `r`. -/
def loadedAfter (s : Streams ι R) (r : R) : WaitEv ι → R → ι → ℕ
  -- `latest_view` loads the word before it reads the slot
  | .viewCall i _ => Function.update s.loaded r (Function.update (s.loaded r) i (s.pubs i).counted)
  | _ => s.loaded

/-- One event. -/
def step (s : Streams ι R) : StreamsEv ι R → Option (Streams ι R)
  | .pub i e =>
      -- the accesses of consumers to the slot are events of `wait`
      if e.ByPublisher then
        ((s.pubs i).step e).map fun p => { s with
          pubs := Function.update s.pubs i p
          waiters := if e.IsWake then fun r => (s.waiters r).woken i else s.waiters }
      else none
  | .wait r e =>
      ((s.waiters r).step s.notify e).bind fun w =>
        match e.access r with
        | none => some { s with waiters := Function.update s.waiters r w }
        | some (i, a) =>
            ((s.pubs i).stepSlot a).map fun p =>
              { pubs := Function.update s.pubs i p
                waiters := Function.update s.waiters r w
                loaded := s.loadedAfter r e }

/-- The events of the streams, with the state after each. -/
inductive StepCase (s : Streams ι R) : StreamsEv ι R → Streams ι R → Prop
  | pub (i : ι) (e : PublicationEv R) (p : Publication R) (hby : e.ByPublisher = true)
      (hwake : e.IsWake = false) (h : (s.pubs i).step e = some p) :
      StepCase s (.pub i e) { s with pubs := Function.update s.pubs i p }
  | wake (i : ι) (p : Publication R) (h : (s.pubs i).step (.slot (.pub .wake)) = some p) :
      StepCase s (.pub i (.slot (.pub .wake))) { s with
        pubs := Function.update s.pubs i p
        waiters := fun r => (s.waiters r).woken i }
  | silent (r : R) (e : WaitEv ι) (w : Waiter ι) (haccess : e.access r = none)
      (h : (s.waiters r).StepCase s.notify e w) :
      StepCase s (.wait r e) { s with waiters := Function.update s.waiters r w }
  | access (r : R) (e : WaitEv ι) (w : Waiter ι) (i : ι) (a : SlotEv R) (p : Publication R)
      (haccess : e.access r = some (i, a)) (h : (s.waiters r).StepCase s.notify e w)
      (hp : (s.pubs i).stepSlot a = some p) : StepCase s (.wait r e)
        { pubs := Function.update s.pubs i p
          waiters := Function.update s.waiters r w
          loaded := s.loadedAfter r e }

/-- **What a step does.** -/
theorem step_cases {s s' : Streams ι R} {e : StreamsEv ι R} (h : s.step e = some s') : s.StepCase e s' := by
  cases e with
  | pub i e =>
      simp only [step] at h
      split_ifs at h with hby hwake
      · obtain ⟨p, hp, rfl⟩ := Option.map_eq_some_iff.mp h
        -- the only wake-up among the events
        obtain rfl : e = .slot (.pub .wake) := by
          unfold PublicationEv.IsWake at hwake
          split at hwake
          · rfl
          · cases hwake
        exact .wake i p hp
      · obtain ⟨p, hp, rfl⟩ := Option.map_eq_some_iff.mp h
        exact .pub i e p hby (Bool.eq_false_iff.mpr hwake) hp
  | wait r e =>
      obtain ⟨w, hw, h⟩ := Option.bind_eq_some_iff.mp h
      split at h
      · rename_i haccess
        cases h
        exact .silent r e w haccess (Waiter.step_cases hw)
      · rename_i i a haccess
        obtain ⟨p, hp, rfl⟩ := Option.map_eq_some_iff.mp h
        exact .access r e w i a p haccess (Waiter.step_cases hw) hp

end Streams

/-- A subscriber that has just attached to a publisher of this build: it has taken no frame yet. -/
structure TensorSubscriber.JustAttached (s : TensorSubscriber) : Prop where
  metadata : s.metadata = some ⟨true⟩
  seenNotify : s.seenNotify = 0
  seenSeqno : s.seenSeqno = 0

/-- **The streams**: every publisher from its creation, every consumer outside its calls with its subscribers
just attached. -/
def streamsMachine (ι R : Type) [DecidableEq ι] [DecidableEq R] :
    Machine (Streams ι R) (StreamsEv ι R) where
  init s := (∀ i, (publicationMachine R).init (s.pubs i)) ∧
    ∀ r, (s.waiters r).phase = .idle ∧ ∀ i, ((s.waiters r).subs i).JustAttached
  step := Streams.step

namespace Streams

variable {ι R : Type} [DecidableEq ι] [DecidableEq R] {tr : List (StreamsEv ι R)} {s s' : Streams ι R}

/-- The events of one of the publishers in a run of the streams. -/
def pubTrace (i : ι) (tr : List (StreamsEv ι R)) : List (PublicationEv R) := tr.filterMap (StreamsEv.toPub i)

/-- An event is one of the publisher of stream `i`, or leaves it alone. -/
theorem pub_of_step (i : ι) {e : StreamsEv ι R} (hs : s.step e = some s') :
    (∃ b, e.toPub i = some b ∧ (s.pubs i).step b = some (s'.pubs i)) ∨
      (e.toPub i = none ∧ s'.pubs i = s.pubs i) := by
  -- updating another publisher leaves this one
  have hother : ∀ (j : ι) (p : Publication R), j ≠ i → Function.update s.pubs j p i = s.pubs i :=
    fun j p hj => Function.update_of_ne hj.symm p s.pubs
  have hsame : ∀ p : Publication R, Function.update s.pubs i p i = p := fun p =>
    Function.update_self i p s.pubs
  cases step_cases hs with
  | pub j e p hby hwake hp =>
      by_cases hj : j = i
      · subst hj
        exact .inl ⟨e, if_pos rfl, hp.trans (congrArg some (hsame p).symm)⟩
      · exact .inr ⟨if_neg hj, hother j p hj⟩
  | wake j p hp =>
      by_cases hj : j = i
      · subst hj
        exact .inl ⟨_, if_pos rfl, hp.trans (congrArg some (hsame p).symm)⟩
      · exact .inr ⟨if_neg hj, hother j p hj⟩
  -- a step that does not touch the slot is no event of a publisher
  | silent r e w haccess hw =>
      refine .inr ⟨?_, rfl⟩
      rw [StreamsEv.toPub, haccess, Option.bind_none]
  | access r e w j a p haccess hw hp =>
      by_cases hj : j = i
      · subst hj
        refine .inl ⟨.slot a, ?_, hp.trans (congrArg some (hsame p).symm)⟩
        rw [StreamsEv.toPub, haccess, Option.bind_some, if_pos rfl]
      · refine .inr ⟨?_, hother j p hj⟩
        rw [StreamsEv.toPub, haccess, Option.bind_some, if_neg hj]

/-- What an event means to the thread `r`: it is the thread's own, it wakes whoever sleeps on a stream, or it
leaves the thread alone. -/
inductive ThreadCase (s : Streams ι R) (r : R) (e : StreamsEv ι R) (s' : Streams ι R) : Prop
  | own (b : WaitEv ι) (he : e = .wait r b) (hw : (s.waiters r).StepCase s.notify b (s'.waiters r))
      (hcall : ∀ i n, b = .viewCall i n → s'.loaded r i = (s.pubs i).counted)
      (hkept : ∀ i, (∀ n, b ≠ .viewCall i n) → s'.loaded r i = s.loaded r i)
  | wake (i : ι) (he : e = .pub i (.slot (.pub .wake))) (hw : s'.waiters r = (s.waiters r).woken i)
      (hloaded : s'.loaded r = s.loaded r)
  | still (hwait : ∀ b, e ≠ .wait r b) (hwake : ∀ i, e ≠ .pub i (.slot (.pub .wake)))
      (hw : s'.waiters r = s.waiters r) (hloaded : s'.loaded r = s.loaded r)

/-- What the notify words counted when another thread loaded them is no concern of `r`. -/
theorem loadedAfter_of_ne (s : Streams ι R) {r r' : R} (h : r ≠ r') (b : WaitEv ι) :
    s.loadedAfter r' b r = s.loaded r := by
  unfold loadedAfter
  split
  · exact Function.update_of_ne h _ _
  · rfl

/-- Only `latest_view` loads a notify word for later. -/
theorem loadedAfter_self (s : Streams ι R) (r : R) (b : WaitEv ι) (i : ι) :
    (∀ n, b = .viewCall i n → s.loadedAfter r b r i = (s.pubs i).counted) ∧
      ((∀ n, b ≠ .viewCall i n) → s.loadedAfter r b r i = s.loaded r i) := by
  refine ⟨?_, fun hb => ?_⟩
  · rintro n rfl
    rw [loadedAfter, Function.update_self, Function.update_self]
  · unfold loadedAfter
    split
    · rename_i j n
      have hj : i ≠ j := fun hj => hb n (hj ▸ rfl)
      rw [Function.update_self, Function.update_of_ne hj]
    · rfl

/-- **What a step does to one thread.** -/
theorem thread_of_step (r : R) {e : StreamsEv ι R} (hs : s.step e = some s') : s.ThreadCase r e s' := by
  cases step_cases hs with
  | pub j b p hby hwake hp =>
      refine .still nofun ?_ rfl rfl
      -- a wake-up is the other case
      rintro i ⟨⟩
      cases hwake
  | wake j p hp => exact .wake j rfl rfl rfl
  | silent r' b w haccess hw =>
      by_cases hr : r = r'
      · -- the own event, without an access to a slot
        subst hr
        refine .own b rfl ?_ ?_ fun _ _ => rfl
        · show (s.waiters r).StepCase s.notify b (Function.update s.waiters r w r)
          rw [Function.update_self]
          exact hw
        · -- `latest_view` does access the slot
          rintro i n rfl
          cases haccess
      · refine .still ?_ nofun (Function.update_of_ne hr w s.waiters) rfl
        rintro b' ⟨⟩
        exact hr rfl
  | access r' b w j a p haccess hw hp =>
      by_cases hr : r = r'
      · subst hr
        refine .own b rfl ?_ (fun i => (s.loadedAfter_self r b i).1) fun i => (s.loadedAfter_self r b i).2
        show (s.waiters r).StepCase s.notify b (Function.update s.waiters r w r)
        rw [Function.update_self]
        exact hw
      · refine .still ?_ nofun (Function.update_of_ne hr w s.waiters) (s.loadedAfter_of_ne hr b)
        rintro b' ⟨⟩
        exact hr rfl

/-- **A run, seen by one stream, is a run of its publisher.** -/
theorem pub_run (i : ι) (h : (streamsMachine ι R).Run tr s) :
    (publicationMachine R).Run (pubTrace i tr) (s.pubs i) := by
  refine Machine.Run.project (M := streamsMachine ι R) (N := publicationMachine R) (f := fun s => s.pubs i)
    (g := StreamsEv.toPub i) (fun s hs => hs.1 i) ?_ h
  intro s e s' hs
  obtain ⟨b, hb, hstep⟩ | ⟨hnone, hsame⟩ := pub_of_step i hs
  · rw [hb]
    exact hstep
  · rw [hnone]
    exact hsame

end Streams

end Axon
