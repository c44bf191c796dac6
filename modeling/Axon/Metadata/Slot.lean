import Axon.Descriptor
import Axon.Foundation.Machine
import Mathlib.Logic.Function.Basic

/-! # The metadata slot and the steps of its two operations

`SeqlockMetadataChannel` shares one `MetadataSlot` between a writer and any number of readers. Both
operations are modelled one memory access at a time, so that a machine over the slot interleaves
them freely:

* **`publishStep`**: the accesses of `publish(desc)`. The descriptor is copied word by word, in any
  order.
* **`readStep`**: the accesses of `read_latest(out, maxRetry, retries_out)`, whose copy is made word
  by word as well.
* **`slotMachine R`**: one writer and a reader for every element of `R`, under sequentially
  consistent memory. -/

namespace Axon

open TensorDescriptor (Word WordIdx)

/-- Shared memory of the seqlock backend. `guard` is odd while a write is in progress. -/
structure MetadataSlot where
  guard : UInt64
  wireVersion : UInt32
  /-- `0` until the first publish lands. -/
  ready : UInt32
  desc : ∀ i, Word i
  /-- Bumped after every publish; a process-shared futex. -/
  notify : UInt32
  /-- `1` when a consumer may be asleep on `notify`. -/
  waiters : UInt32

/-- The slot as `create_publisher` leaves it. -/
def MetadataSlot.createPublisher : MetadataSlot where
  guard := 0
  wireVersion := kWireVersion
  ready := 0
  desc := (default : TensorDescriptor).words
  notify := 0
  waiters := 0

/-! ## The writer -/

/-- Where the writer stands inside `publish`. -/
inductive PublishPc
  /-- No call is running. -/
  | idle
  /-- The guard has been loaded into `g`. -/
  | loaded (d : TensorDescriptor) (g : UInt64)
  /-- The guard holds `g + 1`; the words in `todo` are still to be copied. -/
  | copying (d : TensorDescriptor) (g : UInt64) (todo : List WordIdx)
  /-- The guard holds `g + 2`. -/
  | released
  /-- `ready` has been set. -/
  | readied
  /-- `notify` has been bumped. -/
  | notified
  /-- The waiter flag has been exchanged for `0`; `wake` is set when it was raised. -/
  | taken (wake : Bool)

/-- The memory accesses of `publish`, with its call and its return. -/
inductive PublishEv
  /-- Enter `publish(d)` and load the guard. -/
  | call (d : TensorDescriptor)
  /-- Store `g + 1` into the guard. -/
  | storeOdd
  /-- Copy one word of the descriptor. -/
  | copyWord (i : WordIdx)
  /-- Store `g + 2` into the guard. -/
  | storeEven
  /-- Store `1` into `ready`. -/
  | setReady
  /-- `notify.fetch_add(1)`. -/
  | bumpNotify
  /-- `waiters.exchange(0)`. -/
  | takeWaiters
  /-- `FUTEX_WAKE` on `notify`. -/
  | wake
  /-- Return. -/
  | ret
  deriving DecidableEq

/-- One access of `publish`. -/
def publishStep (m : MetadataSlot) : PublishPc → PublishEv → Option (MetadataSlot × PublishPc)
  | .idle, .call d => some (m, .loaded d m.guard)
  | .loaded d g, .storeOdd => some ({ m with guard := g + 1 }, .copying d g WordIdx.all)
  | .copying d g todo, .copyWord i =>
      if i ∈ todo then
        some ({ m with desc := Function.update m.desc i (d.words i) },
          .copying d g (todo.filter (· ≠ i)))
      else none
  | .copying _ g [], .storeEven => some ({ m with guard := g + 2 }, .released)
  | .released, .setReady => some ({ m with ready := 1 }, .readied)
  | .readied, .bumpNotify => some ({ m with notify := m.notify + 1 }, .notified)
  | .notified, .takeWaiters => some ({ m with waiters := 0 }, .taken (decide (m.waiters ≠ 0)))
  | .taken true, .wake => some (m, .taken false)
  | .taken false, .ret => some (m, .idle)
  | _, _ => none

/-! ## A reader -/

/-- Where a reader stands inside `read_latest`. -/
inductive ReadPc
  /-- No call is running. -/
  | idle
  /-- The call has begun, `ready` has not been looked at yet. -/
  | called (maxRetry : ℤ)
  /-- At the head of the retry loop. -/
  | attempt (maxRetry : ℤ) (retry : ℕ)
  /-- The guard was even and has been loaded into `before`; the words in `todo` are still to be copied
  into `tmp`. -/
  | copying (maxRetry : ℤ) (retry : ℕ) (before : UInt64) (todo : List WordIdx) (tmp : ∀ i, Word i)
  /-- About to return: `res` is `*out` when the call returns true. -/
  | done (res : Option TensorDescriptor) (retries : ℕ)

/-- The memory accesses of `read_latest`, with its call and its return. -/
inductive ReadEv
  | call (maxRetry : ℤ)
  /-- Test `ready`. -/
  | look
  /-- First load of the guard in an attempt. -/
  | loadBefore
  /-- Copy one word of the descriptor. -/
  | copyWord (i : WordIdx)
  /-- Second load of the guard in an attempt. -/
  | loadAfter
  | ret (res : Option TensorDescriptor) (retries : ℕ)
  deriving DecidableEq

/-- After a failed attempt: the next one, or return false when `maxRetry` is exceeded. -/
def ReadPc.nextAttempt (maxRetry : ℤ) (retry : ℕ) : ReadPc :=
  if ((retry + 1 : ℕ) : ℤ) ≤ maxRetry then .attempt maxRetry (retry + 1) else .done none retry

/-- A read goes on or returns. -/
theorem ReadPc.nextAttempt_ne_idle (maxRetry : ℤ) (retry : ℕ) :
    ReadPc.nextAttempt maxRetry retry ≠ .idle := by
  unfold ReadPc.nextAttempt
  split_ifs <;> exact nofun

/-- One access of `read_latest`. -/
def readStep (m : MetadataSlot) : ReadPc → ReadEv → Option ReadPc
  | .idle, .call maxRetry => some (.called maxRetry)
  | .called maxRetry, .look =>
      if m.ready = 0 then some (.done none 0)
      else if 0 ≤ maxRetry then some (.attempt maxRetry 0)
      else some (.done none 0)
  | .attempt maxRetry retry, .loadBefore =>
      if m.guard &&& 1 ≠ 0 then some (.nextAttempt maxRetry retry)
      else some (.copying maxRetry retry m.guard WordIdx.all (default : TensorDescriptor).words)
  | .copying maxRetry retry before todo tmp, .copyWord i =>
      if i ∈ todo then
        some (.copying maxRetry retry before (todo.filter (· ≠ i)) (Function.update tmp i (m.desc i)))
      else none
  | .copying maxRetry retry before [] tmp, .loadAfter =>
      if before = m.guard then some (.done (some (.ofWords tmp)) retry)
      else some (.nextAttempt maxRetry retry)
  | .done res retries, .ret res' retries' =>
      if res' = res ∧ retries' = retries then some .idle else none
  | _, _ => none

/-! ## The slot under interleaving -/

/-- The slot with the program counters of its writer and of its readers. -/
structure SlotState (R : Type) where
  slot : MetadataSlot
  writer : PublishPc
  readers : R → ReadPc

/-- One access to the slot by the writer or by a reader. -/
inductive SlotEv (R : Type)
  | pub (e : PublishEv)
  | rd (r : R) (e : ReadEv)
  /-- A consumer stores `1` into `waiters`. -/
  | raise (r : R)
  deriving DecidableEq

variable {R : Type} [DecidableEq R]

/-- One access to the slot. -/
def SlotState.step (s : SlotState R) : SlotEv R → Option (SlotState R)
  | .pub e => (publishStep s.slot s.writer e).map fun p => { s with slot := p.1, writer := p.2 }
  | .rd r e =>
      (readStep s.slot (s.readers r) e).map fun p => { s with readers := Function.update s.readers r p }
  | .raise _ => some { s with slot := { s.slot with waiters := 1 } }

/-- The slot before the first publish, nobody inside a call. -/
def SlotState.initial : SlotState R where
  slot := .createPublisher
  writer := .idle
  readers := fun _ => .idle

/-- **The slot machine**: one writer, a reader for every element of `R`. -/
def slotMachine (R : Type) [DecidableEq R] : Foundation.Machine (SlotState R) (SlotEv R) where
  init s := s = .initial
  step := SlotState.step

/-! ## What one access does

The inversion lemmas of `publishStep` and `readStep`, as inductive predicates with a constructor per
access. -/

/-- The accesses of `publish`, with the slot and program counter after each. -/
inductive PublishCase (m : MetadataSlot) :
    PublishPc → PublishEv → MetadataSlot → PublishPc → Prop
  | call (d : TensorDescriptor) : PublishCase m .idle (.call d) m (.loaded d m.guard)
  | storeOdd (d : TensorDescriptor) (g : UInt64) :
      PublishCase m (.loaded d g) .storeOdd { m with guard := g + 1 } (.copying d g WordIdx.all)
  | copyWord (d : TensorDescriptor) (g : UInt64) (todo : List WordIdx) (i : WordIdx) (hi : i ∈ todo) :
      PublishCase m (.copying d g todo) (.copyWord i)
        { m with desc := Function.update m.desc i (d.words i) }
        (.copying d g (todo.filter (· ≠ i)))
  | storeEven (d : TensorDescriptor) (g : UInt64) :
      PublishCase m (.copying d g []) .storeEven { m with guard := g + 2 } .released
  | setReady : PublishCase m .released .setReady { m with ready := 1 } .readied
  | bumpNotify : PublishCase m .readied .bumpNotify { m with notify := m.notify + 1 } .notified
  | takeWaiters :
      PublishCase m .notified .takeWaiters { m with waiters := 0 } (.taken (decide (m.waiters ≠ 0)))
  | wake : PublishCase m (.taken true) .wake m (.taken false)
  | ret : PublishCase m (.taken false) .ret m .idle

/-- **What an access of the writer does.** -/
theorem publishStep_cases {m m' : MetadataSlot} {pc pc' : PublishPc} {e : PublishEv}
    (h : publishStep m pc e = some (m', pc')) : PublishCase m pc e m' pc' := by
  unfold publishStep at h
  split at h
  case h_3 d g todo i =>
    split_ifs at h with hi
    cases h
    exact .copyWord d g todo i hi
  all_goals first | (cases h; constructor) | cases h

/-- The accesses of `read_latest`, with the program counter after each. -/
inductive ReadCase (m : MetadataSlot) : ReadPc → ReadEv → ReadPc → Prop
  | call (n : ℤ) : ReadCase m .idle (.call n) (.called n)
  | lookEmpty (n : ℤ) (h : m.ready = 0) : ReadCase m (.called n) .look (.done none 0)
  | lookNone (n : ℤ) (h : m.ready ≠ 0) (hn : n < 0) : ReadCase m (.called n) .look (.done none 0)
  | look (n : ℤ) (h : m.ready ≠ 0) (hn : 0 ≤ n) : ReadCase m (.called n) .look (.attempt n 0)
  | loadOdd (n : ℤ) (k : ℕ) (h : m.guard &&& 1 ≠ 0) :
      ReadCase m (.attempt n k) .loadBefore (.nextAttempt n k)
  | loadEven (n : ℤ) (k : ℕ) (h : m.guard &&& 1 = 0) :
      ReadCase m (.attempt n k) .loadBefore
        (.copying n k m.guard WordIdx.all (default : TensorDescriptor).words)
  | copyWord (n : ℤ) (k : ℕ) (b : UInt64) (todo : List WordIdx) (tmp : ∀ i, Word i) (i : WordIdx)
      (hi : i ∈ todo) :
      ReadCase m (.copying n k b todo tmp) (.copyWord i)
        (.copying n k b (todo.filter (· ≠ i)) (Function.update tmp i (m.desc i)))
  | loadSame (n : ℤ) (k : ℕ) (b : UInt64) (tmp : ∀ i, Word i) (h : b = m.guard) :
      ReadCase m (.copying n k b [] tmp) .loadAfter (.done (some (.ofWords tmp)) k)
  | loadMoved (n : ℤ) (k : ℕ) (b : UInt64) (tmp : ∀ i, Word i) (h : b ≠ m.guard) :
      ReadCase m (.copying n k b [] tmp) .loadAfter (.nextAttempt n k)
  | ret (res : Option TensorDescriptor) (k : ℕ) : ReadCase m (.done res k) (.ret res k) .idle

/-- **What an access of a reader does.** -/
theorem readStep_cases {m : MetadataSlot} {pc pc' : ReadPc} {e : ReadEv}
    (h : readStep m pc e = some pc') : ReadCase m pc e pc' := by
  unfold readStep at h
  split at h
  case h_1 n => cases h; exact .call n
  case h_2 n =>
    split_ifs at h with h0 hn <;> cases h
    exacts [.lookEmpty n h0, .look n h0 hn, .lookNone n h0 (not_le.mp hn)]
  case h_3 n k =>
    split_ifs at h with hg <;> cases h
    exacts [.loadOdd n k hg, .loadEven n k (not_not.mp hg)]
  case h_4 n k b todo tmp i =>
    split_ifs at h with hi
    cases h
    exact .copyWord n k b todo tmp i hi
  case h_5 n k b tmp =>
    split_ifs at h with hg <;> cases h
    exacts [.loadSame n k b tmp hg, .loadMoved n k b tmp hg]
  case h_6 res k res' k' =>
    split_ifs at h with hr
    obtain ⟨rfl, rfl⟩ := hr
    cases h
    exact .ret _ _
  case h_7 => cases h

/-- The events of the slot machine, with the state after each. -/
inductive SlotCase (s : SlotState R) : SlotEv R → SlotState R → Prop
  | pub {e : PublishEv} {m : MetadataSlot} {pc : PublishPc}
      (h : PublishCase s.slot s.writer e m pc) : SlotCase s (.pub e) { s with slot := m, writer := pc }
  | rd {r : R} {e : ReadEv} {pc : ReadPc} (h : ReadCase s.slot (s.readers r) e pc) :
      SlotCase s (.rd r e) { s with readers := Function.update s.readers r pc }
  | raise (r : R) : SlotCase s (.raise r) { s with slot := { s.slot with waiters := 1 } }

/-- **What an access does.** -/
theorem SlotState.step_cases {s s' : SlotState R} {a : SlotEv R} (h : s.step a = some s') :
    SlotCase s a s' := by
  cases a with
  | pub e =>
      obtain ⟨⟨m, pc⟩, hp, rfl⟩ := Option.map_eq_some_iff.mp h
      exact .pub (publishStep_cases hp)
  | rd r e =>
      obtain ⟨pc, hp, rfl⟩ := Option.map_eq_some_iff.mp h
      exact .rd (readStep_cases hp)
  | raise r => cases h; exact .raise r

end Axon
