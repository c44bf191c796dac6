import Axon.Foundation.Counter
import Axon.Foundation.History
import Axon.Metadata.Slot
import Mathlib.Algebra.Order.Group.Nat
import Mathlib.Tactic.Common

/-! # The writer of the metadata slot

What whole histories of `slotMachine` say about its one writer. The program counter fixes how often
each access of `publish` has happened relative to the publishes that have returned (`WriterCounts`),
which ties the guard, the `ready` flag, the notify word and, between two publishes, the stored
descriptor to the number of publishes opened and closed so far (`WriterInv`). -/

namespace Axon

open Foundation TensorDescriptor

variable {R : Type} [DecidableEq R]

/-! ## Counting the writer's accesses -/

omit [DecidableEq R] in
/-- The descriptors handed to `publish` so far, oldest first. -/
def publishArgs (tr : List (SlotEv R)) : List TensorDescriptor :=
  tr.filterMap fun
    | .pub (.call d) => some d
    | _ => none

/-- How often the writer has performed the access `e`. -/
def pubCount (e : PublishEv) (tr : List (SlotEv R)) : ℕ := tr.countP fun a => decide (a = .pub e)

/-- One access more counts for the accesses of its kind. -/
theorem pubCount_snoc (e : PublishEv) (tr : List (SlotEv R)) (a : SlotEv R) :
    pubCount e (tr ++ [a]) = pubCount e tr + if a = .pub e then 1 else 0 := by
  simp [pubCount]

/-- A reader's access counts for none of the writer's. -/
theorem pubCount_snoc_rd (e : PublishEv) (tr : List (SlotEv R)) (r : R) (a : ReadEv) :
    pubCount e (tr ++ [.rd r a]) = pubCount e tr := by
  simp [pubCount_snoc]

/-- Nor does a flag that is raised. -/
theorem pubCount_snoc_raise (e : PublishEv) (tr : List (SlotEv R)) (r : R) :
    pubCount e (tr ++ [.raise r]) = pubCount e tr := by
  simp [pubCount_snoc]

/-- A writer's access counts for its own kind. -/
theorem pubCount_snoc_pub (e e' : PublishEv) (tr : List (SlotEv R)) :
    pubCount e (tr ++ [.pub e']) = pubCount e tr + if e' = e then 1 else 0 := by
  simp [pubCount_snoc]

omit [DecidableEq R] in
/-- The descriptors published are those before and the one of the last access. -/
theorem publishArgs_snoc (tr : List (SlotEv R)) (a : SlotEv R) :
    publishArgs (tr ++ [a]) = publishArgs tr ++ publishArgs [a] := by
  rw [publishArgs, List.filterMap_append]
  rfl

omit [DecidableEq R] in
/-- A call of `publish` adds its descriptor. -/
theorem publishArgs_snoc_call (tr : List (SlotEv R)) (d : TensorDescriptor) :
    publishArgs (tr ++ [.pub (.call d)]) = publishArgs tr ++ [d] := publishArgs_snoc tr _

omit [DecidableEq R] in
/-- Only a call of `publish` extends the list of its arguments. -/
theorem publishArgs_snoc_of_ne {tr : List (SlotEv R)} {a : SlotEv R}
    (h : ∀ d, a ≠ .pub (.call d)) : publishArgs (tr ++ [a]) = publishArgs tr := by
  rw [publishArgs_snoc]
  cases a with
  | pub e =>
      cases e with
      | call d => exact absurd rfl (h d)
      | _ => simp [publishArgs]
  | rd r e => simp [publishArgs]
  | raise r => simp [publishArgs]

omit [DecidableEq R] in
/-- The arguments so far are a prefix of the arguments later. -/
theorem publishArgs_getElem?_snoc {tr : List (SlotEv R)} {n : ℕ} {d : TensorDescriptor}
    (h : (publishArgs tr)[n]? = some d) (a : SlotEv R) :
    (publishArgs (tr ++ [a]))[n]? = some d := by
  rw [publishArgs_snoc, List.getElem?_append_left (List.getElem?_eq_some_iff.mp h).1, h]

/-! ## The writer's invariant -/

/-- How far into `publish` the writer is. -/
def PublishPc.stage : PublishPc → ℕ
  | .idle => 0
  | .loaded _ _ => 1
  | .copying _ _ _ => 2
  | .released => 3
  | .readied => 4
  | .notified => 5
  | .taken _ => 6

/-- **How often each access has happened**: once per returned publish, and once more when the running
publish is past it. -/
structure WriterCounts (tr : List (SlotEv R)) (pc : PublishPc) : Prop where
  called : (publishArgs tr).length = pubCount .ret tr + if 1 ≤ pc.stage then 1 else 0
  opened : pubCount .storeOdd tr = pubCount .ret tr + if 2 ≤ pc.stage then 1 else 0
  closed : pubCount .storeEven tr = pubCount .ret tr + if 3 ≤ pc.stage then 1 else 0
  readied : pubCount .setReady tr = pubCount .ret tr + if 4 ≤ pc.stage then 1 else 0
  notified : pubCount .bumpNotify tr = pubCount .ret tr + if 5 ≤ pc.stage then 1 else 0

/-- **The writer's invariant**: the guard counts the guard stores, `ready` and `notify` tell whether
and how often they were written, and between two publishes the slot holds the descriptor of the last
closed one. -/
structure WriterInv (tr : List (SlotEv R)) (s : SlotState R) : Prop where
  counts : WriterCounts tr s.writer
  guard : s.slot.guard = UInt64.ofNat (pubCount .storeOdd tr + pubCount .storeEven tr)
  ready : s.slot.ready = 0 ↔ pubCount .setReady tr = 0
  notify : s.slot.notify = UInt32.ofNat (pubCount .bumpNotify tr)
  stable : pubCount .storeOdd tr = pubCount .storeEven tr → ∀ n d, pubCount .storeEven tr = n + 1 →
    (publishArgs tr)[n]? = some d → s.slot.desc = d.words
  loaded : ∀ d g, s.writer = .loaded d g →
    (publishArgs tr)[pubCount .ret tr]? = some d ∧ s.slot.guard = g
  copying : ∀ d g todo, s.writer = .copying d g todo →
    (publishArgs tr)[pubCount .ret tr]? = some d ∧ s.slot.guard = g + 1 ∧
      ∀ i ∉ todo, s.slot.desc i = d.words i

/-- **A writer's step** keeps its counts in step with its place in the program. -/
theorem WriterCounts.pub {tr : List (SlotEv R)} {m m' : MetadataSlot} {pc pc' : PublishPc}
    {e : PublishEv} (h : WriterCounts tr pc) (hc : PublishCase m pc e m' pc') :
    WriterCounts (tr ++ [.pub e]) pc' := by
  obtain ⟨hcalled, hopened, hclosed, hreadied, hnotified⟩ := h
  cases hc <;>
    simp [PublishPc.stage] at hcalled hopened hclosed hreadied hnotified <;>
    refine ⟨?_, ?_, ?_, ?_, ?_⟩ <;>
    simp [PublishPc.stage, pubCount_snoc_pub, publishArgs] at * <;> omega

namespace WriterInv

variable {tr : List (SlotEv R)} {s s' : SlotState R}

/-- A writer begins with an untouched slot. -/
theorem initial : WriterInv ([] : List (SlotEv R)) .initial where
  counts := ⟨rfl, rfl, rfl, rfl, rfl⟩
  guard := rfl
  ready := ⟨fun _ => rfl, fun _ => rfl⟩
  notify := rfl
  stable := fun _ n d h => by simp [pubCount] at h
  loaded := fun d g h => by simp [SlotState.initial] at h
  copying := fun d g todo h => by simp [SlotState.initial] at h

/-- An event that changes neither the writer nor what the writer left in the slot keeps the
invariant. -/
theorem of_eq (h : WriterInv tr s) {a : SlotEv R} (ha : ∀ e, a ≠ .pub e) (hw : s'.writer = s.writer)
    (hg : s'.slot.guard = s.slot.guard) (hr : s'.slot.ready = s.slot.ready)
    (hn : s'.slot.notify = s.slot.notify) (hd : s'.slot.desc = s.slot.desc) :
    WriterInv (tr ++ [a]) s' := by
  have hc : ∀ e, pubCount e (tr ++ [a]) = pubCount e tr := fun e => by
    rw [pubCount_snoc, if_neg (ha e), Nat.add_zero]
  have hp : publishArgs (tr ++ [a]) = publishArgs tr := publishArgs_snoc_of_ne fun d => ha (.call d)
  obtain ⟨⟨hcalled, hopened, hclosed, hreadied, hnotified⟩, hguard, hready, hnotify, hstable,
    hloaded, hcopying⟩ := h
  refine ⟨⟨?_, ?_, ?_, ?_, ?_⟩, ?_, ?_, ?_, ?_, ?_, ?_⟩ <;> simp only [hc, hp, hw, hg, hr, hn, hd]
  all_goals assumption

/-- The writer's own accesses keep the invariant. -/
theorem pub (h : WriterInv tr s) {e : PublishEv} {m : MetadataSlot} {pc : PublishPc}
    (hc : PublishCase s.slot s.writer e m pc) :
    WriterInv (tr ++ [.pub e]) { s with slot := m, writer := pc } := by
  have hcounts := h.counts.pub hc
  obtain ⟨hold, hguard, hready, hnotify, hstable, hloaded, hcopying⟩ := h
  obtain ⟨slot, writer, readers⟩ := s
  simp only at *
  have hargs : (∀ d, e ≠ .call d) → publishArgs (tr ++ [.pub e]) = publishArgs tr :=
    fun he => publishArgs_snoc_of_ne fun d hd => he d (SlotEv.pub.inj hd)
  have hsnoc : ∀ e', pubCount e' (tr ++ [.pub e]) = pubCount e' tr + if e = e' then 1 else 0 :=
    fun e' => pubCount_snoc_pub e' e tr
  -- without a call or a store to the guard, the closed publishes are the same
  have hkept : (∀ d, e ≠ .call d) → e ≠ .storeOdd → e ≠ .storeEven →
      pubCount .storeOdd (tr ++ [.pub e]) = pubCount .storeEven (tr ++ [.pub e]) →
      ∀ n d, pubCount .storeEven (tr ++ [.pub e]) = n + 1 → (publishArgs (tr ++ [.pub e]))[n]? = some d →
        slot.desc = d.words := by
    intro hcall hodd heven ho n d hn hd
    rw [hsnoc, hsnoc, if_neg hodd, if_neg heven, Nat.add_zero, Nat.add_zero] at ho
    rw [hsnoc, if_neg heven, Nat.add_zero] at hn
    rw [hargs hcall] at hd
    exact hstable ho n d hn hd
  cases hc with
  | call d =>
      have hlen : (publishArgs tr).length = pubCount .ret tr := by
        simpa [PublishPc.stage] using hold.called
      have hclosed : pubCount .storeEven tr = pubCount .ret tr := by
        simpa [PublishPc.stage] using hold.closed
      refine ⟨hcounts, by simpa [hsnoc] using hguard, by simpa [hsnoc] using hready,
        by simpa [hsnoc] using hnotify, fun ho n d' hn hd' => ?_, ?_, by simp⟩
      · -- the closed publishes are older than the one just called
        simp [hsnoc] at ho hn
        rw [publishArgs_snoc_call, List.getElem?_append_left (by omega)] at hd'
        exact hstable ho n d' hn hd'
      · rintro d' g ⟨rfl, rfl⟩
        simp [publishArgs_snoc_call, hsnoc, ← hlen]
  | storeOdd d g =>
      obtain ⟨hd, hg⟩ := hloaded d g rfl
      have hopened : pubCount .storeOdd tr = pubCount .ret tr := by
        simpa [PublishPc.stage] using hold.opened
      have hclosed : pubCount .storeEven tr = pubCount .ret tr := by
        simpa [PublishPc.stage] using hold.closed
      refine ⟨hcounts, ?_, by simpa [hsnoc] using hready, by simpa [hsnoc] using hnotify,
        fun ho => ?_, by simp, ?_⟩
      · simp [hsnoc, ← hg, hguard, add_right_comm]
      · simp [hsnoc] at ho
        omega
      · rintro d' g' todo ⟨rfl, rfl, rfl⟩
        simp [hsnoc, hargs, hd]
  | copyWord d g todo i hi =>
      obtain ⟨hd, hg, hcopied⟩ := hcopying d g todo rfl
      have hopened : pubCount .storeOdd tr = pubCount .ret tr + 1 := by
        simpa [PublishPc.stage] using hold.opened
      have hclosed : pubCount .storeEven tr = pubCount .ret tr := by
        simpa [PublishPc.stage] using hold.closed
      refine ⟨hcounts, by simpa [hsnoc] using hguard, by simpa [hsnoc] using hready,
        by simpa [hsnoc] using hnotify, fun ho => ?_, by simp, ?_⟩
      · simp [hsnoc] at ho
        omega
      · rintro d' g' todo' ⟨rfl, rfl, rfl⟩
        refine ⟨by simpa [hsnoc, hargs] using hd, hg, fun j hj => ?_⟩
        by_cases hji : j = i
        · subst hji
          simp
        · simp only [Function.update_of_ne hji]
          exact hcopied j fun hmem => hj (by simp [hmem, hji])
  | storeEven d g =>
      obtain ⟨hd, hg, hcopied⟩ := hcopying d g [] rfl
      have hopened : pubCount .storeOdd tr = pubCount .ret tr + 1 := by
        simpa [PublishPc.stage] using hold.opened
      have hclosed : pubCount .storeEven tr = pubCount .ret tr := by
        simpa [PublishPc.stage] using hold.closed
      refine ⟨hcounts, ?_, by simpa [hsnoc] using hready, by simpa [hsnoc] using hnotify,
        fun ho n d' hn hd' => ?_, by simp, by simp⟩
      · have hg2 : g + 2 = slot.guard + 1 := by rw [hg, UInt64.add_assoc]; rfl
        simp [hsnoc, hg2, hguard, add_assoc]
      · -- the publish that closes is the one whose words have all been copied
        simp [hsnoc] at hn
        rw [hargs (by simp)] at hd'
        obtain rfl : d = d' := by
          rw [← hclosed, hn] at hd
          exact Option.some.inj (hd.symm.trans hd')
        funext j
        exact hcopied j (by simp)
  | setReady =>
      exact ⟨hcounts, by simpa [hsnoc] using hguard, by simp [hsnoc], by simpa [hsnoc] using hnotify,
        hkept (by simp) (by simp) (by simp), by simp, by simp⟩
  | bumpNotify =>
      exact ⟨hcounts, by simpa [hsnoc] using hguard, by simpa [hsnoc] using hready, by simp [hsnoc, hnotify],
        hkept (by simp) (by simp) (by simp), by simp, by simp⟩
  | takeWaiters =>
      exact ⟨hcounts, by simpa [hsnoc] using hguard, by simpa [hsnoc] using hready,
        by simpa [hsnoc] using hnotify, hkept (by simp) (by simp) (by simp), by simp, by simp⟩
  | wake =>
      exact ⟨hcounts, by simpa [hsnoc] using hguard, by simpa [hsnoc] using hready,
        by simpa [hsnoc] using hnotify, hkept (by simp) (by simp) (by simp), by simp, by simp⟩
  | ret =>
      exact ⟨hcounts, by simpa [hsnoc] using hguard, by simpa [hsnoc] using hready,
        by simpa [hsnoc] using hnotify, hkept (by simp) (by simp) (by simp), by simp, by simp⟩

/-- Every access to the slot keeps the writer's invariant. -/
theorem step (h : WriterInv tr s) {a : SlotEv R} (hs : s.step a = some s') :
    WriterInv (tr ++ [a]) s' := by
  cases SlotState.step_cases hs with
  | pub hc => exact h.pub hc
  | rd hc => exact h.of_eq (by simp) rfl rfl rfl rfl rfl
  | raise r => exact h.of_eq (by simp) rfl rfl rfl rfl rfl

/-- The writer's invariant holds throughout every run. -/
theorem of_run (h : (slotMachine R).Run tr s) : WriterInv tr s := by
  refine h.invariant (P := WriterInv) ?_ fun tr s a s' _ hi hs => hi.step hs
  rintro s rfl
  exact .initial

end WriterInv

namespace WriterCounts

variable {tr : List (SlotEv R)} {pc : PublishPc}

/-- No write is closed that was not opened. -/
theorem closed_le_opened (h : WriterCounts tr pc) : pubCount .storeEven tr ≤ pubCount .storeOdd tr := by
  have := h.opened
  have := h.closed
  split_ifs at * <;> omega

/-- At most one write is open. -/
theorem opened_le_closed_succ (h : WriterCounts tr pc) :
    pubCount .storeOdd tr ≤ pubCount .storeEven tr + 1 := by
  have := h.opened
  have := h.closed
  split_ifs at * <;> omega

/-- No write is opened without a call. -/
theorem opened_le_called (h : WriterCounts tr pc) :
    pubCount .storeOdd tr ≤ (publishArgs tr).length := by
  have := h.called
  have := h.opened
  split_ifs at * <;> omega

/-- The slot is made ready behind a closed write. -/
theorem readied_le_closed (h : WriterCounts tr pc) :
    pubCount .setReady tr ≤ pubCount .storeEven tr := by
  have := h.readied
  have := h.closed
  split_ifs at * <;> omega

/-- A call returns once the slot is ready. -/
theorem returned_le_readied (h : WriterCounts tr pc) : pubCount .ret tr ≤ pubCount .setReady tr := by
  have := h.readied
  omega

/-- A call returns behind its write. -/
theorem returned_le_closed (h : WriterCounts tr pc) : pubCount .ret tr ≤ pubCount .storeEven tr := by
  have := h.closed
  omega

/-- While a publish is open, it has been called and has not returned. -/
theorem returned_lt_called (h : WriterCounts tr pc)
    (ho : pubCount .storeEven tr ≠ pubCount .storeOdd tr) :
    pubCount .ret tr < (publishArgs tr).length := by
  have := h.called
  have := h.opened
  have := h.closed
  split_ifs at * <;> omega

end WriterCounts

/-! ## Publishes in progress -/

/-- **A publish is in progress** at position `q`: before the event at `q`, more publishes had been
called than had returned. -/
def InProgress (tr : List (SlotEv R)) (q : ℕ) : Prop :=
  pubCount .ret (tr.take q) < (publishArgs (tr.take q)).length

/-- A write in progress at some time has been in progress then, whatever follows. -/
theorem InProgress.snoc {tr : List (SlotEv R)} {q : ℕ} (h : InProgress tr q) (hq : q ≤ tr.length)
    (a : SlotEv R) : InProgress (tr ++ [a]) q := by
  rwa [InProgress, take_snoc_of_le hq]

/-- A store to the guard happens while a publish is in progress. -/
theorem inProgress_of_guard_store {tr : List (SlotEv R)} {s : SlotState R} {q : ℕ} {e : PublishEv}
    (h : (slotMachine R).Run tr s) (hq : tr[q]? = some (.pub e)) (he : e = .storeOdd ∨ e = .storeEven) :
    InProgress tr q := by
  obtain ⟨s₁, s₂, hr, hs, -⟩ := h.step_at hq
  change s₁.step (.pub e) = some s₂ at hs
  have hcalled := (WriterInv.of_run hr).counts.called
  cases SlotState.step_cases hs with
  | pub hc =>
      -- the writer is past its call and before its return
      have hstage : 1 ≤ s₁.writer.stage := by
        generalize s₁.writer = pc at hc
        rcases he with rfl | rfl <;> cases hc <;> simp [PublishPc.stage]
      rw [if_pos hstage] at hcalled
      rw [InProgress, hcalled]
      exact Nat.lt_succ_self _

/-- When more stores to the guard have happened at `j` than at `i`, a publish was in progress at a
position in between. -/
theorem inProgress_of_guard_moved {tr : List (SlotEv R)} {s : SlotState R} {i j : ℕ}
    (h : (slotMachine R).Run tr s)
    (hlt : pubCount .storeOdd (tr.take i) + pubCount .storeEven (tr.take i) <
      pubCount .storeOdd (tr.take j) + pubCount .storeEven (tr.take j)) :
    ∃ q, i ≤ q ∧ q < j ∧ InProgress tr q := by
  have hstore : ∀ e, (e = .storeOdd ∨ e = .storeEven) →
      pubCount e (tr.take i) < pubCount e (tr.take j) → ∃ q, i ≤ q ∧ q < j ∧ InProgress tr q := by
    intro e he hcount
    obtain ⟨q, a, hiq, hqj, ha, hae⟩ := exists_of_countP_take_lt _ hcount
    rw [of_decide_eq_true hae] at ha
    exact ⟨q, hiq, hqj, inProgress_of_guard_store h ha he⟩
  rcases lt_or_ge (pubCount .storeOdd (tr.take i)) (pubCount .storeOdd (tr.take j)) with ho | ho
  · exact hstore _ (.inl rfl) ho
  · exact hstore _ (.inr rfl) (by omega)

end Axon
