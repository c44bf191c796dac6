import Axon.Metadata.Reader

/-! # The seqlock is an atomic latest-value register

The invariants of the slot's writer and readers, read off at the return of a call:
`slot_latest_value_register` says what every finished `read_latest` returned, in any interleaving. -/

namespace Axon

open Foundation TensorDescriptor

variable {R : Type} [DecidableEq R]

/-! ## Whole reads -/

/-- **A finished read**: `r` calls `read_latest` with retry bound `n` at position `c`, and this call
returns `res` at position `p`. -/
structure ReadSpan (tr : List (SlotEv R)) (r : R) (c p : ℕ) (n : ℤ) (res : Option TensorDescriptor) :
    Prop where
  call : tr[c]? = some (.rd r (.call n))
  ret : ∃ k, tr[p]? = some (.rd r (.ret res k))
  lt : c < p
  same : ∀ q n', c < q → q < p → tr[q]? ≠ some (.rd r (.call n'))

omit [DecidableEq R] in
/-- A read begins with its call. -/
theorem ReadSpan.callAt {tr : List (SlotEv R)} {r : R} {c p : ℕ} {n : ℤ}
    {res : Option TensorDescriptor} (h : ReadSpan tr r c p n res) : CallAt (tr.take p) r n c := by
  refine ⟨.of_take h.call ⟨n, rfl⟩ h.lt ?_, by rw [List.getElem?_take_of_lt h.lt, h.call]⟩
  rintro q a hcq hqp hq ⟨n', rfl⟩
  exact h.same q n' hcq hqp hq

section Span

variable {tr : List (SlotEv R)} {s : SlotState R} {r : R} {c p : ℕ} {n : ℤ}

/-- Before it returns `res`, the reader is in a state that its invariant describes. -/
theorem ReadSpan.readerInv {res : Option TensorDescriptor} (hrun : (slotMachine R).Run tr s)
    (hw : NoGuardWrap tr) (h : ReadSpan tr r c p n res) : ∃ k, ReaderInv (tr.take p) r (.done res k) := by
  obtain ⟨k, hret⟩ := h.ret
  obtain ⟨s₁, s₂, hr, hs, -⟩ := hrun.step_at hret
  change s₁.step (.rd r (.ret res k)) = some s₂ at hs
  have hinv := ReaderInv.of_run hr (hw.take p) r
  cases SlotState.step_cases hs with
  | rd hc =>
      generalize s₁.readers r = pc at hc hinv
      cases hc
      exact ⟨k, hinv⟩

/-- A read that returns a descriptor returns the argument of a recent publish. -/
theorem ReadSpan.recent {d : TensorDescriptor} (hrun : (slotMachine R).Run tr s)
    (hw : NoGuardWrap tr) (h : ReadSpan tr r c p n (some d)) : ∃ m, Recent (tr.take p) c m d := by
  obtain ⟨k, c', n', m, hcall, hrec⟩ := h.readerInv hrun hw
  obtain ⟨rfl, rfl⟩ := h.callAt.unique hcall
  exact ⟨m, hrec⟩

/-- A read that returns false found nothing ready or found the slot busy in every attempt. -/
theorem ReadSpan.missed (hrun : (slotMachine R).Run tr s) (hw : NoGuardWrap tr)
    (h : ReadSpan tr r c p n none) (hn : 0 ≤ n) : NothingReady (tr.take p) r c ∨
      ∃ atts, Attempts (tr.take p) r c (tr.take p).length atts ∧ (atts.length : ℤ) = n + 1 := by
  obtain ⟨k, c', n', hcall, hfail⟩ := h.readerInv hrun hw
  obtain ⟨rfl, rfl⟩ := h.callAt.unique hcall
  exact hfail hn

/-- The publishes returned when a read begins are closed, so none of them is newer than what the read
returns. -/
theorem Recent.returned_le {m : ℕ} {d : TensorDescriptor} (hrun : (slotMachine R).Run tr s)
    (h : Recent (tr.take p) c m d) (hcp : c ≤ p) : pubCount .ret (tr.take c) ≤ m + 1 := by
  have hfloor := h.floor
  rw [List.take_take, min_eq_left hcp] at hfloor
  have hrun' := hrun
  rw [← List.take_append_drop c tr] at hrun'
  obtain ⟨s₁, hr, -⟩ := hrun'.split
  exact (WriterInv.of_run hr).counts.returned_le_closed.trans hfloor

/-- What a read returns is no older than what a read finished before it returned. -/
theorem Recent.le_of_before {c' p' m m' : ℕ} {d d' : TensorDescriptor} (h : Recent (tr.take p) c m d)
    (h' : Recent (tr.take p') c' m' d') (hpc : p' ≤ c) (hcp : c ≤ p) : m' ≤ m := by
  have h1 := h'.closed
  have h2 := h.floor
  rw [List.take_take, min_eq_left hcp] at h2
  have h3 : pubCount .storeEven (tr.take p') ≤ pubCount .storeEven (tr.take c) :=
    countP_take_mono _ tr hpc
  omega

end Span

/-- **The seqlock slot is an atomic latest-value register.** Every finished read that returns a
descriptor is assigned the one publish whose argument it returned, no older than the last publish
returned before the read was called, and no older than what any read that returned before it was
called has returned. A read that returns false looked at `ready` before the first publish had set it,
or made all its `n + 1` attempts and each overlapped a publish in progress. -/
theorem slot_latest_value_register {tr : List (SlotEv R)} {s : SlotState R}
    (hrun : (slotMachine R).Run tr s) (hw : NoGuardWrap tr) :
    ∃ pubOf : ℕ → ℕ,
      (∀ r c p n d, ReadSpan tr r c p n (some d) →
        (publishArgs (tr.take p))[pubOf p]? = some d ∧ pubCount .ret (tr.take c) ≤ pubOf p + 1) ∧
      (∀ r c p n d r' c' p' n' d', ReadSpan tr r c p n (some d) → ReadSpan tr r' c' p' n' (some d') →
        p' < c → pubOf p' ≤ pubOf p) ∧
      (∀ r c p n, ReadSpan tr r c p n none → 0 ≤ n → NothingReady (tr.take p) r c ∨
        ∃ atts, Attempts (tr.take p) r c (tr.take p).length atts ∧ (atts.length : ℤ) = n + 1) := by
  classical
  have hpub : ∀ p, ∃ m, ∀ r c n d, ReadSpan tr r c p n (some d) → Recent (tr.take p) c m d := by
    intro p
    by_cases hp : ∃ r c n d, ReadSpan tr r c p n (some d)
    · obtain ⟨r, c, n, d, h⟩ := hp
      obtain ⟨m, hm⟩ := h.recent hrun hw
      refine ⟨m, fun r' c' n' d' h' => ?_⟩
      -- the position fixes the reader, the call and the result
      obtain ⟨k, hk⟩ := h.ret
      obtain ⟨k', hk'⟩ := h'.ret
      obtain ⟨rfl, rfl, -⟩ : r = r' ∧ d = d' ∧ k = k' := by simpa using hk.symm.trans hk'
      obtain ⟨rfl, -⟩ := h.callAt.unique h'.callAt
      exact hm
    · exact ⟨0, fun r c n d h => absurd ⟨r, c, n, d, h⟩ hp⟩
  choose pubOf hpubOf using hpub
  refine ⟨pubOf, fun r c p n d h => ?_, fun r c p n d r' c' p' n' d' h h' hlt => ?_,
    fun r c p n h hn => h.missed hrun hw hn⟩
  · have hrec := hpubOf p r c n d h
    exact ⟨hrec.arg, hrec.returned_le hrun h.lt.le⟩
  · exact (hpubOf p r c n d h).le_of_before (hpubOf p' r' c' n' d' h') hlt.le h.lt.le

/-- The accesses of one `publish(d)` that finds no waiter, copying the words in memory order. -/
def publishAccesses (d : TensorDescriptor) : List PublishEv :=
  PublishEv.call d :: PublishEv.storeOdd :: (WordIdx.all.map PublishEv.copyWord ++
    [PublishEv.storeEven, PublishEv.setReady, PublishEv.bumpNotify, PublishEv.takeWaiters,
      PublishEv.ret])

/-- The accesses of one `read_latest` that returns `d` in its first attempt. -/
def readAccesses (d : TensorDescriptor) : List ReadEv :=
  ReadEv.call 0 :: ReadEv.look :: ReadEv.loadBefore :: (WordIdx.all.map ReadEv.copyWord ++
    [ReadEv.loadAfter, ReadEv.ret (some d) 0])

/-- One publish and then one read of it. -/
def publishThenRead (d : TensorDescriptor) : List (SlotEv Unit) :=
  (publishAccesses d).map SlotEv.pub ++ (readAccesses d).map (SlotEv.rd ())

/-- In that history the read returns publish `0`. -/
theorem slot_latest_value_register_publishThenRead :
    ∃ pubOf : ℕ → ℕ, (publishArgs ((publishThenRead default).take 47))[pubOf 47]? =
      some (default : TensorDescriptor) := by
  have hexec : ((slotMachine Unit).exec .initial (publishThenRead default)).isSome := by
    decide +kernel
  obtain ⟨s, hs⟩ := Option.isSome_iff_exists.mp hexec
  have hrun : (slotMachine Unit).Run (publishThenRead default) s := .of_exec rfl hs
  have hw : NoGuardWrap (publishThenRead default) :=
    .of_length_lt (by simp [publishThenRead, publishAccesses, readAccesses, WordIdx.all])
  obtain ⟨pubOf, hsome, -⟩ := slot_latest_value_register hrun hw
  have hspan : ReadSpan (publishThenRead default) () 25 47 0 (some default) := by
    refine ⟨by simp [publishThenRead, publishAccesses, readAccesses, WordIdx.all], ⟨0, by simp [publishThenRead, publishAccesses, readAccesses, WordIdx.all]⟩,
      by decide, fun q n' hq hq' => ?_⟩
    interval_cases q <;> simp [publishThenRead, publishAccesses, readAccesses, WordIdx.all]
  exact ⟨pubOf, (hsome _ _ _ _ _ hspan).1⟩

end Axon
