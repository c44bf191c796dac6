import Axon.Metadata.Writer

/-! # The readers of the metadata slot

A reader that loaded an even guard is copying the descriptor of the last closed publish for as long as
no other publish opens (`Copying`); when its second load finds the guard unchanged, none has. When it
does not, or the guard was odd, a publish was in progress during the attempt (`Attempts`). Both are
parts of one invariant, `ReaderInv`, which every access of every party keeps. -/

namespace Axon

open Foundation TensorDescriptor

variable {R : Type} [DecidableEq R]

/-! ## The attempts of a read -/

/-- The last call of `read_latest` by `r` is at position `c` and has retry bound `n`. -/
def CallAt (tr : List (SlotEv R)) (r : R) (n : ℤ) (c : ℕ) : Prop :=
  LastAt (fun a => ∃ n, a = .rd r (.call n)) tr c ∧ tr[c]? = some (.rd r (.call n))

omit [DecidableEq R] in
/-- A reader's last call is one. -/
theorem CallAt.unique {tr : List (SlotEv R)} {r : R} {c c' : ℕ} {n n' : ℤ} (h : CallAt tr r n c)
    (h' : CallAt tr r n' c') : c = c' ∧ n = n' := by
  obtain rfl := h.1.unique h'.1
  have := h.2.symm.trans h'.2
  simp only [Option.some.injEq, SlotEv.rd.injEq, ReadEv.call.injEq] at this
  exact ⟨rfl, this.2⟩

/-- **An attempt that found the slot busy**: it begins with the first guard load at `a.1`, ends with
the access at `a.2`, and a publish was in progress in between. -/
def Overlapped (tr : List (SlotEv R)) (r : R) (a : ℕ × ℕ) : Prop :=
  tr[a.1]? = some (.rd r .loadBefore) ∧ (a.2 = a.1 ∨ tr[a.2]? = some (.rd r .loadAfter)) ∧
    ∃ q, a.1 ≤ q ∧ q ≤ a.2 ∧ InProgress tr q

/-- **The attempts of `r` between the positions `c` and `hi`**, in order: every one of them found the
slot busy. -/
structure Attempts (tr : List (SlotEv R)) (r : R) (c hi : ℕ) (atts : List (ℕ × ℕ)) : Prop where
  ordered : atts.Pairwise fun a b => a.2 < b.1
  within : ∀ a ∈ atts, c < a.1 ∧ a.1 ≤ a.2 ∧ a.2 < hi
  overlapped : ∀ a ∈ atts, Overlapped tr r a
  complete : ∀ b, c < b → b < hi → tr[b]? = some (.rd r .loadBefore) → ∃ e, (b, e) ∈ atts

namespace Attempts

variable {tr : List (SlotEv R)} {r : R} {c hi : ℕ} {atts : List (ℕ × ℕ)}

/-- What is known of the attempts so far stays true. -/
theorem snoc (h : Attempts tr r c hi atts) (hhi : hi ≤ tr.length) (a : SlotEv R) :
    Attempts (tr ++ [a]) r c hi atts := by
  refine ⟨h.ordered, h.within, fun p hp => ?_, fun b hcb hb hload => ?_⟩
  · obtain ⟨hfst, hsnd, q, hq1, hq2, hin⟩ := h.overlapped p hp
    have hlt := (h.within p hp).2.2
    exact ⟨getElem?_snoc_of_some hfst a, hsnd.imp_right fun hs => getElem?_snoc_of_some hs a,
      q, hq1, hq2, hin.snoc (by omega) a⟩
  · rcases getElem?_snoc_cases hload with hload | ⟨rfl, -⟩
    · exact h.complete b hcb hb hload
    · omega

/-- The bound moves over positions at which no attempt begins. -/
theorem mono {hi' : ℕ} (h : Attempts tr r c hi atts) (hle : hi ≤ hi')
    (hno : ∀ b, hi ≤ b → b < hi' → tr[b]? ≠ some (.rd r .loadBefore)) :
    Attempts tr r c hi' atts := by
  refine ⟨h.ordered, fun p hp => ?_, h.overlapped, fun b hcb hb hload => ?_⟩
  · have := h.within p hp
    omega
  · rcases lt_or_ge b hi with hlt | hge
    · exact h.complete b hcb hlt hload
    · exact absurd hload (hno b hge hb)

/-- One more event that is not a first guard load of `r`. -/
theorem snoc_of_ne (h : Attempts tr r c tr.length atts) {a : SlotEv R} (ha : a ≠ .rd r .loadBefore) :
    Attempts (tr ++ [a]) r c (tr ++ [a]).length atts := by
  refine (h.snoc le_rfl a).mono (by simp) fun b hb hb' hload => ?_
  rcases getElem?_snoc_cases hload with hload | ⟨-, rfl⟩
  · have := (List.getElem?_eq_some_iff.mp hload).1
    omega
  · exact ha rfl

/-- A further attempt that found the slot busy is added at the end. -/
theorem add {hi' b e : ℕ} (h : Attempts tr r c hi atts) (hb : hi = b) (hcb : c < b) (hbe : b ≤ e)
    (he : e < hi') (ho : Overlapped tr r (b, e))
    (hno : ∀ q, b < q → q < hi' → tr[q]? ≠ some (.rd r .loadBefore)) :
    Attempts tr r c hi' (atts ++ [(b, e)]) := by
  subst hb
  refine ⟨?_, ?_, ?_, ?_⟩
  -- the new attempt begins behind all those before
  · refine List.pairwise_append.mpr ⟨h.ordered, List.pairwise_singleton _ _, fun p hp q hq => ?_⟩
    rw [List.mem_singleton.mp hq]
    exact (h.within p hp).2.2
  · intro p hp
    rcases List.mem_append.mp hp with hp | hp
    · have := h.within p hp
      omega
    · rw [List.mem_singleton.mp hp]
      exact ⟨hcb, hbe, he⟩
  · intro p hp
    rcases List.mem_append.mp hp with hp | hp
    · exact h.overlapped p hp
    · rw [List.mem_singleton.mp hp]
      exact ho
  -- its load is the only one behind them
  · intro q hcq hq hload
    rcases lt_trichotomy q hi with hlt | rfl | hgt
    · obtain ⟨e', he'⟩ := h.complete q hcq hlt hload
      exact ⟨e', List.mem_append_left _ he'⟩
    · exact ⟨e, List.mem_append_right _ (List.mem_singleton.mpr rfl)⟩
    · exact absurd hload (hno q hgt hq)

end Attempts

/-! ## The reader's invariant -/

/-- **A copy in progress** that began at position `b`, when `m + 1` publishes had been opened and
closed: for as long as no other publish opens, the words copied so far are those of publish `m`. -/
structure Copying (tr : List (SlotEv R)) (r : R) (c b m : ℕ) (before : UInt64) (todo : List WordIdx)
    (tmp : ∀ i, Word i) : Prop where
  after : c < b
  last : LastAt (· = .rd r .loadBefore) tr b
  ready : 0 < pubCount .setReady tr
  opened : pubCount .storeOdd (tr.take b) = m + 1
  closed : pubCount .storeEven (tr.take b) = m + 1
  before_eq : before = UInt64.ofNat (pubCount .storeOdd (tr.take b) + pubCount .storeEven (tr.take b))
  copied : pubCount .storeOdd tr = m + 1 →
    ∀ d, (publishArgs tr)[m]? = some d → ∀ i ∉ todo, tmp i = d.words i

/-- What a read begun at `c` may return after the history `tr`: publish `m`, closed by now and no
older than the last one closed when the read began. -/
structure Recent (tr : List (SlotEv R)) (c m : ℕ) (d : TensorDescriptor) : Prop where
  arg : (publishArgs tr)[m]? = some d
  floor : pubCount .storeEven (tr.take c) ≤ m + 1
  closed : m + 1 ≤ pubCount .storeEven tr

/-- The read begun at `c` looked at `ready` before the first publish had set it. -/
def NothingReady (tr : List (SlotEv R)) (r : R) (c : ℕ) : Prop :=
  ∃ q, c < q ∧ tr[q]? = some (.rd r .look) ∧ pubCount .setReady (tr.take q) = 0

/-- **The invariant of the reader `r`**, by where it stands inside `read_latest`. -/
def ReaderInv (tr : List (SlotEv R)) (r : R) : ReadPc → Prop
  | .idle => True
  | .called n => ∃ c, CallAt tr r n c ∧ Attempts tr r c tr.length []
  | .attempt n k => ∃ c atts, CallAt tr r n c ∧ Attempts tr r c tr.length atts ∧
      atts.length = k ∧ (k : ℤ) ≤ n ∧ 0 < pubCount .setReady tr
  | .copying n k before todo tmp => ∃ c atts b m, CallAt tr r n c ∧ Attempts tr r c b atts ∧
      atts.length = k ∧ (k : ℤ) ≤ n ∧ Copying tr r c b m before todo tmp
  | .done (some d) _ => ∃ c n m, CallAt tr r n c ∧ Recent tr c m d
  | .done none _ => ∃ c n, CallAt tr r n c ∧ (0 ≤ n → NothingReady tr r c ∨
      ∃ atts, Attempts tr r c tr.length atts ∧ (atts.length : ℤ) = n + 1)

section Foreign

variable {tr : List (SlotEv R)} {r : R} {a : SlotEv R}

omit [DecidableEq R] in
/-- A call stays the last one until the next. -/
theorem CallAt.snoc {n : ℤ} {c : ℕ} (h : CallAt tr r n c) (ha : ∀ n, a ≠ .rd r (.call n)) :
    CallAt (tr ++ [a]) r n c :=
  ⟨h.1.snoc_of_not fun ⟨n, hn⟩ => ha n hn, getElem?_snoc_of_some h.2 a⟩

omit [DecidableEq R] in
/-- A call is one of the accesses made. -/
theorem CallAt.lt_length {n : ℤ} {c : ℕ} (h : CallAt tr r n c) : c < tr.length := h.1.lt_length

/-- What was not ready at some time was not ready then. -/
theorem NothingReady.snoc {c : ℕ} (h : NothingReady tr r c) (a : SlotEv R) :
    NothingReady (tr ++ [a]) r c := by
  obtain ⟨q, hcq, hq, h0⟩ := h
  have hlt := (List.getElem?_eq_some_iff.mp hq).1
  exact ⟨q, hcq, getElem?_snoc_of_some hq a, by rwa [take_snoc_of_le hlt.le]⟩

/-- The accesses of a kind become more. -/
theorem pubCount_le_snoc (e : PublishEv) (tr : List (SlotEv R)) (a : SlotEv R) :
    pubCount e tr ≤ pubCount e (tr ++ [a]) := by
  rw [pubCount_snoc]
  exact Nat.le_add_right _ _

/-- A descriptor that was recent at a call stays so for it. -/
theorem Recent.snoc {c m : ℕ} {d : TensorDescriptor} (h : Recent tr c m d) (hc : c ≤ tr.length)
    (a : SlotEv R) : Recent (tr ++ [a]) c m d where
  arg := publishArgs_getElem?_snoc h.arg a
  floor := by rw [take_snoc_of_le hc]; exact h.floor
  closed := h.closed.trans (pubCount_le_snoc _ _ _)

/-- A copy goes on undisturbed by an event that is not a first guard load of its reader. -/
theorem Copying.snoc {c b m : ℕ} {before : UInt64} {todo : List WordIdx} {tmp : ∀ i, Word i}
    {pc : PublishPc} (h : Copying tr r c b m before todo tmp) (hw : WriterCounts tr pc)
    (ha : a ≠ .rd r .loadBefore) : Copying (tr ++ [a]) r c b m before todo tmp := by
  have hb : b ≤ tr.length := h.last.lt_length.le
  refine ⟨h.after, h.last.snoc_of_not ha, h.ready.trans_le (pubCount_le_snoc _ _ _), ?_, ?_, ?_,
    fun ho d hd i hi => ?_⟩
  · rw [take_snoc_of_le hb]; exact h.opened
  · rw [take_snoc_of_le hb]; exact h.closed
  · rw [take_snoc_of_le hb]; exact h.before_eq
  · -- no publish has opened since `b`, so publish `m` is among the arguments already
    have hopened : pubCount .storeOdd tr = m + 1 := by
      have h1 := countP_take_le (fun a => decide (a = SlotEv.pub PublishEv.storeOdd)) tr b
      have h2 := pubCount_le_snoc .storeOdd tr a
      have h3 := h.opened
      unfold pubCount at *
      omega
    have hlt : m < (publishArgs tr).length := by
      have := hw.opened_le_called
      omega
    refine h.copied hopened d ?_ i hi
    rwa [publishArgs_snoc, List.getElem?_append_left hlt] at hd

/-- Events of others keep the invariant of `r`. -/
theorem ReaderInv.foreign {pc : ReadPc} {wpc : PublishPc} (h : ReaderInv tr r pc)
    (hw : WriterCounts tr wpc) (ha : ∀ e, a ≠ .rd r e) : ReaderInv (tr ++ [a]) r pc := by
  -- an event of another party extends the history that each phase looks back on
  cases pc with
  | idle => exact trivial
  | called n =>
      obtain ⟨c, hc, hatt⟩ := h
      exact ⟨c, hc.snoc fun n => ha _, hatt.snoc_of_ne (ha _)⟩
  | attempt n k =>
      obtain ⟨c, atts, hc, hatt, hk, hkn, hready⟩ := h
      exact ⟨c, atts, hc.snoc fun n => ha _, hatt.snoc_of_ne (ha _), hk, hkn,
        hready.trans_le (pubCount_le_snoc _ _ _)⟩
  | copying n k before todo tmp =>
      obtain ⟨c, atts, b, m, hc, hatt, hk, hkn, hcopy⟩ := h
      exact ⟨c, atts, b, m, hc.snoc fun n => ha _, hatt.snoc hcopy.last.lt_length.le a, hk, hkn,
        hcopy.snoc hw (ha _)⟩
  | done res k =>
      cases res with
      | some d =>
          obtain ⟨c, n, m, hc, hrec⟩ := h
          exact ⟨c, n, m, hc.snoc fun n => ha _, hrec.snoc hc.lt_length.le a⟩
      | none =>
          obtain ⟨c, n, hc, hfail⟩ := h
          refine ⟨c, n, hc.snoc fun n => ha _, fun hn => (hfail hn).imp (·.snoc a) ?_⟩
          rintro ⟨atts, hatt, hlen⟩
          exact ⟨atts, hatt.snoc_of_ne (ha _), hlen⟩

end Foreign

/-- **No wrap of the guard between the two loads of an attempt**: fewer than `2 ^ 63` publishes close
between them. -/
def NoGuardWrap (tr : List (SlotEv R)) : Prop :=
  ∀ r b e, tr[b]? = some (.rd r .loadBefore) → tr[e]? = some (.rd r .loadAfter) → b < e →
    (∀ q, b < q → q < e → tr[q]? ≠ some (.rd r .loadBefore)) →
    pubCount .storeEven (tr.take e) < pubCount .storeEven (tr.take b) + 2 ^ 63

namespace NoGuardWrap

variable {tr tr' : List (SlotEv R)}

/-- A history without a wrap has prefixes without one. -/
theorem of_append (h : NoGuardWrap (tr ++ tr')) : NoGuardWrap tr := by
  intro r b e hb he hbe hno
  have hlt := (List.getElem?_eq_some_iff.mp he).1
  have := h r b e (by rwa [List.getElem?_append_left (by omega)])
    (by rwa [List.getElem?_append_left hlt]) hbe fun q hbq hqe hq =>
      hno q hbq hqe (by rwa [List.getElem?_append_left (by omega)] at hq)
  rwa [List.take_append_of_le_length hlt.le,
    List.take_append_of_le_length (hbe.trans hlt).le] at this

/-- No prefix of a run has wrapped either. -/
theorem take (h : NoGuardWrap tr) (p : ℕ) : NoGuardWrap (tr.take p) := by
  rw [← List.take_append_drop p tr] at h
  exact h.of_append

/-- A history shorter than `2 ^ 63` has no wrap. -/
theorem of_length_lt (h : tr.length < 2 ^ 63) : NoGuardWrap tr := by
  intro r b e _ _ _ _
  have h1 : pubCount .storeEven (tr.take e) ≤ (tr.take e).length := List.countP_le_length
  rw [List.length_take] at h1
  omega

end NoGuardWrap

section Own

variable {tr : List (SlotEv R)} {s : SlotState R} {r : R}

/-- After a busy attempt the reader tries again or gives up, with one more attempt on record. -/
theorem ReaderInv.nextAttempt {n : ℤ} {k c : ℕ} {atts : List (ℕ × ℕ)} (hc : CallAt tr r n c)
    (hatt : Attempts tr r c tr.length atts) (hk : atts.length = k + 1) (hkn : (k : ℤ) ≤ n)
    (hready : 0 < pubCount .setReady tr) : ReaderInv tr r (.nextAttempt n k) := by
  unfold ReadPc.nextAttempt
  split_ifs with hnext
  · exact ⟨c, atts, hc, hatt, hk, hnext, hready⟩
  · exact ⟨c, n, hc, fun _ => .inr ⟨atts, hatt, by omega⟩⟩

/-- The second load of the guard agrees with the first only when no store to the guard has happened in
between. -/
theorem Copying.unmoved {c b m : ℕ} {before : UInt64} {tmp : ∀ i, Word i}
    (h : Copying tr r c b m before [] tmp) (hw : WriterInv tr s) (hsame : before = s.slot.guard)
    (hwrap : pubCount .storeEven tr < m + 1 + 2 ^ 63) :
    pubCount .storeOdd tr = m + 1 ∧ pubCount .storeEven tr = m + 1 := by
  have hodd := countP_take_le (fun a => decide (a = SlotEv.pub PublishEv.storeOdd)) tr b
  have heven := countP_take_le (fun a => decide (a = SlotEv.pub PublishEv.storeEven)) tr b
  have ho := h.opened
  have hc := h.closed
  have hle := hw.counts.opened_le_closed_succ
  have heq := hsame
  rw [h.before_eq, hw.guard, ho, hc] at heq
  unfold pubCount at *
  have := uint64_ofNat_inj_of_lt heq (by omega) (by omega)
  omega

/-- An attempt that finds the guard odd: some publish has opened and not closed. -/
theorem Attempts.odd {c : ℕ} {atts : List (ℕ × ℕ)} (h : Attempts tr r c tr.length atts) (hc : c < tr.length)
    (hw : WriterInv tr s) (hodd : s.slot.guard &&& 1 ≠ 0) :
    Attempts (tr ++ [.rd r .loadBefore]) r c (tr ++ [SlotEv.rd r .loadBefore]).length
      (atts ++ [(tr.length, tr.length)]) := by
  -- an odd guard was stored by a publish that has not closed the slot yet
  have hopen : pubCount .storeEven tr ≠ pubCount .storeOdd tr := by
    intro heq
    refine hodd ?_
    rw [hw.guard, uint64_ofNat_and_one_eq_zero]
    omega
  -- this publish is in progress when the guard is loaded
  have hin : InProgress (tr ++ [.rd r .loadBefore]) tr.length := by
    rw [InProgress, List.take_left]
    exact hw.counts.returned_lt_called hopen
  have hload : (tr ++ [SlotEv.rd r .loadBefore])[tr.length]? = some (.rd r .loadBefore) := by simp
  refine (h.snoc le_rfl _).add rfl hc le_rfl (by simp)
    ⟨hload, .inl rfl, tr.length, le_rfl, le_rfl, hin⟩ fun q hq hq' => ?_
  rw [List.length_append, List.length_singleton] at hq'
  omega

/-- A copy begins at an even guard, when every publish that has opened has closed. -/
theorem Copying.begin {c : ℕ} (hc : c < tr.length) (hw : WriterInv tr s) (hready : 0 < pubCount .setReady tr)
    (heven : s.slot.guard &&& 1 = 0) (tmp : ∀ i, Word i) :
    ∃ m, Copying (tr ++ [.rd r .loadBefore]) r c tr.length m s.slot.guard WordIdx.all tmp := by
  have hshut : pubCount .storeOdd tr = pubCount .storeEven tr := by
    rw [hw.guard, uint64_ofNat_and_one_eq_zero] at heven
    have := hw.counts.closed_le_opened
    have := hw.counts.opened_le_closed_succ
    omega
  obtain ⟨m, hm⟩ : ∃ m, pubCount .storeEven tr = m + 1 :=
    Nat.exists_eq_succ_of_ne_zero (by have := hw.counts.readied_le_closed; omega)
  refine ⟨m, hc, .snoc_self rfl, by rwa [pubCount_snoc_rd], ?_, ?_, ?_, fun _ _ _ i hi => ?_⟩
  · rw [List.take_left, hshut, hm]
  · rw [List.take_left, hm]
  · rw [List.take_left, hw.guard]
  · exact absurd (WordIdx.mem_all i) hi

/-- A word is copied: with no publish opened since, it is that of the last closed one. -/
theorem Copying.copyWord {c b m : ℕ} {before : UInt64} {todo : List WordIdx} {tmp : ∀ i, Word i}
    (h : Copying tr r c b m before todo tmp) (hw : WriterInv tr s) (i : WordIdx) :
    Copying (tr ++ [.rd r (.copyWord i)]) r c b m before (todo.filter (· ≠ i))
      (Function.update tmp i (s.slot.desc i)) := by
  have h' := h.snoc hw.counts (a := .rd r (.copyWord i)) (by simp)
  refine ⟨h'.after, h'.last, h'.ready, h'.opened, h'.closed, h'.before_eq, fun ho d hd j hj => ?_⟩
  -- the word copied now, or one that was copied before
  by_cases hji : j = i
  · subst hji
    rw [pubCount_snoc_rd] at ho
    -- the slot has not been opened since, so the word is that of frame `m`
    have hclosed : pubCount .storeEven tr = m + 1 := by
      have h1 := countP_take_le (fun a => decide (a = SlotEv.pub PublishEv.storeEven)) tr b
      have h2 := h.closed
      have h3 := hw.counts.closed_le_opened
      unfold pubCount at *
      omega
    rw [publishArgs_snoc_of_ne (by simp)] at hd
    rw [Function.update_self, hw.stable (ho.trans hclosed.symm) m d hclosed hd]
  · rw [Function.update_of_ne hji]
    exact h'.copied ho d hd j fun hmem => hj (by simp [hmem, hji])

/-- A copy that finds the guard unchanged has copied a recent publish. -/
theorem Copying.same {c b m : ℕ} {before : UInt64} {tmp : ∀ i, Word i} (h : Copying tr r c b m before [] tmp)
    (hw : WriterInv tr s) (hwrap : NoGuardWrap (tr ++ [.rd r .loadAfter])) (hsame : before = s.slot.guard) :
    Recent (tr ++ [.rd r .loadAfter]) c m (.ofWords tmp) := by
  have hb := h.last.lt_length
  obtain ⟨⟨a, ha, rfl⟩, hlastb⟩ := id h.last
  -- few enough publishes for the guard not to have come round to the same value
  have hfew := hwrap r b tr.length (getElem?_snoc_of_some ha _) (by simp) hb fun q hbq hq hload => by
    rw [List.getElem?_append_left hq] at hload
    exact hlastb q _ hbq hload rfl
  rw [List.take_left, take_snoc_of_le hb.le, h.closed] at hfew
  obtain ⟨hopened, hclosed⟩ := h.unmoved hw hsame hfew
  have hm : m < (publishArgs tr).length := by
    have := hw.counts.opened_le_called
    omega
  -- every word is of the frame that was in the slot at the first load
  have htmp : tmp = ((publishArgs tr)[m]).words := by
    funext i
    exact h.copied hopened _ (List.getElem?_eq_getElem hm) i (by simp)
  refine ⟨?_, ?_, ?_⟩
  · rw [publishArgs_snoc_of_ne (by simp), htmp, ofWords_words, List.getElem?_eq_getElem hm]
  · rw [take_snoc_of_le (h.after.trans hb).le, ← h.closed]
    exact countP_take_mono _ tr h.after.le
  · rw [pubCount_snoc_rd, hclosed]

/-- A copy that finds the guard moved: a publish was in progress during the attempt. -/
theorem Copying.moved {c b m : ℕ} {before : UInt64} {tmp : ∀ i, Word i} {atts : List (ℕ × ℕ)}
    (h : Copying tr r c b m before [] tmp) (hatt : Attempts tr r c b atts) (hw : WriterInv tr s)
    (hrun : (slotMachine R).Run tr s) (hmoved : before ≠ s.slot.guard) :
    Attempts (tr ++ [.rd r .loadAfter]) r c (tr ++ [SlotEv.rd r .loadAfter]).length (atts ++ [(b, tr.length)]) := by
  have hb := h.last.lt_length
  -- the guard has moved on, so more publishes have begun or closed it
  have hmore : pubCount .storeOdd (tr.take b) + pubCount .storeEven (tr.take b) <
      pubCount .storeOdd (tr.take tr.length) + pubCount .storeEven (tr.take tr.length) := by
    rw [List.take_length]
    have h1 := countP_take_le (fun a => decide (a = SlotEv.pub PublishEv.storeOdd)) tr b
    have h2 := countP_take_le (fun a => decide (a = SlotEv.pub PublishEv.storeEven)) tr b
    refine lt_of_le_of_ne (Nat.add_le_add h1 h2) fun heq => hmoved ?_
    rw [h.before_eq, heq, hw.guard]
  -- one of these was in progress between the two loads
  obtain ⟨q, hbq, hq, hin⟩ := inProgress_of_guard_moved hrun hmore
  obtain ⟨⟨a, ha, rfl⟩, hlastb⟩ := id h.last
  refine (hatt.snoc hb.le _).add rfl h.after hb.le (by simp)
    ⟨getElem?_snoc_of_some ha _, .inr (by simp), q, hbq, hq.le, hin.snoc hq.le _⟩ fun q' hbq' hq' hload => ?_
  rcases getElem?_snoc_cases hload with hload | ⟨-, hload⟩
  · exact hlastb q' _ hbq' hload rfl
  · simp at hload

/-- **The accesses of `r` keep its invariant.** -/
theorem ReaderInv.own {pc pc' : ReadPc} {e : ReadEv} (h : ReaderInv tr r pc) (hw : WriterInv tr s)
    (hrun : (slotMachine R).Run tr s) (hwrap : NoGuardWrap (tr ++ [.rd r e]))
    (hc : ReadCase s.slot pc e pc') : ReaderInv (tr ++ [.rd r e]) r pc' := by
  have hlast : (tr ++ [SlotEv.rd r e])[tr.length]? = some (.rd r e) := by simp
  have hcount : ∀ e', pubCount e' (tr ++ [.rd r e]) = pubCount e' tr := fun e' =>
    pubCount_snoc_rd e' tr r e
  -- each step of the reader adds to what its phase remembers
  cases hc with
  | call n =>
      refine ⟨tr.length, ⟨.snoc_self ⟨n, rfl⟩, hlast⟩, .nil, by simp, by simp, fun b hb hb' _ => ?_⟩
      rw [List.length_append, List.length_singleton] at hb'
      omega
  | lookEmpty n h0 =>
      obtain ⟨c, hcall, -⟩ := h
      refine ⟨c, n, hcall.snoc (by simp), fun _ => .inl ⟨tr.length, hcall.lt_length, hlast, ?_⟩⟩
      rw [List.take_left]
      exact hw.ready.mp h0
  | lookNone n h0 hn =>
      obtain ⟨c, hcall, -⟩ := h
      exact ⟨c, n, hcall.snoc (by simp), fun hn' => absurd hn (not_lt.mpr hn')⟩
  | look n h0 hn =>
      obtain ⟨c, hcall, hatt⟩ := h
      refine ⟨c, [], hcall.snoc (by simp), hatt.snoc_of_ne (by simp), rfl, hn, ?_⟩
      rw [hcount]
      exact Nat.pos_of_ne_zero fun h => h0 (hw.ready.mpr h)
  -- an odd guard ends the attempt at once, an even one begins the copy
  | loadOdd n k hodd =>
      obtain ⟨c, atts, hcall, hatt, hk, hkn, hready⟩ := h
      exact .nextAttempt (hcall.snoc (by simp)) (hatt.odd hcall.lt_length hw hodd) (by simp [hk]) hkn
        (by rwa [hcount])
  | loadEven n k heven =>
      obtain ⟨c, atts, hcall, hatt, hk, hkn, hready⟩ := h
      obtain ⟨m, hcopy⟩ := Copying.begin (r := r) hcall.lt_length hw hready heven _
      exact ⟨c, atts, tr.length, m, hcall.snoc (by simp), hatt.snoc le_rfl _, hk, hkn, hcopy⟩
  | copyWord n k before todo tmp i hi =>
      obtain ⟨c, atts, b, m, hcall, hatt, hk, hkn, hcopy⟩ := h
      exact ⟨c, atts, b, m, hcall.snoc (by simp), hatt.snoc hcopy.last.lt_length.le _, hk, hkn,
        hcopy.copyWord hw i⟩
  | loadSame n k before tmp hsame =>
      obtain ⟨c, atts, b, m, hcall, -, -, -, hcopy⟩ := h
      exact ⟨c, n, m, hcall.snoc (by simp), hcopy.same hw hwrap hsame⟩
  -- the attempt was overlapped; the next one begins, if there is one left
  | loadMoved n k before tmp hmoved =>
      obtain ⟨c, atts, b, m, hcall, hatt, hk, hkn, hcopy⟩ := h
      exact .nextAttempt (hcall.snoc (by simp)) (hcopy.moved hatt hw hrun hmoved) (by simp [hk]) hkn
        (by rw [hcount]; exact hcopy.ready)
  | ret res k => exact trivial

end Own

/-- The readers' invariant holds throughout every run without a wrap. -/
theorem ReaderInv.of_run {tr : List (SlotEv R)} {s : SlotState R} (h : (slotMachine R).Run tr s)
    (hw : NoGuardWrap tr) (r : R) : ReaderInv tr r (s.readers r) := by
  refine h.invariant (P := fun tr s => NoGuardWrap tr → ∀ r, ReaderInv tr r (s.readers r)) ?_ ?_ hw r
  · rintro s rfl - r
    exact trivial
  · intro tr s a s' hrun ih hstep hw r
    have hwriter := WriterInv.of_run hrun
    have hold := ih hw.of_append r
    cases SlotState.step_cases hstep with
    | pub hc => exact hold.foreign hwriter.counts (by simp)
    | raise r' => exact hold.foreign hwriter.counts (by simp)
    -- a step of this reader, or of another
    | @rd r' e pc hc =>
        by_cases hr : r = r'
        · subst hr
          simpa using hold.own hwriter hrun hw hc
        · simp only [Function.update_of_ne hr]
          exact hold.foreign hwriter.counts fun e h => hr (SlotEv.rd.inj h).1.symm

end Axon
