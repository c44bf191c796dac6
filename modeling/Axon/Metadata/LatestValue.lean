import Axon.Foundation.Register
import Axon.Metadata.Reader

/-! # The slot refines a latest-value register

`slot_refines_register`: seen from outside, at the calls and returns of `publish` and `read_latest`, every
run of the slot in which the guard does not wrap is a run of the abstract register machine. A publish
commits at the store that makes the guard even again. -/

namespace Axon

open Foundation TensorDescriptor

variable {R : Type} [DecidableEq R]

/-- What an access to the slot is to the register: most are invisible. -/
def SlotEv.toRegister : SlotEv R → Option (RegisterEv R TensorDescriptor)
  | .pub (.call d) => some (.begin d)
  | .pub .storeEven => some .commit
  | .pub .ret => some .finish
  | .rd r (.call n) => some (.readCall r (decide (0 ≤ n)))
  | .rd r (.ret res _) => some (.readRet r res)
  | _ => none

/-- The writer of the register that a writer of the slot looks like. -/
def PublishPc.toPhase : PublishPc → WritePhase TensorDescriptor
  | .idle => .idle
  | .loaded d _ => .writing d
  | .copying d _ _ => .writing d
  | .released => .committed
  | .readied => .committed
  | .notified => .committed
  | .taken _ => .committed

/-- The read of the register that a read of the slot looks like: it may miss only if it never tries, if
no publish had returned when it was called, or if a publish has been in progress since. -/
structure ReadSim (tr : List (SlotEv R)) (r : R) (p : PendingRead) : Prop where
  call : ∃ c n, CallAt tr r n c ∧ p.floor = pubCount .storeEven (tr.take c) ∧
    (p.mayMiss = false → 0 ≤ n ∧ 0 < pubCount .ret (tr.take c) ∧
      ∀ q, c ≤ q → q ≤ tr.length → ¬ InProgress tr q)

/-- **The simulation** between a slot with its history and a register. -/
structure SlotSim (tr : List (SlotEv R)) (s : SlotState R) (g : Register R TensorDescriptor) :
    Prop where
  values : g.values = (publishArgs tr).take (pubCount .storeEven tr)
  writer : g.writer = s.writer.toPhase
  finished : g.finished = pubCount .ret tr
  idle : ∀ r, s.readers r = .idle ↔ g.readers r = none
  reads : ∀ r p, g.readers r = some p → ReadSim tr r p

namespace ReadSim

variable {tr : List (SlotEv R)} {r : R} {p : PendingRead}

/-- Any event but a call of `publish` or of this reader keeps the simulation of a read. -/
theorem snoc (h : ReadSim tr r p) {a : SlotEv R} (hr : ∀ n, a ≠ .rd r (.call n))
    (hp : ∀ d, a ≠ .pub (.call d)) : ReadSim (tr ++ [a]) r p := by
  obtain ⟨c, n, hcall, hfloor, hsure⟩ := h.call
  have hc := hcall.lt_length.le
  refine ⟨c, n, hcall.snoc hr, by rwa [take_snoc_of_le hc], fun hm => ?_⟩
  obtain ⟨hn, hret, hno⟩ := hsure hm
  refine ⟨hn, by rwa [take_snoc_of_le hc], fun q hcq hq hin => ?_⟩
  rcases Nat.lt_or_ge tr.length q with hlt | hle
  · -- at the new end: nothing was in progress before `a`, and `a` calls no publish
    have hlast := hno tr.length hc le_rfl
    have hq' : q = (tr ++ [a]).length := by simp at hq ⊢; omega
    have hmono := pubCount_le_snoc .ret tr a
    rw [InProgress, List.take_length] at hlast
    rw [InProgress, hq', List.take_length, publishArgs_snoc_of_ne hp] at hin
    omega
  · rw [InProgress, take_snoc_of_le hle] at hin
    exact hno q hcq hle hin

/-- A call of `publish` keeps the simulation of a read that may miss from now on. -/
theorem snoc_call (h : ReadSim tr r p) (d : TensorDescriptor) :
    ReadSim (tr ++ [.pub (.call d)]) r { p with mayMiss := true } := by
  obtain ⟨c, n, hcall, hfloor, -⟩ := h.call
  exact ⟨c, n, hcall.snoc (by simp), by rwa [take_snoc_of_le hcall.lt_length.le], nofun⟩

/-- The call of a read establishes the simulation. -/
theorem of_call {s : SlotState R} (hw : WriterInv tr s) (r : R) (n : ℤ) :
    ReadSim (tr ++ [.rd r (.call n)]) r
      { floor := pubCount .storeEven tr
        mayMiss := !(decide (0 ≤ n) && decide (0 < pubCount .ret tr) &&
          decide (s.writer.toPhase = .idle)) } := by
  refine ⟨tr.length, n, ⟨.snoc_self ⟨n, rfl⟩, by simp⟩, by simp, fun hm => ?_⟩
  simp only [Bool.not_eq_false', Bool.and_eq_true, decide_eq_true_eq] at hm
  -- the call must not miss if a publish has returned and none is in progress
  obtain ⟨⟨hn, hret⟩, hidle⟩ := hm
  have hcalled := hw.counts.called
  -- an idle writer has no publish under way
  have hstage : s.writer.stage = 0 := by
    generalize s.writer = pc at hidle
    cases pc <;> simp_all [PublishPc.toPhase, PublishPc.stage]
  rw [hstage, if_neg (by decide), Nat.add_zero] at hcalled
  refine ⟨hn, by simpa using hret, fun q hq hq' hin => ?_⟩
  simp only [List.length_append, List.length_singleton] at hq'
  -- nothing has happened since the call
  obtain rfl | rfl : q = tr.length ∨ q = tr.length + 1 := by omega
  · simp [InProgress] at hin
    omega
  · rw [InProgress, List.take_of_length_le (by simp), publishArgs_snoc_of_ne (by simp),
      pubCount_snoc_rd] at hin
    omega

end ReadSim

namespace SlotSim

variable {tr : List (SlotEv R)} {s s' : SlotState R} {g : Register R TensorDescriptor}

/-- An access of the writer that calls, commits and returns nothing is invisible. -/
theorem pub_invisible (h : SlotSim tr s g) {e : PublishEv} {m : MetadataSlot} {pc : PublishPc}
    (hcall : ∀ d, e ≠ .call d) (heven : e ≠ .storeEven) (hret : e ≠ .ret)
    (hphase : pc.toPhase = s.writer.toPhase) :
    SlotSim (tr ++ [.pub e]) { s with slot := m, writer := pc } g where
  values := by
    rw [publishArgs_snoc_of_ne fun d hd => hcall d (SlotEv.pub.inj hd), pubCount_snoc_pub,
      if_neg heven, Nat.add_zero, h.values]
  writer := h.writer.trans hphase.symm
  finished := by rw [pubCount_snoc_pub, if_neg hret, Nat.add_zero, h.finished]
  idle := h.idle
  reads r p hp := (h.reads r p hp).snoc (by simp) fun d hd => hcall d (SlotEv.pub.inj hd)

/-- **The writer's accesses** are the register's, or invisible. -/
theorem pub (h : SlotSim tr s g) (hw : WriterInv tr s) {e : PublishEv} {m : MetadataSlot}
    {pc : PublishPc} (hc : PublishCase s.slot s.writer e m pc) :
    match SlotEv.toRegister (.pub e : SlotEv R) with
    | some b => ∃ g', g.step b = some g' ∧
        SlotSim (tr ++ [.pub e]) { s with slot := m, writer := pc } g'
    | none => SlotSim (tr ++ [.pub e]) { s with slot := m, writer := pc } g := by
  have hcounts := hw.counts
  have hloaded := hw.loaded
  have hcopying := hw.copying
  obtain ⟨hvalues, hwriter, hfinished, hidle, hreads⟩ := id h
  generalize hpc : s.writer = wpc at hc hcounts hwriter hloaded hcopying
  cases hc with
  | call d =>
      -- the write begins with the call
      refine ⟨_, Register.step_begin hwriter d, ?_, rfl, ?_, ?_, ?_⟩
      · have hle : pubCount .storeEven tr ≤ (publishArgs tr).length :=
          hcounts.closed_le_opened.trans hcounts.opened_le_called
        simp [publishArgs_snoc_call, pubCount_snoc_pub, hvalues, List.take_append_of_le_length hle]
      · simp [pubCount_snoc_pub, hfinished]
      · intro r
        simp [hidle r]
      · intro r p hp
        obtain ⟨p', hp', rfl⟩ := Option.map_eq_some_iff.mp hp
        exact (hreads r p' hp').snoc_call d
  | storeEven d gd =>
      -- the closing guard store is where the value takes effect
      obtain ⟨hd, -⟩ := hcopying d gd [] rfl
      have hclosed : pubCount .storeEven tr = pubCount .ret tr := by
        simpa [PublishPc.stage] using hcounts.closed
      refine ⟨_, Register.step_commit hwriter, ?_, rfl, ?_, hidle,
        fun r p hp => (hreads r p hp).snoc (by simp) (by simp)⟩
      · simp [publishArgs_snoc_of_ne, pubCount_snoc_pub, hvalues, List.take_add_one, hclosed, hd]
      · simp [pubCount_snoc_pub, hfinished]
  | ret =>
      -- the write ends with the return
      refine ⟨_, Register.step_finish hwriter, ?_, rfl, ?_, hidle,
        fun r p hp => (hreads r p hp).snoc (by simp) (by simp)⟩
      · simp [publishArgs_snoc_of_ne, pubCount_snoc_pub, hvalues]
      · simp [pubCount_snoc_pub, hfinished]
  -- the other accesses are not seen from outside
  | storeOdd d gd => exact h.pub_invisible (by simp) (by simp) (by simp) (by rw [hpc]; rfl)
  | copyWord d gd todo i hi => exact h.pub_invisible (by simp) (by simp) (by simp) (by rw [hpc]; rfl)
  | setReady => exact h.pub_invisible (by simp) (by simp) (by simp) (by rw [hpc]; rfl)
  | bumpNotify => exact h.pub_invisible (by simp) (by simp) (by simp) (by rw [hpc]; rfl)
  | takeWaiters => exact h.pub_invisible (by simp) (by simp) (by simp) (by rw [hpc]; rfl)
  | wake => exact h.pub_invisible (by simp) (by simp) (by simp) (by rw [hpc]; rfl)

/-- An access of a reader inside a call is invisible. -/
theorem rd_invisible (h : SlotSim tr s g) {r : R} {e : ReadEv} {pc : ReadPc}
    (hcall : ∀ n, e ≠ .call n) (hpc : s.readers r ≠ .idle) (hpc' : pc ≠ .idle) :
    SlotSim (tr ++ [.rd r e]) { s with readers := Function.update s.readers r pc } g where
  values := by rw [publishArgs_snoc_of_ne (by simp), pubCount_snoc_rd, h.values]
  writer := h.writer
  finished := by rw [pubCount_snoc_rd, h.finished]
  idle r' := by
    by_cases hr : r' = r
    · subst hr
      simp only [Function.update_self, ← h.idle r']
      exact iff_of_false hpc' hpc
    · simp only [Function.update_of_ne hr, h.idle r']
  reads r' p hp := (h.reads r' p hp).snoc (fun n hn => hcall n (SlotEv.rd.inj hn).2) (by simp)

/-- The call of a read is the register's. -/
theorem readCall (h : SlotSim tr s g) (hw : WriterInv tr s) {r : R} (hpc : s.readers r = .idle)
    (n : ℤ) : ∃ g', g.step (.readCall r (decide (0 ≤ n))) = some g' ∧
      SlotSim (tr ++ [.rd r (.call n)])
        { s with readers := Function.update s.readers r (.called n) } g' := by
  have hlen : g.values.length = pubCount .storeEven tr := by
    rw [h.values, List.length_take]
    exact min_eq_left (hw.counts.closed_le_opened.trans hw.counts.opened_le_called)
  refine ⟨_, Register.step_readCall ((h.idle r).mp hpc) _, ?_, h.writer, ?_, fun r' => ?_,
    fun r' p hp => ?_⟩
  · rw [publishArgs_snoc_of_ne (by simp), pubCount_snoc_rd, h.values]
  · rw [pubCount_snoc_rd, h.finished]
  -- the other readers are where they were
  · by_cases hr : r' = r
    · subst hr
      simp
    · simp only [Function.update_of_ne hr, h.idle r']
  · by_cases hr : r' = r
    · subst hr
      -- the read that begins now
      obtain rfl := Option.some.inj ((Function.update_self r' _ g.readers).symm.trans hp)
      rw [hlen, h.writer, h.finished]
      exact .of_call hw r' n
    · simp only [Function.update_of_ne hr] at hp
      refine (h.reads r' p hp).snoc (fun n' hn => hr ?_) (by simp)
      exact (SlotEv.rd.inj hn).1.symm

/-- What a read of the slot returns, the register's read may return. -/
theorem mayReturn (h : SlotSim tr s g) (hrun : (slotMachine R).Run tr s) {r : R} {p : PendingRead}
    {res : Option TensorDescriptor} {k : ℕ} (hp : g.readers r = some p)
    (hinv : ReaderInv tr r (.done res k)) : g.MayReturn p res := by
  obtain ⟨c, n, hcall, hfloor, hsure⟩ := (h.reads r p hp).call
  cases res with
  | some d =>
      obtain ⟨c', n', m, hcall', hrec⟩ := hinv
      obtain ⟨rfl, rfl⟩ := hcall.unique hcall'
      have hclosed := hrec.closed
      have hge := hrec.floor
      refine List.mem_iff_getElem?.mpr ⟨m - (p.floor - 1), ?_⟩
      rw [List.getElem?_drop, h.values, show p.floor - 1 + (m - (p.floor - 1)) = m by omega,
        List.getElem?_take_of_lt (by omega), hrec.arg]
  | none =>
      obtain ⟨c', n', hcall', hfail⟩ := hinv
      obtain ⟨rfl, rfl⟩ := hcall.unique hcall'
      show p.mayMiss = true
      by_contra hm
      obtain ⟨hn, hret, hno⟩ := hsure (eq_false_of_ne_true hm)
      rcases hfail hn with ⟨q, hcq, hq, h0⟩ | ⟨atts, hatt, hlen⟩
      · -- a publish had returned at the call, so `ready` was set when the read looked
        obtain ⟨s₁, -, hr₁, -⟩ := hrun.step_at hq
        have hready := (WriterInv.of_run hr₁).counts.returned_le_readied
        have hmono : pubCount .ret (tr.take c) ≤ pubCount .ret (tr.take q) :=
          countP_take_mono _ tr hcq.le
        omega
      · -- the first attempt overlapped a publish in progress
        obtain ⟨a, ha⟩ : ∃ a, a ∈ atts := List.exists_mem_of_length_pos (by omega)
        obtain ⟨hca, -, hlt⟩ := hatt.within a ha
        obtain ⟨-, -, q, hq, hq', hin⟩ := hatt.overlapped a ha
        exact hno q (by omega) (by omega) hin

/-- The return of a read is the register's. -/
theorem readRet (h : SlotSim tr s g) (hrun : (slotMachine R).Run tr s) {r : R}
    {res : Option TensorDescriptor} {k : ℕ} (hpc : s.readers r = .done res k)
    (hinv : ReaderInv tr r (.done res k)) : ∃ g', g.step (.readRet r res) = some g' ∧
      SlotSim (tr ++ [.rd r (.ret res k)])
        { s with readers := Function.update s.readers r .idle } g' := by
  -- a reader that has an answer is reading in the register too
  obtain ⟨p, hp⟩ : ∃ p, g.readers r = some p := by
    refine Option.ne_none_iff_exists'.mp fun hnone => ?_
    have := (h.idle r).mpr hnone
    simp [hpc] at this
  refine ⟨_, Register.step_readRet hp (h.mayReturn hrun hp hinv), ?_, h.writer, ?_, fun r' => ?_,
    fun r' p' hp' => ?_⟩
  · rw [publishArgs_snoc_of_ne (by simp), pubCount_snoc_rd, h.values]
  · rw [pubCount_snoc_rd, h.finished]
  · by_cases hr : r' = r
    · subst hr
      simp
    · simp only [Function.update_of_ne hr, h.idle r']
  · by_cases hr : r' = r
    · subst hr
      simp at hp'
    · simp only [Function.update_of_ne hr] at hp'
      exact (h.reads r' p' hp').snoc (by simp) (by simp)

/-- **The accesses of a reader** are the register's, or invisible. -/
theorem rd (h : SlotSim tr s g) (hw : WriterInv tr s) (hrun : (slotMachine R).Run tr s) {r : R}
    {e : ReadEv} {pc : ReadPc} (hinv : ReaderInv tr r (s.readers r))
    (hc : ReadCase s.slot (s.readers r) e pc) :
    match SlotEv.toRegister (.rd r e) with
    | some b => ∃ g', g.step b = some g' ∧
        SlotSim (tr ++ [.rd r e]) { s with readers := Function.update s.readers r pc } g'
    | none => SlotSim (tr ++ [.rd r e]) { s with readers := Function.update s.readers r pc } g := by
  generalize hpc : s.readers r = rpc at hc hinv
  -- calling and returning are seen from outside, all other steps are not
  cases hc with
  | call n => exact h.readCall hw hpc n
  | ret res k => exact h.readRet hrun hpc hinv
  | lookEmpty n h0 => exact h.rd_invisible nofun (by simp [hpc]) nofun
  | lookNone n h0 hn => exact h.rd_invisible nofun (by simp [hpc]) nofun
  | look n h0 hn => exact h.rd_invisible nofun (by simp [hpc]) nofun
  | loadOdd n k hg => exact h.rd_invisible nofun (by simp [hpc]) (ReadPc.nextAttempt_ne_idle n k)
  | loadEven n k hg => exact h.rd_invisible nofun (by simp [hpc]) nofun
  | copyWord n k b todo tmp i hi => exact h.rd_invisible nofun (by simp [hpc]) nofun
  | loadSame n k b tmp hb => exact h.rd_invisible nofun (by simp [hpc]) nofun
  | loadMoved n k b tmp hb =>
      exact h.rd_invisible nofun (by simp [hpc]) (ReadPc.nextAttempt_ne_idle n k)

/-- Raising the waiter flag is invisible. -/
theorem raise (h : SlotSim tr s g) (r : R) :
    SlotSim (tr ++ [.raise r]) { s with slot := { s.slot with waiters := 1 } } g where
  values := by
    rw [publishArgs_snoc_of_ne (by simp), pubCount_snoc_raise, h.values]
  writer := h.writer
  finished := by rw [pubCount_snoc_raise, h.finished]
  idle := h.idle
  reads r p hp := (h.reads r p hp).snoc (by simp) (by simp)

end SlotSim

/-- **The slot refines a latest-value register**: the calls, commits and returns of every run without a
wrap of the guard are a run of the register machine. -/
theorem slot_refines_register {tr : List (SlotEv R)} {s : SlotState R}
    (hrun : (slotMachine R).Run tr s) (hw : NoGuardWrap tr) :
    ∃ g, (registerMachine R TensorDescriptor).Run (tr.filterMap SlotEv.toRegister) g ∧
      SlotSim tr s g := by
  refine hrun.invariant (P := fun tr s => NoGuardWrap tr → ∃ g,
    (registerMachine R TensorDescriptor).Run (tr.filterMap SlotEv.toRegister) g ∧ SlotSim tr s g)
    ?_ ?_ hw
  · rintro s rfl -
    exact ⟨.initial, .nil rfl, rfl, rfl, rfl, fun r => ⟨fun _ => rfl, fun _ => rfl⟩, nofun⟩
  · intro tr s a s' hrun ih hstep hw
    obtain ⟨g, hg, hsim⟩ := ih hw.of_append
    have hwriter := WriterInv.of_run hrun
    -- one access is one event of the register or none
    have hone : match a.toRegister with
        | some b => ∃ g', g.step b = some g' ∧ SlotSim (tr ++ [a]) s' g'
        | none => SlotSim (tr ++ [a]) s' g := by
      cases SlotState.step_cases hstep with
      | pub hc => exact hsim.pub hwriter hc
      | rd hc => exact hsim.rd hwriter hrun (ReaderInv.of_run hrun hw.of_append _) hc
      | raise r => exact hsim.raise r
    rw [List.filterMap_append]
    cases ha : a.toRegister with
    | some b =>
        rw [ha] at hone
        obtain ⟨g', hb, hsim'⟩ := hone
        exact ⟨g', by simpa [ha] using hg.snoc hb, hsim'⟩
    | none =>
        rw [ha] at hone
        exact ⟨g, by simpa [ha] using hg, hone⟩

end Axon
