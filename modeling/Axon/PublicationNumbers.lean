import Axon.Publication

/-! # The numbers of the frames published

`rejected_publish_invisible`: however `publish` calls, readers and the owner's other calls interleave, a
refused call leaves no trace but in `rejected_count`, and the frames given to the slot are numbered 1, 2,
3, … in the order in which they were accepted. -/

namespace Axon

open Foundation

variable {R : Type} [DecidableEq R]

namespace Publication

/-- An event is an access to the slot, or leaves it alone. -/
theorem slot_of_step {s s' : Publication R} {e : PublicationEv R} (hs : s.step e = some s') :
    (∃ a, e = .slot a ∧ s.slot.step a = some s'.slot) ∨ (e.toSlot = none ∧ s'.slot = s.slot) := by
  cases step_cases hs with
  | prod | refuse | stamp | sendFence | pickUp => exact .inr ⟨rfl, rfl⟩
  | call desc slot _ hslot => exact .inl ⟨_, rfl, hslot⟩
  | ret desc slot _ hslot => exact .inl ⟨_, rfl, hslot⟩
  | access a slot _ _ hslot => exact .inl ⟨a, rfl, hslot⟩

/-- **What a run does to the slot is a run of the slot.** -/
theorem slot_run {tr : List (PublicationEv R)} {s : Publication R}
    (h : (publicationMachine R).Run tr s) : (slotMachine R).Run (slotTrace tr) s.slot := by
  refine Machine.Run.project (M := publicationMachine R) (N := slotMachine R) (f := Publication.slot)
    (g := PublicationEv.toSlot) (fun s hs => hs.2.2) ?_ h
  intro s e s' hs
  obtain ⟨a, rfl, hslot⟩ | ⟨hnone, hsame⟩ := slot_of_step hs
  · exact hslot
  · rw [hnone]
    exact hsame

omit [DecidableEq R] in
/-- An event adds its access to the slot, if it has one. -/
theorem slotTrace_snoc (tr : List (PublicationEv R)) (e : PublicationEv R) :
    slotTrace (tr ++ [e]) = slotTrace tr ++ e.toSlot.toList := by
  rw [slotTrace, List.filterMap_append, slotTrace]
  cases he : e.toSlot with
  | none => simp [he]
  | some a => simp [he]

/-- The frame in the making, and how many frames have taken their numbers, in each phase of `publish`. -/
def Agrees (s : Publication R) : PublishPhase → Prop
  | .stamped desc _ | .fenced desc => s.prod.pub.seqno = s.prod.pub.published.length + 1 ∧
      desc.seqno = s.prod.pub.seqno
  | _ => s.prod.pub.seqno = s.prod.pub.published.length

/-- **The invariant of the numbers**: the slot is given the frames published, these are numbered from one,
and every call of `publish` has been accepted or refused. -/
structure Numbers (tr : List (PublicationEv R)) (s : Publication R) : Prop where
  args : publishArgs (slotTrace tr) = s.prod.pub.published
  numbered : s.prod.pub.published.map (·.seqno) = List.range' 1 s.prod.pub.published.length
  calls : s.prod.pub.rejected + s.prod.pub.seqno = tr.countP PublicationEv.IsPublish
  agrees : s.Agrees s.phase
  writer : s.slot.writer = .idle ↔ ∀ desc, s.phase ≠ .writing desc

namespace Numbers

variable {tr : List (PublicationEv R)} {s s' : Publication R}

/-- At the beginning nothing is numbered. -/
theorem initial (h : (publicationMachine R).init s) : Numbers [] s := by
  obtain ⟨⟨build, cfg, sys, hcreate⟩, hphase, hslot⟩ := h
  obtain ⟨hserver, hpublished, hseqno, hrejected, -, -⟩ := (Producer.create_spec hcreate).1
  refine ⟨hpublished.symm, ?_, ?_, ?_, ?_⟩
  · rw [hpublished]
    rfl
  · rw [hrejected, hseqno]
    rfl
  · rw [hphase]
    show s.prod.pub.seqno = _
    rw [hseqno, hpublished]
    rfl
  · rw [hphase, hslot]
    exact ⟨fun _ _ => nofun, fun _ => rfl⟩

omit [DecidableEq R] in
/-- What is on record and in the slot decides the invariant. -/
theorem congr (h : Numbers tr s) {e : PublicationEv R} (he : e.IsPublish = false)
    (hargs : publishArgs (slotTrace (tr ++ [e])) = publishArgs (slotTrace tr))
    (hsame : s.prod.pub.SameRecord s'.prod.pub) (hphase : s'.Agrees s'.phase)
    (hwriter : s'.slot.writer = .idle ↔ ∀ desc, s'.phase ≠ .writing desc) : Numbers (tr ++ [e]) s' where
  args := by rw [hargs, hsame.published, h.args]
  numbered := by rw [hsame.published, h.numbered]
  calls := by rw [hsame.rejected, hsame.seqno, h.calls, countP_snoc, he]; rfl
  agrees := hphase
  writer := hwriter

omit [DecidableEq R] in
/-- An event that is no access to the slot. -/
theorem args_of_none {e : PublicationEv R} (he : e.toSlot = none) :
    publishArgs (slotTrace (tr ++ [e])) = publishArgs (slotTrace tr) := by
  rw [slotTrace_snoc, he, Option.toList_none, List.append_nil]

omit [DecidableEq R] in
/-- An access to the slot that does not call `publish` of the metadata channel. -/
theorem args_of_access {a : SlotEv R} (ha : ∀ d, a ≠ .pub (.call d)) :
    publishArgs (slotTrace (tr ++ [.slot a])) = publishArgs (slotTrace tr) := by
  rw [slotTrace_snoc]
  exact publishArgs_snoc_of_ne ha

/-- An access that neither calls nor returns leaves the writer inside or outside its call. -/
theorem writer_idle_iff {slot slot' : SlotState R} {a : SlotEv R} (hcall : ∀ d, a ≠ .pub (.call d))
    (hret : a ≠ .pub .ret) (hs : slot.step a = some slot') : slot'.writer = .idle ↔ slot.writer = .idle := by
  cases SlotState.step_cases hs with
  | rd hc => exact Iff.rfl
  | raise r => exact Iff.rfl
  | @pub e m pc hc =>
      show pc = .idle ↔ slot.writer = .idle
      generalize slot.writer = pc₀ at hc
      cases hc with
      | call d => exact absurd rfl (hcall d)
      | ret => exact absurd rfl hret
      | _ => exact ⟨nofun, nofun⟩

/-- **Every event keeps the invariant.** -/
theorem step (h : Numbers tr s) {e : PublicationEv R} (hs : s.step e = some s') :
    Numbers (tr ++ [e]) s' := by
  have ha := h.agrees
  have hw := h.writer
  cases step_cases hs with
  | prod e prod he hprod =>
      have hsame := Producer.sameRecord_of_step he hprod
      refine h.congr rfl (args_of_none rfl) hsame ?_ hw
      show Agrees { s with prod := prod } s.phase
      unfold Agrees at ha ⊢
      dsimp only
      rw [hsame.seqno, hsame.published]
      exact ha
  | refuse now d syncFd e hphase hcheck =>
      refine ⟨?_, h.numbered, ?_, ?_, hw⟩
      · rw [args_of_none rfl]
        exact h.args
      · rw [countP_snoc, ← h.calls]
        show s.prod.pub.rejected + 1 + s.prod.pub.seqno = _
        exact Nat.add_right_comm _ _ _
      · show Agrees _ s.phase
        rw [hphase] at ha ⊢
        exact ha
  | stamp now d syncFd hphase hcheck =>
      rw [hphase] at ha hw
      refine ⟨?_, h.numbered, ?_, ⟨congrArg (· + 1) ha, rfl⟩, ?_⟩
      · rw [args_of_none rfl]
        exact h.args
      · rw [countP_snoc, ← h.calls]
        rfl
      · exact ⟨fun _ => nofun, fun _ => hw.mpr fun _ => nofun⟩
  | sendFence desc syncFd pub hphase hsend =>
      rw [hphase] at ha hw
      obtain ⟨clients, rfl, -⟩ := TensorPublisher.sendFence_spec hsend
      exact h.congr rfl (args_of_none rfl) ⟨rfl, rfl, rfl⟩ ha
        ⟨fun _ => nofun, fun _ => hw.mpr fun _ => nofun⟩
  | call desc slot hphase hslot =>
      rw [hphase] at ha
      obtain ⟨hseqno, hdesc⟩ := ha
      refine ⟨?_, ?_, ?_, ?_, ?_⟩
      · show publishArgs (slotTrace (tr ++ [_])) = s.prod.pub.published ++ [desc]
        rw [slotTrace_snoc, ← h.args]
        exact publishArgs_snoc_call _ _
      · -- the frame written is the one whose number comes next
        show (s.prod.pub.published ++ [desc]).map (·.seqno) =
          List.range' 1 (s.prod.pub.published ++ [desc]).length
        rw [List.map_append, h.numbered, List.length_append, List.length_singleton,
          List.range'_concat, List.map_singleton, hdesc, hseqno, Nat.one_mul, Nat.add_comm 1]
      · rw [countP_snoc, ← h.calls]
        rfl
      · show s.prod.pub.seqno = (s.prod.pub.published ++ [desc]).length
        rw [hseqno, List.length_append, List.length_singleton]
      · refine ⟨fun hidle => ?_, fun hno => absurd rfl (hno desc)⟩
        cases SlotState.step_cases hslot with
        | pub hc =>
            generalize s.slot.writer = pc₀ at hc
            cases hc
            cases hidle
  | ret desc slot hphase hslot =>
      rw [hphase] at ha
      refine h.congr rfl (args_of_access nofun) ⟨rfl, rfl, rfl⟩ ha ⟨fun _ => nofun, fun _ => ?_⟩
      cases SlotState.step_cases hslot with
      | pub hc =>
          generalize s.slot.writer = pc₀ at hc
          cases hc
          rfl
  | access a slot hcall hret hslot =>
      exact h.congr rfl (args_of_access hcall) ⟨rfl, rfl, rfl⟩ ha
        ((writer_idle_iff hcall hret hslot).trans hw)
  | pickUp pub hphase hpick =>
      rw [hphase] at ha hw
      have hsame := TensorPublisher.pickUpConsumers_sameRecord hpick
      refine h.congr rfl (args_of_none rfl) hsame ?_ ⟨fun _ => nofun, fun _ => hw.mpr fun _ => nofun⟩
      show pub.seqno = pub.published.length
      rw [hsame.seqno, hsame.published]
      exact ha

/-- The invariant holds throughout every run. -/
theorem of_run (h : (publicationMachine R).Run tr s) : Numbers tr s := by
  refine h.invariant (P := Numbers) (fun s hs => initial hs) ?_
  intro tr s e s' _ hn hs
  exact hn.step hs

end Numbers

/-- **A call leaves no trace** but in the count of refused calls: the slot with its notify word, the
sequence number, everything sent to the clients and the clients themselves are as before. -/
structure LeavesNoTrace (s s' : Publication R) : Prop where
  slot : s'.slot = s.slot
  seqno : s'.prod.pub.seqno = s.prod.pub.seqno
  published : s'.prod.pub.published = s.prod.pub.published
  server : s'.prod.pub.server = s.prod.pub.server
  rejected : s'.prod.pub.rejected = s.prod.pub.rejected + 1

/-- A call of `publish` that has returned after its first step was refused. -/
theorem leavesNoTrace_of_idle {s s' : Publication R} {now : UInt64} {d : AcquiredDescriptor}
    {syncFd : Option Fd} (hs : s.step (.publish now d syncFd) = some s') (hidle : s'.phase = .idle) :
    s.LeavesNoTrace s' := by
  cases step_cases hs with
  | refuse now d syncFd e hphase hcheck => exact ⟨rfl, rfl, rfl, rfl, rfl⟩
  | stamp now d syncFd hphase hcheck => cases hidle

omit [DecidableEq R] in
/-- The frames published have the numbers of their places. -/
theorem Numbers.seqno_eq {tr : List (PublicationEv R)} {s : Publication R} (h : Numbers tr s) {m : ℕ}
    {d : TensorDescriptor} (hm : s.prod.pub.published[m]? = some d) : d.seqno = m + 1 := by
  have hnum : (s.prod.pub.published.map (·.seqno))[m]? = _ := congrArg (·[m]?) h.numbered
  have hlt := (List.getElem?_eq_some_iff.mp hm).1
  rw [List.getElem?_map, hm, Option.map_some, List.getElem?_range' hlt, Nat.one_mul, Nat.add_comm] at hnum
  exact Option.some.inj hnum

omit [DecidableEq R] in
/-- A descriptor given to the slot is a frame published, the one of its number. -/
theorem Numbers.of_arg {tr : List (PublicationEv R)} {s : Publication R} (h : Numbers tr s) {m : ℕ}
    {d : TensorDescriptor} (hm : (publishArgs (slotTrace tr))[m]? = some d) :
    s.prod.pub.published[m]? = some d ∧ d.seqno = m + 1 := by
  rw [h.args] at hm
  exact ⟨hm, h.seqno_eq hm⟩

/-- **What a finished read returns is a frame published**, the one of its number. -/
theorem Numbers.of_read {tr : List (PublicationEv R)} {s : Publication R}
    (hrun : (publicationMachine R).Run tr s) (hwrap : NoGuardWrap (slotTrace tr)) {r : R} {c p : ℕ} {n : ℤ}
    {d : TensorDescriptor} (hread : ReadSpan (slotTrace tr) r c p n (some d)) :
    ∃ m, s.prod.pub.published[m]? = some d ∧ d.seqno = m + 1 := by
  obtain ⟨m, hrec⟩ := hread.recent (slot_run hrun) hwrap
  refine ⟨m, (Numbers.of_run hrun).of_arg ?_⟩
  -- the arguments up to the read are a prefix of all arguments
  have hprefix : publishArgs ((slotTrace tr).take p) <+: publishArgs (slotTrace tr) :=
    (List.take_prefix p (slotTrace tr)).filterMap _
  obtain ⟨hlt, hd⟩ := List.getElem?_eq_some_iff.mp hrec.arg
  rw [← hd]
  exact List.prefix_iff_getElem?.mp hprefix m hlt

end Publication

/-- **A rejected publish changes nothing a consumer can see**, in any interleaving with the readers and with
whatever else the owner and the consumers do. A refused call leaves no trace but in `rejected_count`; an
accepted one takes the next number. The slot is given the frames with the numbers 1, 2, 3, … and no others,
reads return only those, and every call is counted in `rejected_count` or in the sequence number, which
outside `publish` is that of the last frame published. -/
theorem rejected_publish_invisible {tr : List (PublicationEv R)} {s : Publication R}
    (hrun : (publicationMachine R).Run tr s) :
    (∀ now d syncFd s', s.step (.publish now d syncFd) = some s' → s'.phase = .idle →
      s.LeavesNoTrace s') ∧
    (∀ now d syncFd s' desc fd, s.step (.publish now d syncFd) = some s' → s'.phase = .stamped desc fd →
      desc.seqno = s.prod.pub.published.length + 1) ∧
    publishArgs (slotTrace tr) = s.prod.pub.published ∧
    s.prod.pub.published.map (·.seqno) = List.range' 1 s.prod.pub.published.length ∧
    s.prod.pub.rejected + s.prod.pub.seqno = tr.countP PublicationEv.IsPublish ∧
    (s.phase = .idle → s.prod.pub.seqno = s.prod.pub.published.length) ∧
    (NoGuardWrap (slotTrace tr) → ∀ r c p n d, ReadSpan (slotTrace tr) r c p n (some d) →
      ∃ m, s.prod.pub.published[m]? = some d ∧ d.seqno = m + 1) := by
  have h := Publication.Numbers.of_run hrun
  refine ⟨fun now d syncFd s' hs hidle => Publication.leavesNoTrace_of_idle hs hidle, ?_, h.args,
    h.numbered, h.calls, ?_, fun hwrap r c p n d hread => Publication.Numbers.of_read hrun hwrap hread⟩
  · intro now d syncFd s' desc fd hs hstamped
    -- the call began outside `publish`, and the invariant after it gives the number
    have h' := (h.step hs).agrees
    rw [hstamped] at h'
    cases Publication.step_cases hs with
    | refuse now d syncFd e hphase hcheck => exact h'.2.trans h'.1
    | stamp now d syncFd hphase hcheck => exact h'.2.trans h'.1
  · intro hidle
    have ha := h.agrees
    rw [hidle] at ha
    exact ha

/-- A frame without bytes is refused, the next one is published as number one. -/
theorem rejected_publish_invisible_secondCall : ∃ s : Publication Unit,
    s.prod.pub.published.map (·.seqno) = [1] ∧ s.prod.pub.rejected + s.prod.pub.seqno = 2 := by
  obtain ⟨prod, hprod⟩ : ∃ prod, Producer.create ⟨false, false⟩ (.oneBuffer 4096) .obliging = some prod :=
    ⟨_, rfl⟩
  obtain ⟨s, hs⟩ : ∃ s, (publicationMachine Unit).exec ⟨prod, .idle, .initial⟩
      [.publish 7 (.bytesFrame 0 .None) none, .publish 8 (.bytesFrame 16 .None) none, .sendFence] = some s := by
    cases hprod
    exact ⟨_, rfl⟩
  obtain ⟨desc, hphase⟩ : ∃ desc, s.phase = .fenced desc := by
    cases hprod
    cases hs
    exact ⟨_, rfl⟩
  obtain ⟨s', hs'⟩ : ∃ s', (publicationMachine Unit).exec s [.slot (.pub (.call desc))] = some s' := by
    cases hprod
    cases hs
    cases hphase
    exact ⟨_, rfl⟩
  -- the second call is accepted, and its descriptor given to the slot
  have hrun := (Machine.Run.of_exec (M := publicationMachine Unit) ⟨⟨_, _, _, hprod⟩, rfl, rfl⟩ hs).append_exec hs'
  obtain ⟨-, -, -, hnumbered, hcalls, -⟩ := rejected_publish_invisible hrun
  refine ⟨s', ?_, hcalls⟩
  rw [hnumbered]
  cases hprod
  cases hs
  cases hphase
  cases hs'
  rfl

end Axon
