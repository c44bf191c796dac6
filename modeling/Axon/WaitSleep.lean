import Axon.WaitReports

/-! # Sleeping in `wait_any`

A subscriber raises the waiter flag of its streams, looks for an update and goes to sleep on the notify
words; a publisher bumps the word, takes the flag with an exchange and wakes the sleepers when it was up.

The flag may be taken between the raising and the sleeping: a publisher that has bumped the word before
`latest_view` loaded it exchanges the flag afterwards, and wakes nobody. The subscriber then goes to sleep
with its flag down, and the next publish does not wake it. `no_lost_wakeup` shows that this is all that can
go wrong: no frame is slept through in a run in which every `FUTEX_WAKE` finds the flag up again for whoever
is on the way to sleep (`WakeFindsFlag`). -/

namespace Axon

open Foundation
open TensorDescriptor (WordIdx)

/-! ## The flag and the wake-up -/

namespace SlotState

variable {R : Type} [DecidableEq R] {s s' : SlotState R}

omit [DecidableEq R] in
/-- **The publisher is warned**: the flag is up, or it has been taken and the wake-up is to come. -/
def Warned (s : SlotState R) : Prop := s.slot.waiters ≠ 0 ∨ s.writer = .taken true

omit [DecidableEq R] in
/-- **A wake-up is on its way**: the word has been bumped and the flag is up, or has been taken. -/
def Waking (s : SlotState R) : Prop :=
  (s.writer = .notified ∧ s.slot.waiters ≠ 0) ∨ s.writer = .taken true

/-- What an access that is no wake-up does to the signals between publisher and sleepers. -/
inductive SignalCase (s s' : SlotState R) : SlotEv R → Prop
  /-- The word stays, and so do the warnings. -/
  | quiet (a : SlotEv R) (hnotify : s'.slot.notify = s.slot.notify) (hwarned : s.Warned → s'.Warned)
      (hwaking : s.Waking → s'.Waking) : SignalCase s s' a
  /-- The word is bumped. -/
  | bump (hnotify : s'.slot.notify = s.slot.notify + 1) (hwarned : s.Warned → s'.Warned)
      (hwaking : s.Warned → s'.Waking) (hnot : ¬ s.Waking) : SignalCase s s' (.pub .bumpNotify)

/-- **What an access does to flag and word.** -/
theorem signal_cases {a : SlotEv R} (hs : s.step a = some s') (ha : a ≠ .pub .wake) :
    SignalCase s s' a := by
  cases step_cases hs with
  | rd hc => exact .quiet _ rfl id id
  | raise r =>
      -- raising the flag can only add a warning
      refine .quiet _ rfl (fun _ => .inl ?_) ?_
      · show (1 : UInt32) ≠ 0
        decide
      · rintro (⟨hw, -⟩ | hw)
        · refine .inl ⟨hw, ?_⟩
          show (1 : UInt32) ≠ 0
          decide
        · exact .inr hw
  | @pub e m pc hc =>
      generalize hw : s.writer = pc₀ at hc
      cases hc with
      | bumpNotify =>
          -- a flag that is up when the word is bumped will be found by the exchange
          refine .bump rfl ?_ ?_ ?_
          · rintro (hflag | htaken)
            · exact .inl hflag
            · cases hw.symm.trans htaken
          · rintro (hflag | htaken)
            · exact .inl ⟨rfl, hflag⟩
            · cases hw.symm.trans htaken
          · rintro (⟨hnotified, -⟩ | htaken)
            · cases hw.symm.trans hnotified
            · cases hw.symm.trans htaken
      | takeWaiters =>
          -- the exchange tells whether the flag was up
          refine .quiet _ rfl ?_ ?_
          · rintro (hflag | htaken)
            · exact .inr (congrArg PublishPc.taken (decide_eq_true hflag))
            · cases hw.symm.trans htaken
          · rintro (⟨-, hflag⟩ | htaken)
            · exact .inr (congrArg PublishPc.taken (decide_eq_true hflag))
            · cases hw.symm.trans htaken
      | wake => exact absurd rfl ha
      | _ =>
          refine .quiet _ rfl ?_ ?_
          · rintro (hflag | htaken)
            · exact .inl hflag
            · cases hw.symm.trans htaken
          · rintro (⟨hnotified, -⟩ | htaken)
            · cases hw.symm.trans hnotified
            · cases hw.symm.trans htaken

end SlotState

/-! ## A thread on its way to sleep -/

/-- **On the way to sleep on stream `i`**: the flag has been raised, and the thread has found no update
yet. -/
def WaiterPhase.Armed {ι : Type} (i : ι) : WaiterPhase ι → Prop
  | .raising ws todo => i ∈ ws ∧ i ∉ todo
  | .checking true ws _ => i ∈ ws
  | .checked true ws => i ∈ ws
  | _ => False

namespace Waiter

variable {ι : Type} [DecidableEq ι] {notify : ι → UInt32} {w w' : Waiter ι} {e : WaitEv ι} {i : ι}

omit [DecidableEq ι] in
/-- Behind the raising of a flag, a wait is armed for the streams whose flags are up. -/
theorem armed_afterRaise {ws todo : List ι} (h : (afterRaise ws todo).Armed i) : i ∈ ws ∧ i ∉ todo := by
  unfold afterRaise at h
  split at h
  · exact ⟨h, List.not_mem_nil⟩
  · exact h

omit [DecidableEq ι] in
/-- Behind the check, it is armed for all of them, if they have futexes. -/
theorem armed_afterCheck {futexes : Bool} {ws todo : List ι} (h : (afterCheck futexes ws todo).Armed i) :
    futexes = true ∧ i ∈ ws := by
  unfold afterCheck at h
  split at h <;> cases futexes
  · cases h
  · exact ⟨rfl, h⟩
  · cases h
  · exact ⟨rfl, h⟩

/-- A thread comes on its way to sleep by raising the flag. -/
theorem StepCase.armed (h : w.StepCase notify e w') (harmed : w'.phase.Armed i) :
    w'.subs = w.subs ∧ (e = .raise i ∨ w.phase.Armed i) := by
  cases h with
  | raise j ws todo hphase =>
      obtain ⟨hws, htodo⟩ := armed_afterRaise harmed
      refine ⟨rfl, ?_⟩
      -- the flag just raised, or one raised before
      by_cases hj : i = j
      · exact .inl (hj ▸ rfl)
      · rw [hphase]
        exact .inr ⟨hws, List.not_mem_cons_of_ne_of_not_mem hj htodo⟩
  | check j read futexes ws todo ch hphase hch hup =>
      obtain ⟨rfl, hws⟩ := armed_afterCheck harmed
      rw [hphase]
      exact ⟨rfl, .inr hws⟩
  | waitCall ws hphase hlen hword => exact absurd harmed.1 harmed.2
  | again ws hphase => exact absurd harmed.1 harmed.2
  | interrupt ws hphase => exact absurd harmed.1 harmed.2
  | read j a notify_now hphase hcall hret =>
      rw [hphase] at harmed
      cases harmed
  | drainFences j segs ready hphase =>
      change w.phase.Armed i at harmed
      rw [hphase] at harmed
      cases harmed
  | setFallbackPolicy j p hphase =>
      change w.phase.Armed i at harmed
      rw [hphase] at harmed
      cases harmed
  | _ => cases harmed

/-- A thread goes to sleep on words that are what it remembers. -/
theorem StepCase.asleep (h : w.StepCase notify e w') {ws : List ι} (hasleep : w'.phase = .asleep ws) :
    w'.subs = w.subs ∧ w.phase = .checked true ws ∧ ∀ i ∈ ws, notify i = (w.subs i).seenNotify := by
  -- no step but that of `futex_waitv` ends in sleep
  cases h with
  | sleep ws' hphase hsame =>
      cases hasleep
      exact ⟨rfl, hphase, hsame⟩
  | raise j ws' todo hphase =>
      unfold afterRaise at hasleep
      dsimp only at hasleep
      split at hasleep <;> cases hasleep
  | check j read futexes ws' todo ch hphase hch hup =>
      unfold afterCheck at hasleep
      dsimp only at hasleep
      split at hasleep <;> cases hasleep
  | read j a notify_now hphase hcall hret => cases hphase.symm.trans hasleep
  | drainFences j segs ready hphase => cases hphase.symm.trans hasleep
  | setFallbackPolicy j p hphase => cases hphase.symm.trans hasleep
  | _ => cases hasleep

end Waiter

/-- The event is a `FUTEX_WAKE`. -/
def StreamsEv.IsWake {ι R : Type} : StreamsEv ι R → Bool
  | .pub _ e => e.IsWake
  | .wait _ _ => false

namespace Streams

variable {ι R : Type} [DecidableEq ι] [DecidableEq R] {tr : List (StreamsEv ι R)} {s s' : Streams ι R}

/-- **The wake-up finds the flag up** for everyone who is on the way to sleep on the word as it is. -/
def WakeFindsFlag (s : Streams ι R) : StreamsEv ι R → Prop
  | .pub i (.slot (.pub .wake)) => ∀ r, (s.waiters r).phase.Armed i →
      s.notify i = ((s.waiters r).subs i).seenNotify → (s.pubs i).slot.slot.waiters ≠ 0
  | _ => True

omit [DecidableEq ι] [DecidableEq R] in
/-- Only the wake-ups are at issue. -/
theorem WakeFindsFlag.of_not_wake {e : StreamsEv ι R} (h : e.IsWake = false) (s : Streams ι R) :
    s.WakeFindsFlag e := by
  unfold WakeFindsFlag
  split
  · cases h
  · trivial

omit [DecidableEq R] in
/-- The writer's accesses are the publisher's events. -/
theorem pub_of_toPub {i : ι} {e : StreamsEv ι R} {a : PublishEv} (h : e.toPub i = some (.slot (.pub a))) :
    e = .pub i (.slot (.pub a)) := by
  cases e with
  | pub j b =>
      rw [StreamsEv.toPub] at h
      split_ifs at h with hj
      rw [hj, Option.some.inj h]
  | wait r b =>
      obtain ⟨p, hp, h⟩ := Option.bind_eq_some_iff.mp h
      split_ifs at h
      -- a consumer reads or raises, it does not publish
      obtain ⟨a', ha'⟩ | ha' := WaitEv.access_cases (r := r) (i := p.1) (a := p.2) hp
      · rw [ha'] at h
        cases h
      · rw [ha'] at h
        cases h

/-- **What an event does to the signals of stream `i`**, unless it wakes the sleepers. -/
theorem signal_cases (hrun : (streamsMachine ι R).Run tr s) {e : StreamsEv ι R} (hs : s.step e = some s')
    (i : ι) (hwake : e ≠ .pub i (.slot (.pub .wake))) :
    (s'.notify i = s.notify i ∧ ((s.pubs i).slot.Warned → (s'.pubs i).slot.Warned) ∧
      ((s.pubs i).slot.Waking → (s'.pubs i).slot.Waking)) ∨
    (e = .pub i (.slot (.pub .bumpNotify)) ∧ (s'.pubs i).counted = (s.pubs i).counted + 1 ∧
      s'.notify i = s.notify i + 1 ∧ ((s.pubs i).slot.Warned → (s'.pubs i).slot.Waking) ∧
      ¬ (s.pubs i).slot.Waking) := by
  have hquiet : (s'.pubs i).slot = (s.pubs i).slot → s'.notify i = s.notify i ∧
      ((s.pubs i).slot.Warned → (s'.pubs i).slot.Warned) ∧
      ((s.pubs i).slot.Waking → (s'.pubs i).slot.Waking) := by
    intro h
    rw [notify, h]
    exact ⟨rfl, id, id⟩
  obtain ⟨b, hb, hstep⟩ | ⟨-, hsame⟩ := pub_of_step i hs
  · obtain ⟨a, rfl, hslot⟩ | ⟨-, hslot⟩ := Publication.slot_of_step hstep
    · have ha : a ≠ .pub .wake := fun h => hwake (pub_of_toPub (h ▸ hb))
      cases SlotState.signal_cases hslot ha with
      | quiet a hnotify hwarned hwaking => exact .inl ⟨hnotify, hwarned, hwaking⟩
      | bump hnotify hwarned hwaking hnot =>
          refine .inr ⟨pub_of_toPub hb, ?_, hnotify, hwaking, hnot⟩
          -- the number of frames counted is read off the history
          have hpub := pub_run i hrun
          have hstep' : (publicationMachine R).step (s.pubs i) (.slot (.pub .bumpNotify)) =
              some (s'.pubs i) := hstep
          have hpub' := hpub.snoc hstep'
          rw [Publication.counted_eq hpub, Publication.counted_eq hpub', Publication.slotTrace_snoc]
          exact pubCount_snoc _ _ _
    · exact .inl (hquiet hslot)
  · exact .inl (hquiet (congrArg Publication.slot hsame))

/-- Raising the flag warns the publisher. -/
theorem warned_of_raise {r : R} {i : ι} (hs : s.step (.wait r (.raise i)) = some s') :
    (s'.pubs i).slot.Warned := by
  have htoPub : (StreamsEv.wait r (WaitEv.raise i)).toPub i = some (.slot (.raise r)) := by
    rw [StreamsEv.toPub, WaitEv.access, Option.bind_some, if_pos rfl]
  obtain ⟨b, hb, hstep⟩ | ⟨hnone, -⟩ := pub_of_step i hs
  · rw [htoPub] at hb
    cases hb
    obtain ⟨a, ha, hslot⟩ | ⟨hnone, -⟩ := Publication.slot_of_step hstep
    · cases ha
      generalize (s'.pubs i).slot = slot at hslot
      cases hslot
      refine .inl ?_
      show (1 : UInt32) ≠ 0
      decide
    · cases hnone
  · cases htoPub.symm.trans hnone

/-- The wake-up itself leaves the slot as it is. -/
theorem slot_of_wake {i : ι} (hs : s.step (.pub i (.slot (.pub .wake))) = some s') :
    (s'.pubs i).slot.slot = (s.pubs i).slot.slot := by
  have htoPub : (StreamsEv.pub i (.slot (.pub .wake)) : StreamsEv ι R).toPub i =
      some (.slot (.pub .wake)) := if_pos rfl
  obtain ⟨b, hb, hstep⟩ | ⟨hnone, -⟩ := pub_of_step i hs
  · rw [htoPub] at hb
    cases hb
    obtain ⟨a, ha, hslot⟩ | ⟨hnone, -⟩ := Publication.slot_of_step hstep
    · cases ha
      generalize (s'.pubs i).slot = slot at hslot
      cases SlotState.step_cases hslot with
      | pub hc =>
          generalize (s.pubs i).slot.writer = pc at hc
          cases hc
          rfl
    · cases hnone
  · cases htoPub.symm.trans hnone

/-- **No update of stream `i` is lost for `r`**: on the way to sleep with the word as it is, the publisher
is warned; asleep, it is warned, or the word has just been bumped and the wake-up is on its way. -/
structure NotLost (s : Streams ι R) (r : R) (i : ι) : Prop where
  armed : (s.waiters r).phase.Armed i → s.notify i = ((s.waiters r).subs i).seenNotify →
    (s.pubs i).slot.Warned
  asleep : ∀ ws, (s.waiters r).phase = .asleep ws → i ∈ ws →
    (s.notify i = ((s.waiters r).subs i).seenNotify ∧ (s.pubs i).slot.Warned) ∨
      (s.notify i = ((s.waiters r).subs i).seenNotify + 1 ∧ (s.pubs i).slot.Waking)

namespace NotLost

variable {r : R} {i : ι}

omit [DecidableEq ι] [DecidableEq R] in
/-- The thread stays where it is, and stream `i` is not bumped. -/
theorem congr (h : NotLost s r i) (hw : s'.waiters r = s.waiters r) (hnotify : s'.notify i = s.notify i)
    (hwarned : (s.pubs i).slot.Warned → (s'.pubs i).slot.Warned)
    (hwaking : (s.pubs i).slot.Waking → (s'.pubs i).slot.Waking) : NotLost s' r i := by
  refine ⟨?_, ?_⟩
  · rw [hw, hnotify]
    exact fun harmed hsame => hwarned (h.armed harmed hsame)
  · rw [hw, hnotify]
    intro ws hasleep hi
    exact (h.asleep ws hasleep hi).imp (And.imp_right hwarned) (And.imp_right hwaking)

/-- The thread stays where it is, and the word of stream `i` is bumped. -/
theorem bump (h : NotLost s r i) (hmark : Watermark s r i) (hrun : (streamsMachine ι R).Run tr s)
    (hw : s'.waiters r = s.waiters r) (hcounted : (s'.pubs i).counted = (s.pubs i).counted + 1)
    (hnotify : s'.notify i = s.notify i + 1) (hwaking : (s.pubs i).slot.Warned → (s'.pubs i).slot.Waking)
    (hnot : ¬ (s.pubs i).slot.Waking) (hfew : (s'.pubs i).counted < 2 ^ 32) : NotLost s' r i := by
  refine ⟨?_, ?_⟩
  · -- what is remembered is at least two values behind
    rw [hw]
    intro _ hsame
    obtain ⟨-, b, hb, hseen, -⟩ := hmark
    have hword : s.notify i = UInt32.ofNat (s.pubs i).counted := Publication.notify_eq (pub_run i hrun)
    rw [hnotify, hseen, hword, uint32_ofNat_succ] at hsame
    have := uint32_ofNat_inj_of_lt hsame.symm (by omega) (by omega)
    omega
  · rw [hw, hnotify]
    intro ws hasleep hi
    obtain ⟨hsame, hwarned⟩ | ⟨-, hwoken⟩ := h.asleep ws hasleep hi
    · exact .inr ⟨congrArg (· + 1) hsame, hwaking hwarned⟩
    · exact absurd hwoken hnot

/-- **A step loses no wake-up.** -/
theorem step (h : NotLost s r i) (hmark : Watermark s r i) (hrun : (streamsMachine ι R).Run tr s)
    {e : StreamsEv ι R} (hc : s.WakeFindsFlag e) (hs : s.step e = some s')
    (hfew : (s'.pubs i).counted < 2 ^ 32) : NotLost s' r i := by
  cases thread_of_step r hs with
  | own b he hw hcall hkept =>
      subst he
      obtain ⟨hnotify, hwarned, hwaking⟩ | ⟨hbump, -⟩ := signal_cases hrun hs i nofun
      · refine ⟨fun harmed hsame => ?_, fun ws hasleep hi => ?_⟩
        · obtain ⟨hsubs, rfl | hbefore⟩ := hw.armed harmed
          · exact warned_of_raise hs
          · rw [hnotify, hsubs] at hsame
            exact hwarned (h.armed hbefore hsame)
        · -- the words were compared when it went to sleep
          obtain ⟨hsubs, hphase, hsame⟩ := hw.asleep hasleep
          have hbefore : (s.waiters r).phase.Armed i := by
            rw [hphase]
            exact hi
          rw [hsubs, hnotify]
          exact .inl ⟨hsame i hi, hwarned (h.armed hbefore (hsame i hi))⟩
      · cases hbump
  | wake j he hw hloaded =>
      subst he
      obtain ⟨ws, -, -, hraised⟩ | ⟨hno, hsame⟩ := Waiter.woken_phase j (s.waiters r)
      · -- woken: all flags are to be raised again
        rw [← hw] at hraised
        refine ⟨fun harmed => ?_, fun ws' hasleep => ?_⟩
        · rw [hraised] at harmed
          exact absurd harmed.1 harmed.2
        · cases hraised.symm.trans hasleep
      · rw [hsame] at hw
        by_cases hj : i = j
        · subst hj
          -- the wake-up of stream `i` itself: here the condition on the run is used
          have hslot := slot_of_wake hs
          refine ⟨fun harmed hseen => .inl ?_, fun ws hasleep hi => absurd hi (hno ws (hw ▸ hasleep))⟩
          rw [hw] at harmed hseen
          rw [notify, hslot] at hseen
          rw [hslot]
          exact hc r harmed hseen
        · -- a wake-up of another stream
          have hne : StreamsEv.pub j (.slot (.pub .wake)) ≠
              (StreamsEv.pub i (.slot (.pub .wake)) : StreamsEv ι R) := by
            rintro ⟨⟩
            exact hj rfl
          obtain ⟨hnotify, hwarned, hwaking⟩ | ⟨hbump, -⟩ := signal_cases hrun hs i hne
          · exact h.congr hw hnotify hwarned hwaking
          · cases hbump
  | still hwait hwake hw hloaded =>
      obtain ⟨hnotify, hwarned, hwaking⟩ | ⟨-, hcounted, hnotify, hwaking, hnot⟩ :=
        signal_cases hrun hs i (hwake i)
      · exact h.congr hw hnotify hwarned hwaking
      · exact h.bump hmark hrun hw hcounted hnotify hwaking hnot hfew

/-- The invariant holds in every run in which the wake-ups find the flag up. -/
theorem of_run (h : (streamsMachine ι R).RunWhere WakeFindsFlag tr s) (r : R) (i : ι)
    (hfew : (s.pubs i).prod.pub.published.length < 2 ^ 32) : NotLost s r i := by
  refine h.invariant (P := fun _ s => (s.pubs i).prod.pub.published.length < 2 ^ 32 → NotLost s r i)
    ?_ ?_ hfew
  · intro s hs _
    obtain ⟨hphase, -⟩ := hs.2 r
    refine ⟨fun harmed => ?_, fun ws hasleep => ?_⟩
    · rw [hphase] at harmed
      cases harmed
    · cases hphase.symm.trans hasleep
  · intro tr s e s' hrun ih hc hs hfew
    have hless := (noLess_of_step hrun.run hs i).published
    refine (ih (by omega)).step (Watermark.of_run hrun.run r i (by omega)) hrun.run hc hs ?_
    exact (s'.pubs i).counted_le.trans_lt hfew

end NotLost

end Streams

namespace Publication

variable {R : Type} [DecidableEq R] {tr : List (PublicationEv R)} {s : Publication R}

/-- A call of `publish` returns after its frame has been counted. -/
theorem returned_le_counted (h : (publicationMachine R).Run tr s) : s.returned ≤ s.counted := by
  have hwriter := (Numbers.of_run h).writer
  unfold returned counted passed
  split
  · split_ifs <;> omega
  · exact Nat.sub_le_sub_left (by split_ifs <;> omega) _
  · rename_i hphase hwritten
    have hidle : s.slot.writer = .idle := hwriter.mpr hphase
    rw [hidle]
    simp [PublishPc.stage]

/-- While a wake-up is on its way, the last frame has been counted and its `publish` has not returned. -/
theorem returned_of_waking (h : (publicationMachine R).Run tr s) (hwaking : s.slot.Waking) :
    s.returned + 1 = s.counted := by
  have hcalled := called_eq h
  have hstage : 5 ≤ s.slot.writer.stage := by
    obtain ⟨hw, -⟩ | hw := hwaking
    · rw [hw]
      exact le_rfl
    · rw [hw]
      exact Nat.le_succ 5
  -- the accesses of the slot belong to a call that is still writing
  have hbusy : ¬ ∀ desc, s.phase ≠ .writing desc := fun hno => by
    rw [(Numbers.of_run h).writer.mpr hno] at hstage
    cases hstage
  obtain ⟨desc, hphase⟩ := not_forall_not.mp hbusy
  rw [returned, hphase, counted, passed, if_neg (by omega)]
  rw [if_pos (by omega)] at hcalled
  dsimp only
  omega

end Publication

/-- **No lost wake-up**, in every interleaving in which each `FUTEX_WAKE` finds the flag up again for whoever
is on the way to sleep: while a subscriber is asleep in `wait_any`, no call of `publish` on one of its
streams has returned with a frame newer than the last one it was handed fresh. -/
theorem no_lost_wakeup {ι R : Type} [DecidableEq ι] [DecidableEq R] {tr : List (StreamsEv ι R)}
    {s : Streams ι R} (hrun : (streamsMachine ι R).RunWhere Streams.WakeFindsFlag tr s)
    (hfew : ∀ i, (s.pubs i).prod.pub.published.length < 2 ^ 32) {r : R} {ws : List ι}
    (hasleep : (s.waiters r).phase = .asleep ws) {i : ι} (hi : i ∈ ws) :
    (s.pubs i).returned ≤ ((s.waiters r).subs i).seenSeqno := by
  have hpub := Streams.pub_run i hrun.run
  have hlt := hfew i
  obtain ⟨-, b, hb, hseen, hle⟩ := Streams.Watermark.of_run hrun.run r i (by omega)
  have hcounted := (s.pubs i).counted_le
  have hword : s.notify i = UInt32.ofNat (s.pubs i).counted := Publication.notify_eq hpub
  obtain ⟨hsame, -⟩ | ⟨hnext, hwaking⟩ := (Streams.NotLost.of_run hrun r i hlt).asleep ws hasleep hi
  · -- nothing has been counted since
    rw [hword, hseen] at hsame
    have := uint32_ofNat_inj_of_lt hsame.symm hb (by omega)
    exact ((Publication.returned_le_counted hpub).trans this.ge).trans hle
  · -- one frame has been counted, and its call has not returned
    rw [hword, hseen, uint32_ofNat_succ] at hnext
    have hlast := Publication.returned_of_waking hpub hwaking
    rcases Nat.lt_or_ge b (s.pubs i).counted with hlt' | hge
    · have := uint32_ofNat_inj_of_lt hnext.symm hlt' (by omega)
      exact (by omega : (s.pubs i).returned ≤ b).trans hle
    · obtain rfl := hb.antisymm hge
      have := uint32_ofNat_inj_of_lt hnext (Nat.le_succ _) (by omega)
      omega

/-- The thread is asleep. -/
def WaiterPhase.isAsleep : WaiterPhase Unit → Bool
  | .asleep [()] => true
  | _ => false

/-- A wait that sleeps sleeps on the one stream. -/
theorem WaiterPhase.eq_asleep {p : WaiterPhase Unit} (h : p.isAsleep = true) : p = .asleep [()] := by
  unfold isAsleep at h
  split at h
  · rfl
  · cases h

/-- Asleep after the first frame, with the second one stored and counted: its `publish` has yet to take the
flag, and to return. -/
theorem no_lost_wakeup_second : ∃ s : Streams Unit Unit, (s.waiters ()).phase = .asleep [()] ∧
    (s.pubs ()).returned ≤ ((s.waiters ()).subs ()).seenSeqno := by
  obtain ⟨prod, hprod⟩ : ∃ prod, Producer.create ⟨false, false⟩ (.oneBuffer 4096) .obliging = some prod :=
    ⟨_, rfl⟩
  let desc := prod.pub.stamp prod.pool 7 (.bytesFrame 16 .None)
  let tr := storeEvents desc ++ countEvents ++ viewEvents desc ++
    .wait () (.viewRet () (some desc) 0 9) :: (lookEvents ++ .wait () .sleep ::
      (storeEvents { desc with seqno := 2 } ++ [.pub () (.slot (.pub .bumpNotify))]))
  -- both frames are stored, and the second one is being counted
  have hexec : ((streamsMachine Unit Unit).exec (oneStream prod) tr).map (fun s =>
      ((s.waiters ()).phase.isAsleep, (s.pubs ()).prod.pub.published.length)) = some (true, 2) := by
    cases hprod
    decide +kernel
  obtain ⟨s, hs, hres⟩ := Option.map_eq_some_iff.mp hexec
  simp only [Prod.mk.injEq] at hres
  have hasleep := WaiterPhase.eq_asleep hres.1
  -- no event of the run is a wake-up
  have hnowake : ∀ e ∈ tr, e.IsWake = false := by
    cases hprod
    decide +kernel
  refine ⟨s, hasleep, no_lost_wakeup (.of_exec (oneStream_init ⟨_, _, _, hprod⟩) hs
    (.of_forall (fun e he => .of_not_wake (hnowake e he)) _)) (fun _ => ?_) hasleep (List.mem_singleton.mpr rfl)⟩
  rw [hres.2]
  decide

/-- The publisher takes the flag after the subscriber has looked for an update, wakes nobody, and does not
wake it for the next frame either: the subscriber sleeps with the flag down, one frame behind. -/
theorem lost_wakeup : ∃ (tr : List (StreamsEv Unit Unit)) (s : Streams Unit Unit),
    (streamsMachine Unit Unit).Run tr s ∧ (s.waiters ()).phase = .asleep [()] ∧
      (s.pubs ()).prod.pub.published.length = 2 ∧
      ((s.waiters ()).subs ()).seenSeqno < (s.pubs ()).returned := by
  obtain ⟨prod, hprod⟩ : ∃ prod, Producer.create ⟨false, false⟩ (.oneBuffer 4096) .obliging = some prod :=
    ⟨_, rfl⟩
  let desc := prod.pub.stamp prod.pool 7 (.bytesFrame 16 .None)
  let takeFlag : List (StreamsEv Unit Unit) := [.pub () (.slot (.pub .takeWaiters)),
    .pub () (.slot (.pub .wake)), .wait () .sleep, .pub () (.slot (.pub .ret)), .pub () .pickUp]
  have hexec : ((streamsMachine Unit Unit).exec (oneStream prod) (storeEvents desc ++
      .pub () (.slot (.pub .bumpNotify)) :: viewEvents desc ++
        .wait () (.viewRet () (some desc) 0 9) :: (lookEvents ++ takeFlag ++
          storeEvents { desc with seqno := 2 } ++ countEvents))).map (fun s =>
      ((s.waiters ()).phase.isAsleep, (s.pubs ()).prod.pub.published.length,
        ((s.waiters ()).subs ()).seenSeqno, (s.pubs ()).returned)) = some (true, 2, 1, 2) := by
    cases hprod
    decide +kernel
  obtain ⟨s, hs, hres⟩ := Option.map_eq_some_iff.mp hexec
  simp only [Prod.mk.injEq] at hres
  obtain ⟨hasleep, hlen, hseen, hreturned⟩ := hres
  -- two frames have been returned from, the subscriber has seen one and sleeps
  refine ⟨_, s, .of_exec (oneStream_init ⟨_, _, _, hprod⟩) hs, WaiterPhase.eq_asleep hasleep, hlen, ?_⟩
  rw [hseen, hreturned]
  exact Nat.one_lt_two

end Axon
