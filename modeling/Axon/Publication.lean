import Axon.Metadata.Seqlock
import Axon.Producer

/-! # A publisher at work on its metadata slot

`publicationMachine R` runs `publish` effect by effect next to the accesses of the readers `R`: the
descriptor is refused or stamped, the fence is sent, the metadata channel goes through its accesses to the
slot, and new consumers are picked up. Between any two of these the owner's other calls, the consumers'
connections and the readers may go on.

* **`slotTrace`** is what a run does to the slot; `Publication.slot_run` makes it a run of `slotMachine`.
* **`Publication.Numbers`** is the invariant: the slot is given exactly the frames accepted, numbered from
  one, and every call of `publish` is counted once, as accepted or as refused. -/

namespace Axon

open Foundation

/-- Where the producer stands inside `publish`. -/
inductive PublishPhase
  | idle
  /-- The descriptor has been stamped. -/
  | stamped (desc : TensorDescriptor) (syncFd : Option Fd)
  /-- The fence, if there is one, has been sent. -/
  | fenced (desc : TensorDescriptor)
  /-- The metadata channel is at work on the slot. -/
  | writing (desc : TensorDescriptor)
  /-- The metadata channel has returned. -/
  | written

/-- A producer with its slot. -/
structure Publication (R : Type) where
  prod : Producer
  phase : PublishPhase
  slot : SlotState R

/-- What happens to a publisher and its slot. -/
inductive PublicationEv (R : Type)
  /-- Whatever the owner does besides publishing, and what consumers do to their connections. -/
  | prod (e : ProducerEv)
  /-- `publish` begins at clock `now`: refuse the descriptor or stamp it. -/
  | publish (now : UInt64) (d : AcquiredDescriptor) (syncFd : Option Fd)
  | sendFence
  /-- An access to the slot, by `publish` or by a reader. -/
  | slot (e : SlotEv R)
  /-- `publish` ends: pick up new consumers. -/
  | pickUp

/-- What an event does to the slot. -/
def PublicationEv.toSlot {R : Type} : PublicationEv R → Option (SlotEv R)
  | .slot e => some e
  | _ => none

/-- The event is a call of `publish`. -/
def PublicationEv.IsPublish {R : Type} : PublicationEv R → Bool
  | .publish _ _ _ => true
  | _ => false

/-- The accesses to the slot in the course of a run. -/
def slotTrace {R : Type} (tr : List (PublicationEv R)) : List (SlotEv R) :=
  tr.filterMap PublicationEv.toSlot

namespace Publication

variable {R : Type} [DecidableEq R]

/-- The publication with another state of its publisher. -/
def setPub (s : Publication R) (pub : TensorPublisher) : Publication R :=
  { s with prod := { s.prod with pub := pub } }

/-- The head of `publish`: the descriptor is refused and counted, or takes the next number. -/
def beginPublish (s : Publication R) (now : UInt64) (d : AcquiredDescriptor) (syncFd : Option Fd) :
    Publication R :=
  match s.prod.pub.check d with
  | some _ => s.setPub { s.prod.pub with rejected := s.prod.pub.rejected + 1 }
  | none =>
      { s.setPub { s.prod.pub with seqno := s.prod.pub.seqno + 1 } with
        phase := .stamped (s.prod.pub.stamp s.prod.pool now d) syncFd }

/-- An access to the slot. The metadata channel is called with the stamped descriptor, and `publish` goes
on when it returns. -/
def stepSlot (s : Publication R) (e : SlotEv R) : Option (Publication R) :=
  (s.slot.step e).bind fun slot =>
    match e with
    | .pub (.call d) =>
        match s.phase with
        | .fenced desc =>
            if d = desc then
              some { s.setPub (s.prod.pub.writeMeta desc) with
                phase := .writing desc
                slot := slot }
            else none
        | _ => none
    | .pub .ret =>
        match s.phase with
        | .writing _ => some { s with phase := .written, slot := slot }
        | _ => none
    | _ => some { s with slot := slot }

/-- One event. -/
def step (s : Publication R) : PublicationEv R → Option (Publication R)
  | .prod e =>
      match e with
      | .publish _ _ _ => none
      | e => (s.prod.step e).map fun prod => { s with prod := prod }
  | .publish now d syncFd =>
      match s.phase with
      | .idle => some (s.beginPublish now d syncFd)
      | _ => none
  | .sendFence =>
      match s.phase with
      | .stamped desc syncFd =>
          (s.prod.pub.sendFence desc syncFd).map fun pub => { s.setPub pub with phase := .fenced desc }
      | _ => none
  | .slot e => s.stepSlot e
  | .pickUp =>
      match s.phase with
      | .written =>
          (s.prod.pub.pickUpConsumers s.prod.pool).map fun pub => { s.setPub pub with phase := .idle }
      | _ => none

/-! ## What a step does -/

/-- The events of a publication, with the state after each. -/
inductive StepCase (s : Publication R) : PublicationEv R → Publication R → Prop
  | prod (e : ProducerEv) (prod : Producer) (he : ∀ now d syncFd, e ≠ .publish now d syncFd)
      (h : s.prod.step e = some prod) : StepCase s (.prod e) { s with prod := prod }
  | refuse (now : UInt64) (d : AcquiredDescriptor) (syncFd : Option Fd) (e : Errno)
      (h : s.phase = .idle) (hcheck : s.prod.pub.check d = some e) : StepCase s (.publish now d syncFd)
        (s.setPub { s.prod.pub with rejected := s.prod.pub.rejected + 1 })
  | stamp (now : UInt64) (d : AcquiredDescriptor) (syncFd : Option Fd) (h : s.phase = .idle)
      (hcheck : s.prod.pub.check d = none) : StepCase s (.publish now d syncFd)
        { s.setPub { s.prod.pub with seqno := s.prod.pub.seqno + 1 } with
          phase := .stamped (s.prod.pub.stamp s.prod.pool now d) syncFd }
  | sendFence (desc : TensorDescriptor) (syncFd : Option Fd) (pub : TensorPublisher)
      (h : s.phase = .stamped desc syncFd) (hsend : s.prod.pub.sendFence desc syncFd = some pub) :
      StepCase s .sendFence { s.setPub pub with phase := .fenced desc }
  | call (desc : TensorDescriptor) (slot : SlotState R) (h : s.phase = .fenced desc)
      (hslot : s.slot.step (.pub (.call desc)) = some slot) : StepCase s (.slot (.pub (.call desc)))
        { s.setPub (s.prod.pub.writeMeta desc) with
          phase := .writing desc
          slot := slot }
  | ret (desc : TensorDescriptor) (slot : SlotState R) (h : s.phase = .writing desc)
      (hslot : s.slot.step (.pub .ret) = some slot) :
      StepCase s (.slot (.pub .ret)) { s with phase := .written, slot := slot }
  | access (e : SlotEv R) (slot : SlotState R) (hcall : ∀ d, e ≠ .pub (.call d)) (hret : e ≠ .pub .ret)
      (hslot : s.slot.step e = some slot) : StepCase s (.slot e) { s with slot := slot }
  | pickUp (pub : TensorPublisher) (h : s.phase = .written)
      (hpick : s.prod.pub.pickUpConsumers s.prod.pool = some pub) :
      StepCase s .pickUp { s.setPub pub with phase := .idle }

/-- **What a step does.** -/
theorem step_cases {s s' : Publication R} {e : PublicationEv R} (h : s.step e = some s') :
    s.StepCase e s' := by
  cases e with
  | prod e =>
      simp only [step] at h
      split at h
      · cases h
      · rename_i he
        obtain ⟨prod, hprod, rfl⟩ := Option.map_eq_some_iff.mp h
        exact .prod e prod he hprod
  | publish now d syncFd =>
      simp only [step] at h
      split at h
      · rename_i hphase
        cases h
        unfold beginPublish
        split
        · rename_i e hcheck
          exact .refuse now d syncFd e hphase hcheck
        · rename_i hcheck
          exact .stamp now d syncFd hphase hcheck
      · cases h
  | sendFence =>
      simp only [step] at h
      split at h
      · rename_i desc syncFd hphase
        obtain ⟨pub, hsend, rfl⟩ := Option.map_eq_some_iff.mp h
        exact .sendFence desc syncFd pub hphase hsend
      · cases h
  | slot e =>
      obtain ⟨slot, hslot, h⟩ := Option.bind_eq_some_iff.mp h
      split at h
      · -- `publish` of the slot is called with the descriptor stamped
        split at h
        · rename_i desc hphase
          split_ifs at h with hd
          subst hd
          cases h
          exact .call _ slot hphase hslot
        · cases h
      · split at h
        · rename_i desc hphase
          cases h
          exact .ret desc slot hphase hslot
        · cases h
      · -- all other accesses leave the phase as it is
        rename_i hcall hret
        cases h
        exact .access e slot (fun d hd => hcall d hd) (fun he => hret he) hslot
  | pickUp =>
      simp only [step] at h
      split at h
      · rename_i hphase
        obtain ⟨pub, hpick, rfl⟩ := Option.map_eq_some_iff.mp h
        exact .pickUp pub hphase hpick
      · cases h

end Publication

/-- **A publisher and its slot**, from the creation of both. -/
def publicationMachine (R : Type) [DecidableEq R] : Machine (Publication R) (PublicationEv R) where
  init s := producerMachine.init s.prod ∧ s.phase = .idle ∧ s.slot = .initial
  step := Publication.step

end Axon
