import Axon.Foundation.Machine
import Mathlib.Algebra.Order.Group.Nat
import Mathlib.Data.List.TakeDrop
import Mathlib.Logic.Function.Basic

/-! # A latest-value register

A register that one writer overwrites and any number of readers sample, as a machine whose operations
take time. A write begins, commits and finishes; a read is called and returns. A read may return the
value of any write committed by now that is not older than the last one committed when the read was
called. It may miss (return nothing) only when it was not willing to try, when no write had finished,
or when a write was under way at some moment of the read.

* **`registerMachine R V`**: values in `V`, readers in `R`.
* **`RegisterInv`**: the invariant of its runs; `RegisterInv.undisturbed` says that an undisturbed read
  returns the last value. -/

namespace Axon.Foundation

/-- Where the writer of a register stands. -/
inductive WritePhase (V : Type)
  | idle
  /-- The write of `v` has begun and is not visible yet. -/
  | writing (v : V)
  /-- The write is visible and has not finished. -/
  | committed
  deriving DecidableEq

/-- A read under way. -/
structure PendingRead where
  /-- How many writes had committed when the read was called. -/
  floor : ℕ
  /-- The read may return nothing. -/
  mayMiss : Bool

/-- The state of a latest-value register. -/
structure Register (R V : Type) where
  /-- The values committed so far, oldest first. -/
  values : List V
  writer : WritePhase V
  /-- How many writes have finished. -/
  finished : ℕ
  readers : R → Option PendingRead

/-- The events of a latest-value register. -/
inductive RegisterEv (R V : Type)
  | begin (v : V)
  | commit
  | finish
  /-- `r` calls; `willing` is false when it is not going to try at all. -/
  | readCall (r : R) (willing : Bool)
  | readRet (r : R) (res : Option V)

namespace Register

variable {R V : Type} [DecidableEq R] [DecidableEq V]

/-- Nothing written, nothing under way. -/
def initial : Register R V where
  values := []
  writer := .idle
  finished := 0
  readers := fun _ => none

/-- What a read under way may return: a value committed at its call or later, or nothing if it may
miss. -/
def MayReturn (s : Register R V) (p : PendingRead) : Option V → Prop
  | some v => v ∈ s.values.drop (p.floor - 1)
  | none => p.mayMiss = true

/-- Whether a read may return a value is a search of those committed since. -/
instance (s : Register R V) (p : PendingRead) (res : Option V) : Decidable (s.MayReturn p res) :=
  match res with
  | some v => inferInstanceAs (Decidable (v ∈ s.values.drop (p.floor - 1)))
  | none => inferInstanceAs (Decidable (p.mayMiss = true))

/-- One event of the register. -/
def step (s : Register R V) : RegisterEv R V → Option (Register R V)
  | .begin v =>
      match s.writer with
      | .idle => some { s with
          writer := .writing v
          readers := fun r => (s.readers r).map fun p => { p with mayMiss := true } }
      | _ => none
  | .commit =>
      match s.writer with
      | .writing v => some { s with values := s.values ++ [v], writer := .committed }
      | _ => none
  | .finish =>
      match s.writer with
      | .committed => some { s with writer := .idle, finished := s.finished + 1 }
      | _ => none
  | .readCall r willing =>
      match s.readers r with
      | none => some { s with readers := Function.update s.readers r (some
          { floor := s.values.length
            mayMiss := !(willing && decide (0 < s.finished) && decide (s.writer = .idle)) }) }
      | some _ => none
  | .readRet r res =>
      match s.readers r with
      | some p =>
          if s.MayReturn p res then some { s with readers := Function.update s.readers r none } else none
      | none => none

section Step

variable {s : Register R V}

/-- A write may begin when there is none. -/
theorem step_begin (h : s.writer = .idle) (v : V) : s.step (.begin v) = some { s with
    writer := .writing v
    readers := fun r => (s.readers r).map fun p => { p with mayMiss := true } } := by
  simp only [step, h]

/-- A write that has begun takes effect. -/
theorem step_commit {v : V} (h : s.writer = .writing v) :
    s.step .commit = some { s with values := s.values ++ [v], writer := .committed } := by
  simp only [step, h]

/-- A write that has taken effect returns. -/
theorem step_finish (h : s.writer = .committed) :
    s.step .finish = some { s with writer := .idle, finished := s.finished + 1 } := by
  simp only [step, h]

/-- A reader that is not reading may read. -/
theorem step_readCall {r : R} (h : s.readers r = none) (willing : Bool) :
    s.step (.readCall r willing) = some { s with readers := Function.update s.readers r (some
      { floor := s.values.length
        mayMiss := !(willing && decide (0 < s.finished) && decide (s.writer = .idle)) }) } := by
  simp only [step, h]

/-- A read returns what it may. -/
theorem step_readRet {r : R} {p : PendingRead} {res : Option V} (h : s.readers r = some p)
    (hres : s.MayReturn p res) :
    s.step (.readRet r res) = some { s with readers := Function.update s.readers r none } := by
  simp only [step, h, if_pos hres]

end Step

/-- The events of the register, with the state after each. -/
inductive StepCase (s : Register R V) : RegisterEv R V → Register R V → Prop
  | begin (v : V) (h : s.writer = .idle) : StepCase s (.begin v) { s with
      writer := .writing v
      readers := fun r => (s.readers r).map fun p => { p with mayMiss := true } }
  | commit (v : V) (h : s.writer = .writing v) :
      StepCase s .commit { s with values := s.values ++ [v], writer := .committed }
  | finish (h : s.writer = .committed) :
      StepCase s .finish { s with writer := .idle, finished := s.finished + 1 }
  | readCall (r : R) (willing : Bool) (h : s.readers r = none) :
      StepCase s (.readCall r willing) { s with readers := Function.update s.readers r (some
        { floor := s.values.length
          mayMiss := !(willing && decide (0 < s.finished) && decide (s.writer = .idle)) }) }
  | readRet (r : R) (res : Option V) (p : PendingRead) (h : s.readers r = some p)
      (hres : s.MayReturn p res) :
      StepCase s (.readRet r res) { s with readers := Function.update s.readers r none }

/-- **What a step does.** -/
theorem step_cases {s s' : Register R V} {a : RegisterEv R V} (h : s.step a = some s') :
    StepCase s a s' := by
  cases a with
  | begin v =>
      -- a begin needs an idle writer, a return a value that was read
      simp only [step] at h
      split at h
      · case h_1 hw => cases h; exact .begin v hw
      · cases h
  | commit =>
      simp only [step] at h
      split at h
      · case h_1 v hw => cases h; exact .commit v hw
      · cases h
  | finish =>
      simp only [step] at h
      split at h
      · case h_1 hw => cases h; exact .finish hw
      · cases h
  | readCall r willing =>
      simp only [step] at h
      split at h
      · case h_1 hr => cases h; exact .readCall r willing hr
      · cases h
  | readRet r res =>
      simp only [step] at h
      split at h
      · case h_1 p hr =>
          split_ifs at h with hres
          cases h
          exact .readRet r res p hr hres
      · cases h

end Register

/-- **The register machine.** -/
def registerMachine (R V : Type) [DecidableEq R] [DecidableEq V] :
    Machine (Register R V) (RegisterEv R V) where
  init s := s = .initial
  step := Register.step

/-- **The invariant of the register**: the writer's phase fixes how many writes have finished, a pending
read's floor is within the committed values, and a read that may not miss has been undisturbed since
its call. -/
structure RegisterInv {R V : Type} (s : Register R V) : Prop where
  idle : s.writer = .idle → s.finished = s.values.length
  writing : ∀ v, s.writer = .writing v → s.finished = s.values.length
  committed : s.writer = .committed → s.finished + 1 = s.values.length
  floor : ∀ r p, s.readers r = some p → p.floor ≤ s.values.length
  sure : ∀ r p, s.readers r = some p → p.mayMiss = false →
    s.writer = .idle ∧ p.floor = s.values.length ∧ 0 < p.floor

namespace RegisterInv

variable {R V : Type} [DecidableEq R] [DecidableEq V] {s s' : Register R V}

omit [DecidableEq R] [DecidableEq V] in
/-- A register begins without values. -/
theorem initial : RegisterInv (Register.initial : Register R V) where
  idle _ := rfl
  writing _ h := by cases h
  committed h := by cases h
  floor _ _ h := by cases h
  sure _ _ h := by cases h

/-- Every event keeps the invariant. -/
theorem step {a : RegisterEv R V} (h : RegisterInv s) (hs : s.step a = some s') : RegisterInv s' := by
  obtain ⟨hidle, hwriting, hcommitted, hfloor, hsure⟩ := h
  cases Register.step_cases hs with
  | begin v hw =>
      refine ⟨nofun, fun v' _ => hidle hw, nofun, fun r p hp => ?_, fun r p hp hm => ?_⟩
      · obtain ⟨p', hp', rfl⟩ := Option.map_eq_some_iff.mp hp
        exact hfloor r p' hp'
      · obtain ⟨p', hp', rfl⟩ := Option.map_eq_some_iff.mp hp
        cases hm
  | commit v hw =>
      refine ⟨nofun, nofun, fun _ => ?_, fun r p hp => ?_, fun r p hp hm => ?_⟩
      · simp [hwriting v hw]
      · simpa using (hfloor r p hp).trans (Nat.le_succ _)
      · -- a read that may not miss excludes a write under way
        rw [hw] at hsure
        cases (hsure r p hp hm).1
  | finish hw =>
      refine ⟨fun _ => hcommitted hw, nofun, nofun, hfloor, fun r p hp hm => ?_⟩
      rw [hw] at hsure
      cases (hsure r p hp hm).1
  | readCall r willing hr =>
      refine ⟨hidle, hwriting, hcommitted, fun r' p hp => ?_, fun r' p hp hm => ?_⟩
      · by_cases hrr : r' = r
        · subst hrr
          obtain rfl := Option.some.inj ((Function.update_self r' _ s.readers).symm.trans hp)
          exact le_rfl
        · exact hfloor r' p (by simpa [Function.update_of_ne hrr] using hp)
      · by_cases hrr : r' = r
        · subst hrr
          obtain rfl := Option.some.inj ((Function.update_self r' _ s.readers).symm.trans hp)
          simp only [Bool.not_eq_false', Bool.and_eq_true, decide_eq_true_eq] at hm
          refine ⟨hm.2, rfl, ?_⟩
          show 0 < s.values.length
          rw [← hidle hm.2]
          exact hm.1.2
        · exact hsure r' p (by simpa [Function.update_of_ne hrr] using hp) hm
  | readRet r res p hr hres =>
      refine ⟨hidle, hwriting, hcommitted, fun r' p' hp => ?_, fun r' p' hp hm => ?_⟩
      all_goals
        have hrr : r' ≠ r := by
          rintro rfl
          simp at hp
        simp only [Function.update_of_ne hrr] at hp
      · exact hfloor r' p' hp
      · exact hsure r' p' hp hm

/-- The invariant holds throughout every run. -/
theorem of_run {tr : List (RegisterEv R V)} (h : (registerMachine R V).Run tr s) : RegisterInv s := by
  refine h.invariant (P := fun _ s => RegisterInv s) ?_ fun tr s a s' _ hi hs => hi.step hs
  rintro s rfl
  exact .initial

omit [DecidableEq R] [DecidableEq V] in
/-- **An undisturbed read returns the last value.** -/
theorem undisturbed {r : R} {p : PendingRead} {res : Option V} (h : RegisterInv s)
    (hp : s.readers r = some p) (hm : p.mayMiss = false) (hres : s.MayReturn p res) :
    ∃ v, res = some v ∧ s.values.getLast? = some v := by
  obtain ⟨-, hfloor, hpos⟩ := h.sure r p hp hm
  cases res with
  | none => exact absurd hres (by simp [Register.MayReturn, hm])
  | some v =>
      refine ⟨v, rfl, ?_⟩
      have hmem : v ∈ s.values.drop (s.values.length - 1) := hfloor ▸ hres
      rw [List.drop_length_sub_one (by rintro h0; simp [h0] at hfloor; omega),
        List.mem_singleton] at hmem
      rw [hmem, List.getLast?_eq_some_getLast]

end RegisterInv

/-- What a read returns was committed at some position, not before the last one committed when the read
was called. -/
theorem Register.MayReturn.exists_index {R V : Type} {s : Register R V} {p : PendingRead} {v : V}
    (h : s.MayReturn p (some v)) : ∃ m, s.values[m]? = some v ∧ p.floor ≤ m + 1 := by
  obtain ⟨i, hi⟩ := List.mem_iff_getElem?.mp h
  rw [List.getElem?_drop] at hi
  exact ⟨_, hi, by omega⟩

end Axon.Foundation
