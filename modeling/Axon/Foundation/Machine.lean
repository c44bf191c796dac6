import Mathlib.Data.List.Induction
import Mathlib.Tactic.Common

/-! # Labelled machines and their runs

A small theory of state machines whose transitions are labelled by the event that happens. The
transition function is partial: `step s a = none` says that the event `a` cannot happen in the
state `s`, so all nondeterminism sits in the choice of the next event.

* **`Machine.Run M tr s`**: from some initial state the events `tr`, in this order, lead to `s`.
* **`Machine.exec`** runs a list of events and computes the state reached; `Run.of_exec` turns a
  computed execution into a run.
* **`Run.invariant`** is the induction rule over runs. Its motive sees the events so far next to the
  state, so a property may speak of the history without the state recording it.
* **`Machine.RunWhere`** are the runs all of whose events meet a condition when they happen.
* **`Run.project`** carries a run of a system over to a run of one of its components. -/

namespace Axon.Foundation

universe u v w x

/-- A **machine** over states `σ` and events `α`: its initial states and a partial transition
function. -/
structure Machine (σ : Type u) (α : Type v) where
  /-- The states a run may start in. -/
  init : σ → Prop
  /-- The state after an event, or `none` when the event cannot happen. -/
  step : σ → α → Option σ

namespace Machine

variable {σ : Type u} {α : Type v} {τ : Type w} {β : Type x}

/-- Perform a list of events one after the other, failing at the first that cannot happen. -/
def exec (M : Machine σ α) : σ → List α → Option σ
  | s, [] => some s
  | s, a :: tr => (M.step s a).bind fun s' => M.exec s' tr

/-- Without events the state stays. -/
@[simp] theorem exec_nil (M : Machine σ α) (s : σ) : M.exec s [] = some s := rfl

/-- The first event, and the others behind it. -/
@[simp] theorem exec_cons (M : Machine σ α) (s : σ) (a : α) (tr : List α) :
    M.exec s (a :: tr) = (M.step s a).bind fun s' => M.exec s' tr := rfl

/-- Executing a concatenation is executing its parts in turn. -/
theorem exec_append (M : Machine σ α) (s : σ) (tr tr' : List α) :
    M.exec s (tr ++ tr') = (M.exec s tr).bind fun s' => M.exec s' tr' := by
  induction tr generalizing s with
  | nil => rfl
  | cons a tr ih =>
      rw [List.cons_append, exec_cons, exec_cons]
      cases M.step s a with
      | none => rfl
      | some s' => exact ih s'

/-- **Induction over an execution**: what holds at its start and is kept by each of its events holds at its
end. Each event may use that the execution goes on to this end. -/
theorem exec_invariant {M : Machine σ α} {P : σ → Prop} {tr : List α} {s s' : σ}
    (h : M.exec s tr = some s') (h0 : P s)
    (hs : ∀ s₁ a s₂, a ∈ tr → P s₁ → M.step s₁ a = some s₂ → (∃ tr', M.exec s₂ tr' = some s') → P s₂) :
    P s' := by
  induction tr generalizing s with
  | nil =>
      obtain rfl : s = s' := Option.some.inj h
      exact h0
  | cons a tr ih =>
      rw [exec_cons, Option.bind_eq_some_iff] at h
      obtain ⟨s₁, h₁, h⟩ := h
      exact ih h (hs s a s₁ List.mem_cons_self h0 h₁ ⟨tr, h⟩) fun s₁ b s₂ hb =>
        hs s₁ b s₂ (List.mem_cons_of_mem a hb)

/-- Every event of a list meets the condition `C` in the state in which it happens. -/
def Meets (M : Machine σ α) (C : σ → α → Prop) : σ → List α → Prop
  | _, [] => True
  | s, a :: tr => C s a ∧ ∀ s', M.step s a = some s' → M.Meets C s' tr

/-- A condition that can be decided in every state can be decided along a run. -/
instance Meets.decidable (M : Machine σ α) (C : σ → α → Prop) [∀ s a, Decidable (C s a)] :
    ∀ (tr : List α) (s : σ), Decidable (M.Meets C s tr)
  | [], _ => isTrue trivial
  | a :: tr, s =>
      have := fun s' => Meets.decidable M C tr s'
      inferInstanceAs (Decidable (C s a ∧ ∀ s' ∈ M.step s a, M.Meets C s' tr))

/-- Events that meet a condition in every state. -/
theorem Meets.of_forall {M : Machine σ α} {C : σ → α → Prop} {tr : List α} (h : ∀ a ∈ tr, ∀ s, C s a)
    (s : σ) : M.Meets C s tr := by
  induction tr generalizing s with
  | nil => trivial
  | cons a tr ih =>
      exact ⟨h a List.mem_cons_self s, fun s' _ => ih (fun b hb => h b (List.mem_cons_of_mem a hb)) s'⟩

/-- A concatenation meets a condition when its parts do, one after the other. -/
theorem Meets.append {M : Machine σ α} {C : σ → α → Prop} {tr tr' : List α} {s : σ}
    (h : M.Meets C s (tr ++ tr')) :
    M.Meets C s tr ∧ ∀ s', M.exec s tr = some s' → M.Meets C s' tr' := by
  induction tr generalizing s with
  | nil =>
      refine ⟨trivial, fun s' hs => ?_⟩
      obtain rfl : s = s' := Option.some.inj hs
      exact h
  | cons a tr ih =>
      refine ⟨⟨h.1, fun s₁ hs₁ => (ih (h.2 s₁ hs₁)).1⟩, fun s' hs => ?_⟩
      rw [exec_cons, Option.bind_eq_some_iff] at hs
      obtain ⟨s₁, hs₁, hs⟩ := hs
      exact (ih (h.2 s₁ hs₁)).2 s' hs

/-- **Induction over an execution under a condition**: the condition is available at each of its events. -/
theorem Meets.invariant {M : Machine σ α} {C : σ → α → Prop} {P : σ → Prop} {tr : List α} {s s' : σ}
    (hc : M.Meets C s tr) (h : M.exec s tr = some s') (h0 : P s)
    (hs : ∀ s₁ a s₂, P s₁ → C s₁ a → M.step s₁ a = some s₂ → P s₂) : P s' := by
  induction tr generalizing s with
  | nil =>
      obtain rfl : s = s' := Option.some.inj h
      exact h0
  | cons a tr ih =>
      rw [exec_cons, Option.bind_eq_some_iff] at h
      obtain ⟨s₁, h₁, h⟩ := h
      exact ih (hc.2 s₁ h₁) h (hs s a s₁ h0 hc.1 h₁)

/-- Some events that all meet the condition `C` **lead** from one state to another. -/
def Leads (M : Machine σ α) (C : σ → α → Prop) (s s' : σ) : Prop := ∃ tr, M.exec s tr = some s' ∧ M.Meets C s tr

namespace Leads

variable {M : Machine σ α} {C : σ → α → Prop} {s s₁ s₂ : σ}

/-- Every state leads to itself. -/
theorem refl (s : σ) : M.Leads C s s := ⟨[], rfl, trivial⟩

/-- One more event that meets the condition. -/
theorem snoc {a : α} (h : M.Leads C s s₁) (hc : C s₁ a) (hs : M.step s₁ a = some s₂) : M.Leads C s s₂ := by
  obtain ⟨tr, he, hm⟩ := h
  refine ⟨tr ++ [a], ?_, ?_⟩
  · rw [exec_append, he]
    simpa using hs
  · induction tr generalizing s with
    | nil =>
        obtain rfl : s = s₁ := Option.some.inj he
        exact ⟨hc, fun _ _ => trivial⟩
    | cons b tr ih =>
        rw [exec_cons, Option.bind_eq_some_iff] at he
        obtain ⟨s', hb, he⟩ := he
        refine ⟨hm.1, fun s'' hs'' => ?_⟩
        obtain rfl := Option.some.inj (hb.symm.trans hs'')
        exact ih he (hm.2 s' hb)

/-- What holds at the start and is kept by every event that meets the condition. -/
theorem invariant {P : σ → Prop} (h : M.Leads C s s₁) (h0 : P s)
    (hs : ∀ s a s', P s → C s a → M.step s a = some s' → P s') : P s₁ := by
  obtain ⟨tr, he, hm⟩ := h
  exact hm.invariant he h0 hs

end Leads

/-- **Conditions that agree as long as they are met**: two conditions that agree on the steps from states with a
property are met by the same executions, when steps that meet them keep the property. -/
theorem meets_iff_while {M : Machine σ α} {P : σ → Prop} {C D : σ → α → Prop} {tr : List α} {s s' : σ}
    (hexec : M.exec s tr = some s') (h0 : P s) (hs : ∀ s a s', P s → D s a → M.step s a = some s' → P s')
    (hiff : ∀ s a s', P s → M.step s a = some s' → (C s a ↔ D s a)) :
    M.Meets C s tr ↔ M.Meets D s tr := by
  induction tr generalizing s with
  | nil => exact Iff.rfl
  | cons a tr ih =>
      rw [exec_cons, Option.bind_eq_some_iff] at hexec
      obtain ⟨s₁, h₁, hexec⟩ := hexec
      -- both directions walk the same run, and need the step's condition to keep `P`
      constructor
      · intro h
        have hd := (hiff s a s₁ h0 h₁).mp h.1
        refine ⟨hd, fun s₂ h₂ => ?_⟩
        obtain rfl := Option.some.inj (h₁.symm.trans h₂)
        exact (ih hexec (hs s a s₁ h0 hd h₁)).mp (h.2 s₁ h₁)
      · intro h
        refine ⟨(hiff s a s₁ h0 h₁).mpr h.1, fun s₂ h₂ => ?_⟩
        obtain rfl := Option.some.inj (h₁.symm.trans h₂)
        exact (ih hexec (hs s a s₁ h0 h.1 h₁)).mpr (h.2 s₁ h₁)

/-- Two conditions that agree on every step an execution can take are met by the same executions. The
states on the way satisfy an invariant. -/
theorem meets_iff {M : Machine σ α} {P : σ → Prop} {C D : σ → α → Prop} {tr : List α} {s s' : σ}
    (hexec : M.exec s tr = some s') (h0 : P s) (hs : ∀ s a s', P s → M.step s a = some s' → P s')
    (hiff : ∀ s a s', P s → M.step s a = some s' → (C s a ↔ D s a)) :
    M.Meets C s tr ↔ M.Meets D s tr :=
  meets_iff_while hexec h0 (fun s a s' h _ => hs s a s' h) hiff

/-- **The exact condition for a property to hold all along**: when `C` tells, in a state with the property,
which events keep it, the states that an execution goes through all have the property exactly when all its
events meet `C`. -/
theorem meets_keeps_iff {M : Machine σ α} {P : σ → Prop} {C : σ → α → Prop} {tr : List α} {s s' : σ}
    (hexec : M.exec s tr = some s') (h0 : P s)
    (hiff : ∀ s a s', P s → M.step s a = some s' → (P s' ↔ C s a)) :
    M.Meets (fun s a => ∀ s', M.step s a = some s' → P s') s tr ↔ M.Meets C s tr := by
  refine meets_iff_while hexec h0 (fun s a s' h hc hst => (hiff s a s' h hst).mpr hc) fun s a s₁ h hst => ?_
  rw [← hiff s a s₁ h hst]
  constructor
  · intro hkept
    exact hkept s₁ hst
  · intro hkept s₂ hst₂
    rwa [← Option.some.inj (hst.symm.trans hst₂)]

/-- When `C` tells exactly which events can happen, a list of events can be performed exactly when all of
them meet `C`. -/
theorem exec_isSome_iff {M : Machine σ α} {C : σ → α → Prop} {tr : List α}
    (h : ∀ s, ∀ a ∈ tr, (M.step s a).isSome = true ↔ C s a) (s : σ) :
    (M.exec s tr).isSome = true ↔ M.Meets C s tr := by
  induction tr generalizing s with
  | nil => simp [Meets]
  | cons a tr ih =>
      have ih := ih fun s b hb => h s b (List.mem_cons_of_mem a hb)
      rw [exec_cons, Meets, ← h s a List.mem_cons_self]
      cases M.step s a with
      | none => simp
      | some s' => simpa using ih s'

/-- **Runs**: `M.Run tr s` says that the events `tr` lead from some initial state to `s`. -/
inductive Run (M : Machine σ α) : List α → σ → Prop
  /-- The empty run stays in an initial state. -/
  | nil {s : σ} (h : M.init s) : Run M [] s
  /-- A run is extended by one event that can happen in its last state. -/
  | snoc {tr : List α} {s s' : σ} {a : α} (h : Run M tr s) (hs : M.step s a = some s') :
      Run M (tr ++ [a]) s'

namespace Run

variable {M : Machine σ α} {tr : List α} {s : σ}

/-- **Induction over runs**: a property of histories and states that holds at the start and is kept
by every event holds of every run. -/
theorem invariant {P : List α → σ → Prop} (h0 : ∀ s, M.init s → P [] s)
    (hs : ∀ tr s a s', M.Run tr s → P tr s → M.step s a = some s' → P (tr ++ [a]) s')
    (h : M.Run tr s) : P tr s := by
  induction h with
  | nil hi => exact h0 _ hi
  | snoc hr hst ih => exact hs _ _ _ _ hr ih hst

/-- A run followed by an execution from its last state is a run. -/
theorem append_exec {s' : σ} {tr' : List α} (h : M.Run tr s) (he : M.exec s tr' = some s') :
    M.Run (tr ++ tr') s' := by
  induction tr' generalizing tr s with
  | nil =>
      obtain rfl : s = s' := Option.some.inj he
      rwa [List.append_nil]
  | cons a tr' ih =>
      rw [exec_cons, Option.bind_eq_some_iff] at he
      obtain ⟨s₁, h₁, he⟩ := he
      have := ih (h.snoc h₁) he
      rwa [List.append_assoc, List.singleton_append] at this

/-- A computed execution from an initial state is a run. -/
theorem of_exec {s₀ : σ} (h0 : M.init s₀) (he : M.exec s₀ tr = some s) : M.Run tr s := by
  simpa using (Run.nil h0).append_exec he

/-- A run splits at any point of its history: the first part is a run, the second an execution from
the state the first one reached. -/
theorem split {tr₁ tr₂ : List α} (h : M.Run (tr₁ ++ tr₂) s) :
    ∃ s₁, M.Run tr₁ s₁ ∧ M.exec s₁ tr₂ = some s := by
  induction tr₂ using List.reverseRecOn generalizing s with
  | nil => exact ⟨s, by simpa using h, rfl⟩
  | append_singleton tr₂ a ih =>
      rw [← List.append_assoc] at h
      generalize hl : tr₁ ++ tr₂ ++ [a] = l at h
      cases h with
      | nil => simp at hl
      | snoc hr hst =>
          obtain ⟨rfl, ha⟩ := List.append_inj' hl rfl
          obtain rfl := List.singleton_inj.mp ha
          obtain ⟨s₁, h₁, he⟩ := ih hr
          refine ⟨s₁, h₁, ?_⟩
          rw [exec_append, he]
          simpa using hst

/-- The event at position `i` of a run happened in a state that the events before it had reached. -/
theorem step_at {i : ℕ} {a : α} (h : M.Run tr s) (hi : tr[i]? = some a) :
    ∃ s₁ s₂, M.Run (tr.take i) s₁ ∧ M.step s₁ a = some s₂ ∧ M.exec s₂ (tr.drop (i + 1)) = some s := by
  obtain ⟨hlt, ha⟩ := List.getElem?_eq_some_iff.mp hi
  have hsplit : tr = tr.take i ++ a :: tr.drop (i + 1) := by
    rw [← ha, List.getElem_cons_drop, List.take_append_drop]
  rw [hsplit] at h
  obtain ⟨s₁, h₁, he⟩ := h.split
  rw [exec_cons, Option.bind_eq_some_iff] at he
  obtain ⟨s₂, h₂, he⟩ := he
  exact ⟨s₁, s₂, h₁, h₂, he⟩

/-- **Projection onto a component**: when every event of a system either is an event of the component
or leaves the component alone, the history of a run of the system, seen by the component, is the
history of a run of the component. -/
theorem project {N : Machine τ β} {f : σ → τ} {g : α → Option β}
    (hi : ∀ s, M.init s → N.init (f s))
    (hs : ∀ s a s', M.step s a = some s' →
      match g a with
      | some b => N.step (f s) b = some (f s')
      | none => f s' = f s)
    (h : M.Run tr s) : N.Run (tr.filterMap g) (f s) := by
  induction h with
  | nil h0 => exact .nil (hi _ h0)
  | @snoc tr s s' a hr hst ih =>
      have hstep := hs s a s' hst
      rw [List.filterMap_append]
      -- an event without an image leaves the projected state
      cases hg : g a with
      | none =>
          rw [hg] at hstep
          simpa [hg, hstep] using ih
      | some b =>
          rw [hg] at hstep
          simpa [hg] using ih.snoc hstep

end Run

/-- **Runs under a condition**: `M.RunWhere C tr s` says that the events `tr` lead from some initial state
to `s`, and that each of them met the condition `C` in the state in which it happened. -/
inductive RunWhere (M : Machine σ α) (C : σ → α → Prop) : List α → σ → Prop
  | nil {s : σ} (h : M.init s) : RunWhere M C [] s
  | snoc {tr : List α} {s s' : σ} {a : α} (h : RunWhere M C tr s) (hc : C s a)
      (hs : M.step s a = some s') : RunWhere M C (tr ++ [a]) s'

namespace RunWhere

variable {M : Machine σ α} {C : σ → α → Prop} {tr : List α} {s : σ}

/-- A run under a condition is a run. -/
theorem run (h : M.RunWhere C tr s) : M.Run tr s := by
  induction h with
  | nil h => exact .nil h
  | snoc _ _ hs ih => exact ih.snoc hs

/-- A run under a condition followed by an execution that meets it. -/
theorem append_exec {s' : σ} {tr' : List α} (h : M.RunWhere C tr s) (he : M.exec s tr' = some s')
    (hc : M.Meets C s tr') : M.RunWhere C (tr ++ tr') s' := by
  induction tr' generalizing tr s with
  | nil =>
      obtain rfl : s = s' := Option.some.inj he
      rwa [List.append_nil]
  | cons a tr' ih =>
      rw [exec_cons, Option.bind_eq_some_iff] at he
      obtain ⟨s₁, h₁, he⟩ := he
      have := ih (h.snoc hc.1 h₁) he (hc.2 s₁ h₁)
      rwa [List.append_assoc, List.singleton_append] at this

/-- A computed execution from an initial state that meets the condition is a run under it. -/
theorem of_exec {s₀ : σ} (h0 : M.init s₀) (he : M.exec s₀ tr = some s) (hc : M.Meets C s₀ tr) :
    M.RunWhere C tr s := by
  simpa using (RunWhere.nil h0).append_exec he hc

/-- **Induction over runs under a condition**: the condition is available at every step. -/
theorem invariant {P : List α → σ → Prop} (h0 : ∀ s, M.init s → P [] s)
    (hs : ∀ tr s a s', M.RunWhere C tr s → P tr s → C s a → M.step s a = some s' → P (tr ++ [a]) s')
    (h : M.RunWhere C tr s) : P tr s := by
  induction h with
  | nil hi => exact h0 _ hi
  | snoc hr hc hst ih => exact hs _ _ _ _ hr ih hc hst

end RunWhere

/-- A state is **reachable** when some run ends in it. -/
def Reachable (M : Machine σ α) (s : σ) : Prop := ∃ tr, M.Run tr s

/-- Every reachable state satisfies a predicate that holds initially and is kept by every event. -/
theorem Reachable.invariant {M : Machine σ α} {s : σ} {P : σ → Prop} (h0 : ∀ s, M.init s → P s)
    (hs : ∀ s a s', P s → M.step s a = some s' → P s') (h : M.Reachable s) : P s := by
  obtain ⟨tr, hr⟩ := h
  exact hr.invariant (P := fun _ s => P s) h0 fun _ s a s' _ hp hst => hs s a s' hp hst

end Machine

end Axon.Foundation
