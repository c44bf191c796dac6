import Axon.Foundation.Machine
import Axon.Foundation.Resources

/-! # Objects that own resources

A process has any number of objects. Each owns resources, and its functions turn what it owns into something else.
When every function accounts for its own object, the process accounts for all of them, whichever functions are called
in whichever order.

* **`ObjectClass`**: the objects, what they own and their functions.
* **`ObjectClass.Accounts`**: what is to be shown of one function. `Accounts.keep` is the rule of those that leave an
  object, `Accounts.gone` the rule of destructors.
* **`ObjectClass.Sound.accounts`**: what holds of the process then. -/

namespace Axon.Foundation

open Prog

variable {σ α τ ο γ ε β : Type}

/-- A **class** of objects `ο`, with constructors `γ` and functions `ε`. -/
structure ObjectClass (σ α τ ο γ ε : Type) where
  /-- What an object owns. -/
  owned : ο → Multiset τ
  /-- A constructor, which may give no object. -/
  create : γ → Prog σ α τ (Option ο)
  /-- A function, if the object has it, and what it leaves of the object. -/
  call : ε → ο → Option (Prog σ α τ (Option ο))

/-- The objects of a process, and the system below it. -/
structure World (σ α τ ο : Type) where
  objects : List (Option ο)
  kernel : Kernel σ α τ

/-- What happens in a process. -/
inductive WorldEv (γ ε : Type)
  | create (c : γ)
  | call (i : ℕ) (e : ε)

namespace ObjectClass

/-- A function that leaves an object. -/
def keeping (after : β → ο) (prog : Prog σ α τ β) : Prog σ α τ (Option ο) := do
  let b ← prog
  return some (after b)

/-- A function that leaves none. -/
def ending (prog : Prog σ α τ β) : Prog σ α τ (Option ο) := do
  let _ ← prog
  return none

variable (C : ObjectClass σ α τ ο γ ε)

/-- What is owned by an object, if it is there. -/
def ownedBy (o : Option ο) : Multiset τ := o.elim 0 C.owned

/-- What all the objects own. -/
def ownedAll (objects : List (Option ο)) : Multiset τ := (objects.map C.ownedBy).sum

/-- **A function accounts for its object**: what is open then is what the object owns then, and the object is
proper. -/
structure Accounts (Valid : ο → Prop) (pre : Multiset τ) (prog : Prog σ α τ (Option ο)) : Prop where
  uses : Uses pre prog C.ownedBy
  valid : Returns prog fun r => ∀ o, r = some o → Valid o

/-- **Every function accounts for its object**. -/
structure Sound (Valid : ο → Prop) : Prop where
  create : ∀ c, C.Accounts Valid 0 (C.create c)
  call : ∀ e o prog, Valid o → C.call e o = some prog → C.Accounts Valid (C.owned o) prog

variable {C} {Valid : ο → Prop} {pre : Multiset τ} {prog : Prog σ α τ β} {post : β → Multiset τ}

/-- A function that keeps its object accounts for it. -/
theorem Accounts.keep {after : β → ο} (huses : Uses pre prog post) (hpost : ∀ b, post b = C.owned (after b))
    (hvalid : Returns prog fun b => Valid (after b)) : C.Accounts Valid pre (keeping after prog) := by
  refine ⟨huses.bind fun b => .pure (hpost b), hvalid.bind fun b hb => .pure fun o ho => ?_⟩
  obtain rfl := Option.some.inj ho
  exact hb

/-- A function that ends its object has to release everything. -/
theorem Accounts.gone (huses : Uses pre prog fun _ => 0) : C.Accounts Valid pre (ending prog) :=
  ⟨huses.bind fun _ => .pure rfl, (Returns.trivial _).bind fun _ _ => .pure (by simp)⟩

/-- **The process**: an object is made, or one of the objects there are is called. -/
def machine (C : ObjectClass σ α τ ο γ ε) : Machine (World σ α τ ο) (WorldEv γ ε) where
  init w := w.objects = []
  step w
    | .create c => some ⟨w.objects ++ [(C.create c w.kernel).1], (C.create c w.kernel).2⟩
    | .call i e => (w.objects[i]?.join.bind (C.call e)).map fun prog =>
        ⟨w.objects.set i (prog w.kernel).1, (prog w.kernel).2⟩

/-- What every event keeps: exactly what the objects own is open, beside what was before. -/
structure Accounted (C : ObjectClass σ α τ ο γ ε) (Valid : ο → Prop) (k₀ : Kernel σ α τ) (w : World σ α τ ο) :
    Prop where
  live : w.kernel.live = k₀.live + C.ownedAll w.objects
  faults : w.kernel.faults = k₀.faults
  valid : ∀ o, some o ∈ w.objects → Valid o

/-- **A step keeps the account.** -/
theorem Accounted.step (hC : C.Sound Valid) {k₀ : Kernel σ α τ} {w w' : World σ α τ ο} {ev : WorldEv γ ε}
    (h : C.Accounted Valid k₀ w) (hs : C.machine.step w ev = some w') : C.Accounted Valid k₀ w' := by
  cases ev with
  | create c =>
      obtain rfl := Option.some.inj hs
      obtain ⟨hlive, hfaults⟩ := (hC.create c).uses.run (h.live.trans (add_zero _).symm)
      -- what is owned afterwards is what was owned, and the new object's part
      refine ⟨hlive.trans ?_, hfaults.trans h.faults, fun o ho => ?_⟩
      · simp [ownedAll, add_assoc]
      · rcases List.mem_append.mp ho with ho | ho
        · exact h.valid o ho
        · exact (hC.create c).valid w.kernel o (List.mem_singleton.mp ho).symm
  | call i e =>
      obtain ⟨prog, hprog, rfl⟩ := Option.map_eq_some_iff.mp hs
      obtain ⟨o, ho, hcall⟩ := Option.bind_eq_some_iff.mp hprog
      have hi : w.objects[i]? = some (some o) := Option.join_eq_some_iff.mp ho
      have hacc := hC.call e o prog (h.valid o (List.mem_of_getElem? hi)) hcall
      -- the other objects are the frame of the call
      obtain ⟨rest, hall, hset⟩ := sum_map_set C.ownedBy hi
      have hlive : w.kernel.live = (k₀.live + rest) + C.owned o := by
        rw [h.live, ownedAll, hall, add_comm _ rest, add_assoc]
        rfl
      obtain ⟨hlive', hfaults⟩ := hacc.uses.run hlive
      refine ⟨?_, hfaults.trans h.faults, fun o' ho' => ?_⟩
      · rw [hlive', ownedAll, hset, add_assoc, add_comm rest]
      -- the object called is the only one replaced
      · rcases List.mem_or_eq_of_mem_set ho' with ho' | ho'
        · exact h.valid o' ho'
        · exact hacc.valid w.kernel o' ho'.symm

/-- **The process accounts for everything**: in every run, beside what was open before, exactly what the objects own is
open, and nothing has been used or released that was not open. -/
theorem Sound.accounts (hC : C.Sound Valid) {k₀ : Kernel σ α τ} {tr : List (WorldEv γ ε)} {w : World σ α τ ο}
    (hexec : C.machine.exec ⟨[], k₀⟩ tr = some w) : C.Accounted Valid k₀ w :=
  Machine.exec_invariant hexec ⟨(add_zero _).symm, rfl, by simp⟩ fun _ _ _ _ h hs _ => h.step hC hs

/-- No object is there any more. -/
theorem ownedAll_of_none (C : ObjectClass σ α τ ο γ ε) {objects : List (Option ο)} (h : ∀ o ∈ objects, o = none) :
    C.ownedAll objects = 0 := by
  refine List.sum_eq_zero fun x hx => ?_
  obtain ⟨o, ho, rfl⟩ := List.mem_map.mp hx
  rw [h o ho]
  rfl

end ObjectClass

end Axon.Foundation
