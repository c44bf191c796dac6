import Axon.Foundation.Machine
import Axon.Foundation.NestedOverride
import Axon.Rt.LatencyHold

/-! # Holds that move and nest

A hold moves between objects, and a forked child has a copy. `latency_holds_restore` says that the holds of a
process restore what they found when they are released in the reverse order of their acquisition. -/

namespace Axon.Rt

open Foundation

/-! ## Objects and processes -/

/-- An object, and which of the holds acquired it has, if it has not been moved from. -/
structure HoldObj where
  hold : CpuLatencyHold
  value : Option ℕ

/-- The object that a move leaves behind. -/
def HoldObj.movedFrom (o : HoldObj) : HoldObj := ⟨o.hold.movedFrom, none⟩

/-- A process that acquires holds, its children, and the objects of each. -/
structure Holds where
  sys : LatencySys
  main : ℕ
  pids : List ℕ
  objs : ℕ → ℕ → Option HoldObj
  nextValue : ℕ
  /-- The limits that are set on each attribute, innermost first: by which hold, and what it found. -/
  live : String → List (Override ℕ (List Char))

/-- What the processes do: `x` and `y` are objects. -/
inductive HoldEv
  | acquire (maxLatencyUs cpu : Int32) (ans : AcquireAnswers) (x : ℕ)
  /-- `CpuLatencyHold y(std::move(x))`. -/
  | moveConstruct (pid x y : ℕ)
  /-- `y = std::move(x)`. -/
  | moveAssign (pid x y : ℕ)
  | destroy (pid x : ℕ)
  | fork (pid child : ℕ)

namespace Holds

/-- Put an object, or none, in a place. -/
def setObj (s : Holds) (pid x : ℕ) (o : Option HoldObj) : Holds :=
  { s with objs := Function.update s.objs pid (Function.update (s.objs pid) x o) }

/-- A hold is acquired into an object. -/
def acquired (s : Holds) (h : CpuLatencyHold) (x : ℕ) (sys : LatencySys) : Holds :=
  { s.setObj s.main x (some ⟨h, some s.nextValue⟩) with
    sys := sys
    nextValue := s.nextValue + 1
    live := if h.restore_ = [] then s.live
      else Function.update s.live h.path_ (⟨s.nextValue, limit h.us_, s.sys.attr h.path_⟩ :: s.live h.path_) }

/-- An object is moved into a new one. -/
def moved (s : Holds) (pid x y : ℕ) (o : HoldObj) : Holds := (s.setObj pid y (some o)).setObj pid x (some o.movedFrom)

/-- An object is released, and gone. In the process that has acquired it the hold ends. -/
def dropped (s : Holds) (pid x : ℕ) (o : HoldObj) : Holds :=
  { s.setObj pid x none with
    sys := (o.hold.release pid s.sys).2
    live := if pid = s.main then fun p => o.value.elim (s.live p) fun t => dropTag t (s.live p) else s.live }

/-- Assigning releases what the object had, and then moves as constructing does. An object that is assigned to
itself is left alone. -/
def step (s : Holds) : HoldEv → Option Holds
  | .acquire us cpu ans x =>
      if s.objs s.main x = none then
        let r := CpuLatencyHold.acquire s.main us cpu ans s.sys
        match r.1 with
        | .error _ => some { s with sys := r.2 }
        | .ok h => some (s.acquired h x r.2)
      else none
  | .moveConstruct pid x y =>
      if s.objs pid y = none then (s.objs pid x).map fun o => s.moved pid x y o else none
  | .moveAssign pid x y => (s.objs pid x).bind fun o => (s.objs pid y).map fun o' =>
      if x = y then s else (s.dropped pid y o').moved pid x y o
  | .destroy pid x => (s.objs pid x).map fun o => s.dropped pid x o
  | .fork pid child =>
      if pid ∈ s.pids ∧ child ∉ s.pids then
        some { s with pids := child :: s.pids, objs := Function.update s.objs child (s.objs pid) }
      else none

/-- The process that an event happens in. -/
def processOf (s : Holds) : HoldEv → ℕ
  | .acquire _ _ _ _ => s.main
  | .moveConstruct pid _ _ => pid
  | .moveAssign pid _ _ => pid
  | .destroy pid _ => pid
  | .fork pid _ => pid

/-- The object that an event releases. -/
def released (s : Holds) : HoldEv → Option HoldObj
  | .moveAssign pid x y => if x = y then none else s.objs pid y
  | .destroy pid x => s.objs pid x
  | _ => none

/-- **Holds are released in the reverse order**: what the process releases is the innermost hold on its
attribute. -/
def Lifo (s : Holds) (e : HoldEv) : Prop :=
  s.processOf e = s.main → ∀ o, s.released e = some o → ∀ p l, l ∈ s.live p → o.value = some l.tag →
    (s.live p).head? = some l

/-- What is known about the object `o` of the process: it has been moved from, it has the device, or it has one
of the limits that are set. -/
inductive Known (s : Holds) (o : HoldObj) : Prop
  | moved (hvalue : o.value = none) (hfd : o.hold.fd_ = none) (hrestore : o.hold.restore_ = [])
  | device (t fd : ℕ) (hvalue : o.value = some t) (ht : t < s.nextValue) (hfd : o.hold.fd_ = some fd)
      (hlive : ∀ p, ∀ l ∈ s.live p, l.tag ≠ t)
  | limit (l : Override ℕ (List Char)) (hvalue : o.value = some l.tag) (hfd : o.hold.fd_ = none)
      (hl : l ∈ s.live o.hold.path_) (hrestore : o.hold.restore_ = l.before)

/-- **The limits that are set** are nested, on attributes that were `base`; every one has its own tag. -/
structure LimitsNested (base : String → List Char) (s : Holds) : Prop where
  readable : ∀ p, SysfsValue (s.sys.attr p)
  nested : ∀ p, Nested (base p) (s.live p) (s.sys.attr p)
  before : ∀ p, ∀ l ∈ s.live p, SysfsValue l.before
  fresh : ∀ p, ∀ l ∈ s.live p, l.tag < s.nextValue
  nodup : ∀ p, ((s.live p).map (·.tag)).Nodup
  one_path : ∀ p p', ∀ l ∈ s.live p, ∀ l' ∈ s.live p', l.tag = l'.tag → p = p'

/-- **The objects** belong to the process or are copies, and no two objects of the process have the same hold. -/
structure ObjsOwned (s : Holds) : Prop where
  running : s.main ∈ s.pids
  owner : ∀ pid x o, s.objs pid x = some o → o.hold.ownerPid_ = s.main
  empty : ∀ pid x o, s.objs pid x = some o → o.value = none → o.hold.fd_ = none ∧ o.hold.restore_ = []
  known : ∀ x o, s.objs s.main x = some o → s.Known o
  distinct : ∀ x x' o o' t, s.objs s.main x = some o → s.objs s.main x' = some o' →
    o.value = some t → o'.value = some t → x = x'

variable {base : String → List Char} {s : Holds} {pid x y : ℕ} {o : HoldObj}

/-- One object is set, the others stay. -/
theorem objs_setObj (s : Holds) (pid x : ℕ) (o : Option HoldObj) (pid' x' : ℕ) :
    (s.setObj pid x o).objs pid' x' = if pid' = pid ∧ x' = x then o else s.objs pid' x' := by
  unfold setObj
  by_cases hpid : pid' = pid
  · subst hpid
    simp [Function.update_apply]
  · simp [hpid]

/-- A move concerns two objects. -/
theorem objs_moved (s : Holds) (pid x y : ℕ) (o : HoldObj) (pid' x' : ℕ) : (s.moved pid x y o).objs pid' x' =
    if pid' = pid ∧ x' = x then some o.movedFrom else if pid' = pid ∧ x' = y then some o else s.objs pid' x' := by
  rw [moved, objs_setObj, objs_setObj]

/-- A drop concerns one object. -/
theorem objs_dropped (s : Holds) (pid x : ℕ) (o : HoldObj) (pid' x' : ℕ) :
    (s.dropped pid x o).objs pid' x' = if pid' = pid ∧ x' = x then none else s.objs pid' x' :=
  s.objs_setObj pid x none pid' x'

/-! ### Moving -/

/-- What is known of a hold does not depend on the objects. -/
theorem Known.congr {s' : Holds} (h : s.Known o) (hlive : s'.live = s.live) (hnext : s.nextValue ≤ s'.nextValue) :
    s'.Known o := by
  cases h with
  | moved hvalue hfd hrestore => exact .moved hvalue hfd hrestore
  | device t fd hvalue ht hfd hno => exact .device t fd hvalue (ht.trans_le hnext) hfd (hlive ▸ hno)
  | limit l hvalue hfd hl hrestore => exact .limit l hvalue hfd (hlive ▸ hl) hrestore

/-- **A move keeps the objects in order.** -/
theorem ObjsOwned.moved (h : s.ObjsOwned) (hx : s.objs pid x = some o) (hy : s.objs pid y = none) :
    (s.moved pid x y o).ObjsOwned := by
  have hxy : x ≠ y := by
    rintro rfl
    rw [hx] at hy
    cases hy
  refine ⟨h.running, fun pid' x' o' ho' => ?_, fun pid' x' o' ho' => ?_, fun x' o' ho' => ?_, ?_⟩
  · rw [objs_moved] at ho'
    split_ifs at ho' with hfrom hto
    · cases ho'
      exact h.owner pid x o hx
    · cases ho'
      exact h.owner pid x o hx
    · exact h.owner pid' x' o' ho'
  · rw [objs_moved] at ho'
    split_ifs at ho' with hfrom hto
    · cases ho'
      exact fun _ => ⟨rfl, rfl⟩
    · cases ho'
      exact h.empty pid x o hx
    · exact h.empty pid' x' o' ho'
  · rw [objs_moved] at ho'
    split_ifs at ho' with hfrom hto
    · cases ho'
      exact .moved rfl rfl rfl
    · cases ho'
      exact (h.known x o (hto.1 ▸ hx)).congr rfl le_rfl
    · exact (h.known x' o' ho').congr rfl le_rfl
  · -- the hold moved is no longer where it was
    have hwhere : ∀ x' o' t, (s.moved pid x y o).objs s.main x' = some o' → o'.value = some t →
        ∃ x₀, s.objs s.main x₀ = some o' ∧ (x' = x₀ ∧ ¬ (s.main = pid ∧ x' = x) ∨ x' = y ∧ s.main = pid ∧ x₀ = x) := by
      intro x' o' t ho' ht
      rw [objs_moved] at ho'
      split_ifs at ho' with hfrom hto
      · cases ho'
        cases ht
      · cases ho'
        exact ⟨x, hto.1 ▸ hx, .inr ⟨hto.2, hto.1, rfl⟩⟩
      · exact ⟨x', ho', .inl ⟨rfl, hfrom⟩⟩
    intro x₁ x₂ o₁ o₂ t h₁ h₂ ht₁ ht₂
    obtain ⟨y₁, hy₁, hcase₁⟩ := hwhere x₁ o₁ t h₁ ht₁
    obtain ⟨y₂, hy₂, hcase₂⟩ := hwhere x₂ o₂ t h₂ ht₂
    have heq := h.distinct y₁ y₂ o₁ o₂ t hy₁ hy₂ ht₁ ht₂
    rcases hcase₁ with ⟨h₁, hn₁⟩ | ⟨h₁, hp, hx₁⟩ <;> rcases hcase₂ with ⟨h₂, hn₂⟩ | ⟨h₂, hp', hx₂⟩
    · rw [h₁, h₂, heq]
    · exact absurd ⟨hp', h₁.trans (heq.trans hx₂)⟩ hn₁
    · exact absurd ⟨hp, h₂.trans (heq.symm.trans hx₁)⟩ hn₂
    · rw [h₁, h₂]

/-! ### Releasing -/

/-- A process that has not acquired the hold does nothing to the system. -/
theorem dropped_of_ne (h : s.ObjsOwned) (hx : s.objs pid x = some o) (hpid : pid ≠ s.main) :
    (s.dropped pid x o).sys = s.sys ∧ (s.dropped pid x o).live = s.live := by
  refine ⟨CpuLatencyHold.release_of_ne ?_, if_neg hpid⟩
  rwa [h.owner pid x o hx]

/-- **The two ways to release an object**: no limit ends with it, or the innermost one on its attribute does, and what
that found is put back. -/
theorem dropped_main (hl : s.LimitsNested base) (h : s.ObjsOwned) (hx : s.objs s.main x = some o)
    (hlifo : ∀ p l, l ∈ s.live p → o.value = some l.tag → (s.live p).head? = some l) :
    ((s.dropped s.main x o).sys.attr = s.sys.attr ∧ (s.dropped s.main x o).live = s.live ∧
      ∀ p, ∀ l ∈ s.live p, o.value ≠ some l.tag) ∨
    ∃ l os, s.live o.hold.path_ = l :: os ∧ o.value = some l.tag ∧
      (s.dropped s.main x o).sys.attr = Function.update s.sys.attr o.hold.path_ l.before ∧
      (s.dropped s.main x o).live = Function.update s.live o.hold.path_ os := by
  have howner := h.owner s.main x o hx
  have hlive : (s.dropped s.main x o).live =
    fun p => o.value.elim (s.live p) fun t => dropTag t (s.live p) := if_pos rfl
  have hsys : (s.dropped s.main x o).sys = (o.hold.release s.main s.sys).2 := rfl
  rw [hlive, hsys]
  -- what the object still has: nothing, the device, or the limit it has set
  cases h.known x o hx with
  | moved hvalue hfd hrestore =>
      refine .inl ⟨?_, ?_, fun p l _ => ?_⟩
      · rw [CpuLatencyHold.release_of_empty hfd hrestore]
      · funext p
        rw [hvalue]
        rfl
      · rw [hvalue]
        exact nofun
  | device t fd hvalue ht hfd hno =>
      refine .inl ⟨?_, ?_, fun p l hmem => ?_⟩
      · rw [CpuLatencyHold.release_of_fd hfd howner.symm]
        rfl
      · funext p
        rw [hvalue]
        exact dropTag_of_not_mem (hno p)
      · rw [hvalue]
        exact fun heq => hno p l hmem (Option.some.inj heq).symm
  | limit l hvalue hfd hmem hrestore =>
      -- the limit is the innermost one of its path
      obtain ⟨os, hos⟩ := List.head?_eq_some_iff.mp (hlifo _ l hmem hvalue)
      refine .inr ⟨l, os, hos, hvalue, ?_, ?_⟩
      · rw [CpuLatencyHold.release_of_restore hfd (hrestore ▸ (hl.before _ l hmem).ne_nil) howner.symm, hrestore]
        rfl
      · funext p
        rw [hvalue]
        show dropTag l.tag (s.live p) = _
        -- the other paths have no limit with this tag
        by_cases hp : p = o.hold.path_
        · rw [hp, Function.update_self, hos]
          exact dropTag_cons_self (hos ▸ hl.nodup _)
        · rw [Function.update_of_ne hp]
          exact dropTag_of_not_mem fun l' hl' heq => hp (hl.one_path _ _ l' hl' l hmem heq)

/-- Only some of the limits are left. -/
theorem LimitsNested.of_subset {s' : Holds} (h : s.LimitsNested base) (hnext : s.nextValue ≤ s'.nextValue)
    (hlive : ∀ p, (s'.live p).Sublist (s.live p)) (hreadable : ∀ p, SysfsValue (s'.sys.attr p))
    (hnested : ∀ p, Nested (base p) (s'.live p) (s'.sys.attr p)) : s'.LimitsNested base where
  readable := hreadable
  nested := hnested
  before p l hl := h.before p l ((hlive p).subset hl)
  fresh p l hl := (h.fresh p l ((hlive p).subset hl)).trans_le hnext
  nodup p := (h.nodup p).sublist ((hlive p).map _)
  one_path p p' l hl l' hl' := h.one_path p p' l ((hlive p).subset hl) l' ((hlive p').subset hl')

/-- **Releasing keeps the limits nested.** -/
theorem LimitsNested.dropped (hl : s.LimitsNested base) (h : s.ObjsOwned) (hx : s.objs pid x = some o)
    (hlifo : pid = s.main → ∀ p l, l ∈ s.live p → o.value = some l.tag → (s.live p).head? = some l) :
    (s.dropped pid x o).LimitsNested base := by
  -- only the main process releases anything, as the holds remember their owner
  by_cases hpid : pid = s.main
  · subst hpid
    rcases dropped_main hl h hx (hlifo rfl) with ⟨hattr, hlive, -⟩ | ⟨l, os, hos, -, hattr, hlive⟩
    · refine hl.of_subset le_rfl (fun p => hlive ▸ .refl _) ?_ ?_
      · rw [hattr]
        exact hl.readable
      · rw [hattr, hlive]
        exact hl.nested
    · have hmem : l ∈ s.live o.hold.path_ := hos ▸ List.mem_cons_self
      refine hl.of_subset le_rfl ?_ ?_ ?_
      · rw [hlive]
        refine (Function.forall_update_iff s.live fun p ls => ls.Sublist (s.live p)).mpr ⟨?_, fun p _ => .refl _⟩
        rw [hos]
        exact List.sublist_cons_self l os
      · rw [hattr]
        refine (Function.forall_update_iff s.sys.attr fun _ v => SysfsValue v).mpr ⟨?_, fun p _ => hl.readable p⟩
        exact hl.before _ l hmem
      · rw [hattr, hlive]
        -- the innermost limit is taken away, and the value before it is back
        exact Nested.update hl.nested (hos ▸ hl.nested o.hold.path_ : Nested _ (l :: os) _).pop
  · obtain ⟨hsys, hlive⟩ := dropped_of_ne h hx hpid
    refine hl.of_subset le_rfl (fun p => hlive ▸ .refl _) ?_ ?_
    · rw [hsys]
      exact hl.readable
    · rw [hsys, hlive]
      exact hl.nested

/-- **Releasing keeps the objects in order.** -/
theorem ObjsOwned.dropped (hl : s.LimitsNested base) (h : s.ObjsOwned) (hx : s.objs pid x = some o)
    (hlifo : pid = s.main → ∀ p l, l ∈ s.live p → o.value = some l.tag → (s.live p).head? = some l) :
    (s.dropped pid x o).ObjsOwned := by
  have hbefore : ∀ pid' x' o', (s.dropped pid x o).objs pid' x' = some o' →
      s.objs pid' x' = some o' ∧ ¬ (pid' = pid ∧ x' = x) := by
    intro pid' x' o' ho'
    rw [objs_dropped] at ho'
    split_ifs at ho' with hgone
    exact ⟨ho', hgone⟩
  refine ⟨h.running, fun pid' x' o' ho' => h.owner pid' x' o' (hbefore pid' x' o' ho').1,
    fun pid' x' o' ho' => h.empty pid' x' o' (hbefore pid' x' o' ho').1, fun x' o' ho' => ?_,
    fun x₁ x₂ o₁ o₂ t h₁ h₂ => h.distinct x₁ x₂ o₁ o₂ t (hbefore _ x₁ o₁ h₁).1 (hbefore _ x₂ o₂ h₂).1⟩
  obtain ⟨hobj, hother⟩ := hbefore s.main x' o' ho'
  by_cases hpid : pid = s.main
  · subst hpid
    rcases dropped_main hl h hx (hlifo rfl) with ⟨-, hlive, -⟩ | ⟨l, os, hos, hvalue, -, hlive⟩
    · exact (h.known x' o' hobj).congr hlive le_rfl
    · -- another object does not have the limit that ends
      have hstill : ∀ p l', l' ∈ (s.dropped s.main x o).live p → l' ∈ s.live p := by
        intro p l' hl'
        rw [hlive] at hl'
        by_cases hp : p = o.hold.path_
        · rw [hp, Function.update_self] at hl'
          rw [hp, hos]
          exact List.mem_cons_of_mem l hl'
        · rwa [Function.update_of_ne hp] at hl'
      cases h.known x' o' hobj with
      | moved hv hfd hrestore => exact .moved hv hfd hrestore
      | device t fd hv ht hfd hno => exact .device t fd hv ht hfd fun p l' hl' => hno p l' (hstill p l' hl')
      | limit l' hv hfd hmem hrestore =>
          refine .limit l' hv hfd ?_ hrestore
          rw [hlive]
          by_cases hp : o'.hold.path_ = o.hold.path_
          · rw [hp, Function.update_self]
            rw [hp, hos] at hmem
            rcases List.mem_cons.mp hmem with rfl | hmem
            · exact absurd ⟨rfl, h.distinct x' x o' o l'.tag hobj hx hv hvalue⟩ hother
            · exact hmem
          · rwa [Function.update_of_ne hp]
  · exact (h.known x' o' hobj).congr (dropped_of_ne h hx hpid).2 le_rfl

/-! ### Acquiring and forking -/

/-- A hold that an object has was acquired before. -/
theorem Known.lt (hl : s.LimitsNested base) (h : s.Known o) {t : ℕ} (ht : o.value = some t) : t < s.nextValue := by
  cases h with
  | moved hvalue => exact absurd (hvalue.symm.trans ht) nofun
  | device t' fd hvalue hlt => exact Option.some.inj (hvalue.symm.trans ht) ▸ hlt
  | limit l hvalue hfd hmem => exact Option.some.inj (hvalue.symm.trans ht) ▸ hl.fresh _ l hmem

/-- A new limit is the innermost one on its attribute. -/
theorem LimitsNested.push {s' : Holds} (h : s.LimitsNested base) {path : String} {v : List Char} (hv : SysfsValue v)
    (hattr : s'.sys.attr = Function.update s.sys.attr path v) (hnext : s'.nextValue = s.nextValue + 1)
    (hlive : s'.live = Function.update s.live path (⟨s.nextValue, v, s.sys.attr path⟩ :: s.live path)) :
    s'.LimitsNested base := by
  -- the limits afterwards are those before and the new one
  have hmem : ∀ p, ∀ l ∈ s'.live p, l ∈ s.live p ∨ p = path ∧ l = ⟨s.nextValue, v, s.sys.attr path⟩ := by
    intro p l hl
    rw [hlive] at hl
    by_cases hp : p = path
    · rw [hp, Function.update_self] at hl
      rw [hp]
      exact (List.mem_cons.mp hl).symm.imp_right fun heq => ⟨rfl, heq⟩
    · rw [Function.update_of_ne hp] at hl
      exact .inl hl
  refine ⟨fun p => ?_, fun p => ?_, fun p l hl => ?_, fun p l hl => ?_, fun p => ?_, fun p p' l hl l' hl' htag => ?_⟩
  · rw [hattr]
    exact (Function.forall_update_iff s.sys.attr fun _ w => SysfsValue w).mpr ⟨hv, fun p _ => h.readable p⟩ p
  · rw [hattr, hlive]
    exact Nested.update h.nested ((h.nested path).push s.nextValue v) p
  · rcases hmem p l hl with hl | ⟨-, rfl⟩
    · exact h.before p l hl
    · exact h.readable path
  · rw [hnext]
    rcases hmem p l hl with hl | ⟨-, rfl⟩
    · exact (h.fresh p l hl).trans (Nat.lt_succ_self _)
    · exact Nat.lt_succ_self _
  · rw [hlive]
    by_cases hp : p = path
    · rw [hp, Function.update_self, List.map_cons, List.nodup_cons]
      -- the new tag has not been given before
      refine ⟨fun hin => ?_, h.nodup path⟩
      obtain ⟨l, hl, htag⟩ := List.mem_map.mp hin
      exact absurd (h.fresh path l hl) (by rw [htag]; exact lt_irrefl _)
    · rw [Function.update_of_ne hp]
      exact h.nodup p
  · rcases hmem p l hl with hl | ⟨hp, rfl⟩ <;> rcases hmem p' l' hl' with hl' | ⟨hp', rfl⟩
    · exact h.one_path p p' l hl l' hl' htag
    · exact absurd (h.fresh p l hl) (by rw [htag]; exact lt_irrefl _)
    · exact absurd (h.fresh p' l' hl') (by rw [← htag]; exact lt_irrefl _)
    · rw [hp, hp']

/-- **Acquiring keeps the objects in order**, when something is known about the new one. -/
theorem ObjsOwned.acquired (hl : s.LimitsNested base) (h : s.ObjsOwned) {hold : CpuLatencyHold} {sys : LatencySys}
    (howner : hold.ownerPid_ = s.main) (hknown : (s.acquired hold x sys).Known ⟨hold, some s.nextValue⟩)
    (hlive : ∀ p, ∀ l ∈ s.live p, l ∈ (s.acquired hold x sys).live p)
    (hnew : ∀ p, ∀ l ∈ (s.acquired hold x sys).live p, l ∈ s.live p ∨ l.tag = s.nextValue) :
    (s.acquired hold x sys).ObjsOwned := by
  have hobj : ∀ pid' x' o', (s.acquired hold x sys).objs pid' x' = some o' →
      (pid' = s.main ∧ x' = x ∧ o' = ⟨hold, some s.nextValue⟩) ∨ s.objs pid' x' = some o' := by
    intro pid' x' o' ho'
    have heq := s.objs_setObj s.main x (some ⟨hold, some s.nextValue⟩) pid' x'
    rw [show (s.acquired hold x sys).objs pid' x' = _ from heq] at ho'
    split_ifs at ho' with hhere
    · exact .inl ⟨hhere.1, hhere.2, (Option.some.inj ho').symm⟩
    · exact .inr ho'
  have hold_lt : ∀ x' o' t, s.objs s.main x' = some o' → o'.value = some t → t ≠ s.nextValue :=
    fun x' o' t ho' ht => ((h.known x' o' ho').lt hl ht).ne
  -- the new object, and those that were there
  refine ⟨h.running, fun pid' x' o' ho' => ?_, fun pid' x' o' ho' => ?_, fun x' o' ho' => ?_, ?_⟩
  · rcases hobj pid' x' o' ho' with ⟨-, -, rfl⟩ | ho'
    · exact howner
    · exact h.owner pid' x' o' ho'
  · rcases hobj pid' x' o' ho' with ⟨-, -, rfl⟩ | ho'
    · exact nofun
    · exact h.empty pid' x' o' ho'
  · rcases hobj _ x' o' ho' with ⟨-, -, rfl⟩ | ho'
    · exact hknown
    · cases h.known x' o' ho' with
      | moved hvalue hfd hrestore => exact .moved hvalue hfd hrestore
      | device t fd hvalue ht hfd hno =>
          refine .device t fd hvalue (ht.trans (Nat.lt_succ_self _)) hfd fun p l hmem => ?_
          rcases hnew p l hmem with hmem | htag
          · exact hno p l hmem
          · rw [htag]
            exact ht.ne'
      | limit l hvalue hfd hmem hrestore => exact .limit l hvalue hfd (hlive _ l hmem) hrestore
  · intro x₁ x₂ o₁ o₂ t h₁ h₂ ht₁ ht₂
    rcases hobj _ x₁ o₁ h₁ with ⟨-, hx₁, rfl⟩ | h₁ <;> rcases hobj _ x₂ o₂ h₂ with ⟨-, hx₂, rfl⟩ | h₂
    · rw [hx₁, hx₂]
    · exact absurd (Option.some.inj ht₁).symm (hold_lt x₂ o₂ t h₂ ht₂)
    · exact absurd (Option.some.inj ht₂).symm (hold_lt x₁ o₁ t h₁ ht₁)
    · exact h.distinct x₁ x₂ o₁ o₂ t h₁ h₂ ht₁ ht₂

/-- **A child gets copies**, which belong to the process as before. -/
theorem ObjsOwned.fork (h : s.ObjsOwned) {child : ℕ} (hchild : child ∉ s.pids) : ObjsOwned
    { s with pids := child :: s.pids, objs := Function.update s.objs child (s.objs pid) } := by
  have hne : s.main ≠ child := fun heq => hchild (heq ▸ h.running)
  -- an object of the child is a copy of one of the parent
  have hobj : ∀ pid' x' o', Function.update s.objs child (s.objs pid) pid' x' = some o' →
      ∃ pid₀, s.objs pid₀ x' = some o' := by
    intro pid' x' o' ho'
    by_cases hp : pid' = child
    · rw [hp, Function.update_self] at ho'
      exact ⟨pid, ho'⟩
    · rw [Function.update_of_ne hp] at ho'
      exact ⟨pid', ho'⟩
  -- the objects of the main process are not touched
  have hmain : Function.update s.objs child (s.objs pid) s.main = s.objs s.main := Function.update_of_ne hne _ _
  refine ⟨List.mem_cons_of_mem child h.running, fun pid' x' o' ho' => ?_, fun pid' x' o' ho' => ?_,
    fun x' o' ho' => ?_, fun x₁ x₂ o₁ o₂ t h₁ h₂ => ?_⟩
  · obtain ⟨pid₀, ho'⟩ := hobj pid' x' o' ho'
    exact h.owner pid₀ x' o' ho'
  · obtain ⟨pid₀, ho'⟩ := hobj pid' x' o' ho'
    exact h.empty pid₀ x' o' ho'
  · exact (h.known x' o' (hmain ▸ ho')).congr rfl le_rfl
  · exact h.distinct x₁ x₂ o₁ o₂ t (hmain ▸ h₁) (hmain ▸ h₂)

/-- Acquiring keeps all of it, whether it fails, opens the device or sets a limit. -/
theorem acquire_kept {s' : Holds} {us cpu : Int32} {ans : AcquireAnswers} (hl : s.LimitsNested base)
    (h : s.ObjsOwned) (hs : s.step (.acquire us cpu ans x) = some s') : s'.LimitsNested base ∧ s'.ObjsOwned := by
  obtain ⟨-, hs⟩ := Option.ite_none_right_eq_some.mp hs
  rcases CpuLatencyHold.acquire_cases (hl.readable (latencyAttr cpu)) with
    ⟨e, sys, heq, hattr⟩ | ⟨fd, sys, heq, hattr⟩ | ⟨hus, heq⟩
  · -- in vain
    rw [heq] at hs
    cases hs
    refine ⟨hl.of_subset le_rfl (fun _ => .refl _) (fun p => ?_) (fun p => ?_), h.running, h.owner, h.empty,
      fun x' o' ho' => (h.known x' o' ho').congr rfl le_rfl, h.distinct⟩
    · exact hattr ▸ hl.readable p
    · exact hattr ▸ hl.nested p
  · -- the device is open, and no attribute has changed
    rw [heq] at hs
    cases hs
    refine ⟨hl.of_subset (Nat.le_succ _) (fun _ => .refl _) (fun p => ?_) (fun p => ?_), ?_⟩
    · exact hattr ▸ hl.readable p
    · exact hattr ▸ hl.nested p
    · refine h.acquired hl rfl ?_ (fun p l hmem => hmem) fun p l hmem => .inl hmem
      exact .device s.nextValue fd rfl (Nat.lt_succ_self _) rfl fun p l hmem => (hl.fresh p l hmem).ne
  · -- a limit has been pushed on its attribute
    rw [heq] at hs
    cases hs
    set hold : CpuLatencyHold := ⟨none, cpu, us, s.main, latencyAttr cpu, s.sys.attr (latencyAttr cpu)⟩
    have hne : hold.restore_ ≠ [] := (hl.readable (latencyAttr cpu)).ne_nil
    have hlive : (s.acquired hold x (s.sys.writeStr (latencyAttr cpu) (limit us))).live =
        Function.update s.live (latencyAttr cpu)
          (⟨s.nextValue, limit us, s.sys.attr (latencyAttr cpu)⟩ :: s.live (latencyAttr cpu)) := if_neg hne
    refine ⟨hl.push (sysfsValue_limit hus) rfl rfl hlive, h.acquired hl rfl ?_ (fun p l hmem => ?_) fun p l hmem => ?_⟩
    · refine .limit ⟨s.nextValue, limit us, s.sys.attr (latencyAttr cpu)⟩ rfl rfl ?_ rfl
      rw [hlive]
      show _ ∈ Function.update s.live (latencyAttr cpu) _ (latencyAttr cpu)
      rw [Function.update_self]
      exact List.mem_cons_self
    · rw [hlive]
      by_cases hp : p = latencyAttr cpu
      · rw [hp, Function.update_self]
        exact List.mem_cons_of_mem _ (hp ▸ hmem)
      · rwa [Function.update_of_ne hp]
    · rw [hlive] at hmem
      by_cases hp : p = latencyAttr cpu
      · rw [hp, Function.update_self] at hmem
        rw [hp]
        exact (List.mem_cons.mp hmem).symm.imp_right fun heq => by rw [heq]
      · rw [Function.update_of_ne hp] at hmem
        exact .inl hmem

/-- **One operation** in which the hold released is the innermost one on its attribute keeps all of it. -/
theorem step_kept {s' : Holds} {e : HoldEv} (hl : s.LimitsNested base) (h : s.ObjsOwned) (hs : s.step e = some s')
    (hlifo : s.Lifo e) : s'.LimitsNested base ∧ s'.ObjsOwned := by
  cases e with
  | acquire us cpu ans x => exact acquire_kept hl h hs
  | moveConstruct pid x y =>
      obtain ⟨hy, hs⟩ := Option.ite_none_right_eq_some.mp hs
      obtain ⟨o, hx, rfl⟩ := Option.map_eq_some_iff.mp hs
      exact ⟨hl.of_subset le_rfl (fun _ => .refl _) hl.readable hl.nested, h.moved hx hy⟩
  | moveAssign pid x y =>
      obtain ⟨o, hx, hs⟩ := Option.bind_eq_some_iff.mp hs
      obtain ⟨o', hy, hs⟩ := Option.map_eq_some_iff.mp hs
      by_cases hxy : x = y
      · rw [if_pos hxy] at hs
        exact hs ▸ ⟨hl, h⟩
      · rw [if_neg hxy] at hs
        have hinnermost : pid = s.main → ∀ p l, l ∈ s.live p → o'.value = some l.tag → (s.live p).head? = some l :=
          fun hpid => hlifo hpid o' (by rw [released, if_neg hxy, hy])
        -- what the target had is released before the move
        have hl' := hl.dropped h hy hinnermost
        subst hs
        refine ⟨hl'.of_subset le_rfl (fun _ => .refl _) hl'.readable hl'.nested, ?_⟩
        refine (h.dropped hl hy hinnermost).moved ?_ ?_
        · rw [objs_dropped, if_neg fun heq => hxy heq.2, hx]
        · rw [objs_dropped, if_pos ⟨rfl, rfl⟩]
  | destroy pid x =>
      obtain ⟨o, hx, rfl⟩ := Option.map_eq_some_iff.mp hs
      have hinnermost : pid = s.main → ∀ p l, l ∈ s.live p → o.value = some l.tag → (s.live p).head? = some l :=
        fun hpid => hlifo hpid o hx
      exact ⟨hl.dropped h hx hinnermost, h.dropped hl hx hinnermost⟩
  | fork pid child =>
      obtain ⟨⟨-, hchild⟩, hs⟩ := Option.ite_none_right_eq_some.mp hs
      cases hs
      exact ⟨hl.of_subset le_rfl (fun _ => .refl _) hl.readable hl.nested, h.fork hchild⟩

/-- **The limits are put back**, by an operation that leads from `s` to `s'`: a release in the process leaves what the
hold has found; releasing an object that has been moved from does nothing, nor does a child; and acquiring in vain
changes no attribute. -/
structure Restores (s s' : Holds) (e : HoldEv) : Prop where
  restored : s.processOf e = s.main → ∀ o, s.released e = some o → ∀ p, ∀ l ∈ s.live p, o.value = some l.tag →
    s'.sys.attr p = l.before
  moved_from : ∀ o, s.released e = some o → o.value = none → s'.sys = s.sys
  child : s.processOf e ≠ s.main → s'.sys = s.sys
  in_vain : ∀ us cpu ans x, e = .acquire us cpu ans x → s'.objs s.main x = none → s'.sys.attr = s.sys.attr

/-- **What an operation does to the system** is what releasing an object does, unless it acquires. -/
theorem released_cases {s' : Holds} {e : HoldEv} (hs : s.step e = some s') :
    (∃ o x, s.released e = some o ∧ s.objs (s.processOf e) x = some o ∧
      s'.sys = (s.dropped (s.processOf e) x o).sys) ∨
    (s.released e = none ∧ ((∃ us cpu ans x, e = .acquire us cpu ans x) ∨ s'.sys = s.sys)) := by
  -- an assignment to another object and a destruction release, nothing else does
  cases e with
  | acquire us cpu ans x => exact .inr ⟨rfl, .inl ⟨us, cpu, ans, x, rfl⟩⟩
  | moveConstruct pid x y =>
      obtain ⟨-, hs⟩ := Option.ite_none_right_eq_some.mp hs
      obtain ⟨o, -, rfl⟩ := Option.map_eq_some_iff.mp hs
      exact .inr ⟨rfl, .inr rfl⟩
  | moveAssign pid x y =>
      obtain ⟨o, -, hs⟩ := Option.bind_eq_some_iff.mp hs
      obtain ⟨o', hy, hs⟩ := Option.map_eq_some_iff.mp hs
      by_cases hxy : x = y
      · rw [if_pos hxy] at hs
        exact .inr ⟨if_pos hxy, .inr (hs ▸ rfl)⟩
      · rw [if_neg hxy] at hs
        exact .inl ⟨o', y, (if_neg hxy).trans hy, hy, hs ▸ rfl⟩
  | destroy pid x =>
      obtain ⟨o, hx, rfl⟩ := Option.map_eq_some_iff.mp hs
      exact .inl ⟨o, x, hx, hx, rfl⟩
  | fork pid child =>
      obtain ⟨-, hs⟩ := Option.ite_none_right_eq_some.mp hs
      cases hs
      exact .inr ⟨rfl, .inr rfl⟩

/-- Acquiring in vain changes no attribute. -/
theorem attr_of_in_vain {s' : Holds} {us cpu : Int32} {ans : AcquireAnswers} (hl : s.LimitsNested base)
    (hs : s.step (.acquire us cpu ans x) = some s') (hvain : s'.objs s.main x = none) :
    s'.sys.attr = s.sys.attr := by
  obtain ⟨-, hs⟩ := Option.ite_none_right_eq_some.mp hs
  -- an acquisition that succeeds leaves an object behind
  have hgot : ∀ h sys, (s.acquired h x sys).objs s.main x ≠ none := by
    intro h sys
    rw [show (s.acquired h x sys).objs s.main x = _ from s.objs_setObj s.main x _ s.main x, if_pos ⟨rfl, rfl⟩]
    exact Option.some_ne_none _
  rcases CpuLatencyHold.acquire_cases (hl.readable (latencyAttr cpu)) with
    ⟨e, sys, heq, hattr⟩ | ⟨fd, sys, heq, hattr⟩ | ⟨hus, heq⟩
  · rw [heq] at hs
    cases hs
    exact hattr
  · rw [heq] at hs
    cases hs
    exact absurd hvain (hgot _ _)
  · rw [heq] at hs
    cases hs
    exact absurd hvain (hgot _ _)

/-- **One operation** in which the hold released is the innermost one on its attribute restores. -/
theorem restores_of_step {s' : Holds} {e : HoldEv} (hl : s.LimitsNested base) (h : s.ObjsOwned)
    (hs : s.step e = some s') (hlifo : s.Lifo e) : s.Restores s' e := by
  refine ⟨fun hmain o hr p l hmem hvalue => ?_, fun o hr hvalue => ?_, fun hchild => ?_, ?_⟩
  · rcases released_cases hs with ⟨o', x, hr', hx, hsys⟩ | ⟨hno, -⟩
    · obtain rfl := Option.some.inj (hr.symm.trans hr')
      have hinnermost := hlifo hmain o hr
      rw [hmain] at hx hsys
      rcases dropped_main hl h hx hinnermost with ⟨-, -, hnone⟩ | ⟨l', os, hos, hvalue', hattr, -⟩
      · exact absurd hvalue (hnone p l hmem)
      · -- the tag says that it is the limit of this very hold
        have htag : l.tag = l'.tag := Option.some.inj (hvalue.symm.trans hvalue')
        have hmem' : l' ∈ s.live o.hold.path_ := hos ▸ List.mem_cons_self
        obtain rfl := hl.one_path p o.hold.path_ l hmem l' hmem' htag
        have hhead := hinnermost o.hold.path_ l hmem hvalue
        rw [hos] at hhead
        obtain rfl := Option.some.inj hhead
        rw [hsys, hattr, Function.update_self]
    · rw [hr] at hno
      cases hno
  · rcases released_cases hs with ⟨o', x, hr', hx, hsys⟩ | ⟨hno, -⟩
    · obtain rfl := Option.some.inj (hr.symm.trans hr')
      obtain ⟨hfd, hrestore⟩ := h.empty _ x o hx hvalue
      rw [hsys]
      exact congrArg Prod.snd (CpuLatencyHold.release_of_empty hfd hrestore)
    · rw [hr] at hno
      cases hno
  · rcases released_cases hs with ⟨o, x, -, hx, hsys⟩ | ⟨-, ⟨us, cpu, ans, x, rfl⟩ | hsys⟩
    · rw [hsys]
      exact (dropped_of_ne h hx hchild).1
    · exact absurd rfl hchild
    · exact hsys
  · rintro us cpu ans x rfl hvain
    exact attr_of_in_vain hl hs hvain

end Holds

/-- A process without holds, over attributes as sysfs shows them. -/
def holdsMachine : Machine Holds HoldEv where
  init s := (∀ p, SysfsValue (s.sys.attr p)) ∧ s.main ∈ s.pids ∧ (∀ pid x, s.objs pid x = none) ∧ ∀ p, s.live p = []
  step := Holds.step

/-- Without holds nothing is overridden. -/
theorem holdsMachine_init {s : Holds} (h : holdsMachine.init s) : s.LimitsNested s.sys.attr ∧ s.ObjsOwned := by
  obtain ⟨hreadable, hrunning, hobjs, hlive⟩ := h
  have hnone : ∀ p, ∀ l, l ∉ s.live p := fun p l hl => by
    rw [hlive p] at hl
    cases hl
  have hempty : ∀ pid x o, s.objs pid x ≠ some o := fun pid x o ho => by
    rw [hobjs] at ho
    cases ho
  refine ⟨⟨hreadable, fun p => ?_, fun p l hl => absurd hl (hnone p l), fun p l hl => absurd hl (hnone p l),
    fun p => ?_, fun p p' l hl => absurd hl (hnone p l)⟩,
    ⟨hrunning, fun pid x o ho => absurd ho (hempty pid x o), fun pid x o ho => absurd ho (hempty pid x o),
    fun x o ho => absurd ho (hempty s.main x o), fun x x' o o' t ho => absurd ho (hempty s.main x o)⟩⟩
  · rw [hlive p]
    rfl
  · rw [hlive p]
    exact List.nodup_nil

/-- **Holds restore what they found**, in every run in which a process releases the holds on an attribute in the reverse
order: an attribute has the limit of the innermost hold, or the value it had at first, and every operation restores. -/
theorem latency_holds_restore {s₀ s : Holds} {tr : List HoldEv} (hinit : holdsMachine.init s₀)
    (hexec : holdsMachine.exec s₀ tr = some s) (hlifo : holdsMachine.Meets Holds.Lifo s₀ tr) :
    (∀ p, s.sys.attr p = innermost (s₀.sys.attr p) (s.live p)) ∧
      ∀ e s', s.step e = some s' → s.Lifo e → s.Restores s' e := by
  have hkept : s.LimitsNested s₀.sys.attr ∧ s.ObjsOwned :=
    hlifo.invariant hexec (holdsMachine_init hinit) fun s₁ e s₂ h hl hs => Holds.step_kept h.1 h.2 hs hl
  exact ⟨fun p => (hkept.1.nested p).eq_innermost, fun e s' hs hl => Holds.restores_of_step hkept.1 hkept.2 hs hl⟩

/-- No limit on any CPU at first, in the process 100. -/
def Holds.unlimited : Holds where
  sys := ⟨fun _ => ['0'], 3, []⟩
  main := 100
  pids := [100]
  objs _ _ := none
  nextValue := 0
  live _ := []

/-- A CPU that is online, and a system that grants everything. -/
def AcquireAnswers.granting : AcquireAnswers := ⟨none, none, .ok ['1', '\n'], none, none⟩

/-- A hold on CPU 0 is moved and copied into a child. The child's copy goes first, and the limit stays until the
process releases the hold. -/
theorem latency_holds_restore_fork : ∃ s s', holdsMachine.exec .unlimited
      [.acquire 5 0 .granting 0, .moveConstruct 100 0 1, .fork 100 101, .destroy 101 1] = some s ∧
    s.step (.destroy 100 1) = some s' ∧ s.sys.attr (latencyAttr 0) = limit 5 ∧ s'.sys.attr (latencyAttr 0) = ['0'] := by
  obtain ⟨s, hs⟩ : ∃ s, holdsMachine.exec .unlimited
      [.acquire 5 0 .granting 0, .moveConstruct 100 0 1, .fork 100 101, .destroy 101 1] = some s := ⟨_, rfl⟩
  have hreadable : SysfsValue ['0'] := ⟨by decide, fun _ => by simp, by decide⟩
  have hinit : holdsMachine.init .unlimited :=
    ⟨fun _ => hreadable, List.mem_singleton_self _, fun _ _ => rfl, fun _ => rfl⟩
  -- up to here the main process has released nothing
  have hlifo : holdsMachine.Meets Holds.Lifo .unlimited
      [.acquire 5 0 .granting 0, .moveConstruct 100 0 1, .fork 100 101, .destroy 101 1] := by
    refine ⟨fun _ _ hr => (nomatch hr), fun s₁ h₁ => ⟨fun _ _ hr => (nomatch hr), fun s₂ h₂ =>
      ⟨fun _ _ hr => (nomatch hr), fun s₃ h₃ => ⟨fun hmain => ?_, fun _ _ => trivial⟩⟩⟩⟩
    cases h₁
    cases h₂
    cases h₃
    exact absurd hmain (by decide)
  have hlive : s.live = Function.update (fun _ => []) (latencyAttr 0) [⟨0, limit 5, ['0']⟩] := by
    cases hs
    rfl
  have hmem : (⟨0, limit 5, ['0']⟩ : Override ℕ (List Char)) ∈ s.live (latencyAttr 0) := by
    rw [hlive, Function.update_self]
    exact List.mem_cons_self
  have hlast : s.Lifo (.destroy 100 1) := by
    -- the limit is the only one
    intro _ o _ p l hl _
    rw [hlive] at hl ⊢
    by_cases hp : p = latencyAttr 0
    · rw [hp, Function.update_self] at hl ⊢
      rw [List.mem_singleton.mp hl]
      rfl
    · rw [Function.update_of_ne hp] at hl
      cases hl
  obtain ⟨hinnermost, hrestores⟩ := latency_holds_restore hinit hs hlifo
  obtain ⟨s', hs'⟩ : ∃ s', s.step (.destroy 100 1) = some s' := ⟨_, by cases hs; rfl⟩
  obtain ⟨o, ho, hvalue⟩ : ∃ o, s.released (.destroy 100 1) = some o ∧ o.value = some 0 := ⟨_, by cases hs; rfl, rfl⟩
  refine ⟨s, s', hs, hs', ?_, (hrestores _ s' hs' hlast).restored (by cases hs; rfl) o ho _ _ hmem hvalue⟩
  rw [hinnermost, hlive, Function.update_self]
  rfl

end Axon.Rt
