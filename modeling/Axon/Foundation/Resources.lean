import Mathlib.Algebra.BigOperators.Group.Multiset.Basic
import Mathlib.Tactic.Common

/-! # Programs over resources

A program opens resources, uses them and releases them, through calls that may fail. What is open sits in a
multiset, so a resource opened twice has to be released twice, and a call on one that is not open is a fault.

* **`Prog`** is the monad of such programs: `ask` is the next call's answer, `acquire`, `access` and `release` are
  what calls do to resources, and `get` and `set` concern the variables of the program.
* **`Prog.Uses pre prog post`**: run with `pre` open, the program leaves `post` open instead, whatever else is open,
  and without a fault. `Uses.bind`, `Uses.frame` and the rules of the operations compose such facts.
* **`Uses.mapM`** and **`Uses.forM`** are the rules of loops, **`Uses.run`** is what a fact says about the whole
  system.
* **`passes`** are the passes of a loop with the states in which they begin; `mapM_apply_fst` says that the loop
  returns what they return. -/

namespace Axon.Foundation

variable {σ α τ β γ : Type}

/-- **One place of a list**, in a sum over it. -/
theorem sum_map_set {M δ : Type} [AddCommMonoid M] (f : δ → M) {xs : List δ} {i : ℕ} {x : δ}
    (hx : xs[i]? = some x) : ∃ rest, (xs.map f).sum = f x + rest ∧ ∀ y, ((xs.set i y).map f).sum = f y + rest := by
  induction xs generalizing i with
  | nil => cases hx
  | cons x' xs ih =>
      cases i with
      | zero =>
          obtain rfl := Option.some.inj hx
          exact ⟨(xs.map f).sum, List.sum_cons, fun _ => List.sum_cons⟩
      | succ i =>
          obtain ⟨rest, hxs, hset⟩ := ih hx
          refine ⟨f x' + rest, ?_, fun y => ?_⟩
          · rw [List.map_cons, List.sum_cons, hxs, add_left_comm]
          · rw [List.set_cons_succ, List.map_cons, List.sum_cons, hset, add_left_comm]

/-- A list of resources, one by one. -/
theorem coe_map_eq_sum {δ : Type} (res : δ → τ) (ds : List δ) :
    (ds.map res : Multiset τ) = (ds.map fun d => ({res d} : Multiset τ)).sum := by
  induction ds with
  | nil => rfl
  | cons d ds ih => rw [List.map_cons, List.map_cons, List.sum_cons, ← Multiset.cons_coe, ← Multiset.singleton_add, ih]

/-- **The system below a program**: what its calls answer, one after the other, and what is open. -/
structure Kernel (σ α τ : Type) where
  /-- The variables of the program. -/
  vars : σ
  answer : ℕ → α
  /-- How many calls have been answered. -/
  asked : ℕ
  /-- The resources that are open. -/
  live : Multiset τ
  /-- How many calls concerned a resource that was not open. -/
  faults : ℕ

/-- A **program** over variables `σ`, answers `α` and resources `τ`. -/
def Prog (σ α τ β : Type) : Type := Kernel σ α τ → β × Kernel σ α τ

namespace Prog

/-- A program goes on where the one before it has stopped. -/
instance : Monad (Prog σ α τ) where
  pure b := fun s => (b, s)
  bind prog k := fun s => k (prog s).1 (prog s).2

/-- The monad laws hold by computation. -/
instance : LawfulMonad (Prog σ α τ) := LawfulMonad.mk' _ (fun _ => rfl) (fun _ _ => rfl) (fun _ _ _ => rfl)

/-- `pure` leaves the system as it is. -/
@[simp] theorem pure_apply (b : β) (s : Kernel σ α τ) : (pure b : Prog σ α τ β) s = (b, s) := rfl

/-- `bind` runs the second program behind the first. -/
@[simp] theorem bind_apply (prog : Prog σ α τ β) (k : β → Prog σ α τ γ) (s : Kernel σ α τ) :
    (prog >>= k) s = k (prog s).1 (prog s).2 := rfl

/-- The answer of the next call. -/
def ask : Prog σ α τ α := fun s => (s.answer s.asked, { s with asked := s.asked + 1 })

/-- The variables of the program. -/
def get : Prog σ α τ σ := fun s => (s.vars, s)

/-- New values for them. -/
def set (vars : σ) : Prog σ α τ Unit := fun s => ((), { s with vars := vars })

/-- A resource is opened. -/
def acquire (t : τ) : Prog σ α τ Unit := fun s => ((), { s with live := t ::ₘ s.live })

/-- Some resource with this property is used by a call, which needs one open. -/
def accessWhere (p : τ → Prop) [DecidablePred p] : Prog σ α τ Unit := fun s =>
  if 0 < s.live.countP p then ((), s) else ((), { s with faults := s.faults + 1 })

section

variable [DecidableEq τ]

/-- A resource is used by a call, which needs it open. -/
def access (t : τ) : Prog σ α τ Unit := fun s =>
  if t ∈ s.live then ((), s) else ((), { s with faults := s.faults + 1 })

/-- A resource is released. -/
def release (t : τ) : Prog σ α τ Unit := fun s =>
  if t ∈ s.live then ((), { s with live := s.live.erase t }) else ((), { s with faults := s.faults + 1 })

end

/-! ## Facts about programs -/

/-- **What a program does to resources**: with `pre` open it leaves `post` open instead, for the result it has.
What else is open stays so, and no call concerns a resource that is not open. -/
def Uses (pre : Multiset τ) (prog : Prog σ α τ β) (post : β → Multiset τ) : Prop :=
  ∀ (s : Kernel σ α τ) (frame : Multiset τ), s.live = pre + frame →
    (prog s).2.live = post (prog s).1 + frame ∧ (prog s).2.faults = s.faults

/-- What holds of every result of a program. -/
def Returns (prog : Prog σ α τ β) (φ : β → Prop) : Prop := ∀ s : Kernel σ α τ, φ (prog s).1

namespace Uses

variable {pre pre' : Multiset τ} {prog : Prog σ α τ β} {post post' : β → Multiset τ} {k : β → Prog σ α τ γ}
  {last : γ → Multiset τ}

/-- **The end of a program**: what is open is what its result says. -/
theorem pure {b : β} (h : pre = post b) : Uses pre (Pure.pure b : Prog σ α τ β) post := by
  subst h
  exact fun _ _ hlive => ⟨hlive, rfl⟩

/-- **One program after the other**. -/
theorem bind (hprog : Uses pre prog post) (hk : ∀ b, Uses (post b) (k b) last) : Uses pre (prog >>= k) last := by
  intro s frame hlive
  obtain ⟨hlive', hfaults⟩ := hprog s frame hlive
  obtain ⟨hlast, hfaults'⟩ := hk _ _ _ hlive'
  exact ⟨hlast, hfaults'.trans hfaults⟩

/-- The rest of a program may use what is known about every result of its beginning. -/
theorem bind_returns {φ : β → Prop} (hprog : Uses pre prog post) (hret : Returns prog φ)
    (hk : ∀ b, φ b → Uses (post b) (k b) last) : Uses pre (prog >>= k) last := by
  intro s frame hlive
  obtain ⟨hlive', hfaults⟩ := hprog s frame hlive
  obtain ⟨hlast, hfaults'⟩ := hk _ (hret s) _ _ hlive'
  exact ⟨hlast, hfaults'.trans hfaults⟩

/-- **The frame rule**: what a program does not concern stays open. -/
theorem frame (h : Uses pre prog post) (rest : Multiset τ) : Uses (pre + rest) prog fun b => post b + rest := by
  intro s frame hlive
  rw [add_assoc] at hlive
  obtain ⟨hlive', hfaults⟩ := h s _ hlive
  exact ⟨hlive'.trans (add_assoc _ _ _).symm, hfaults⟩

/-- The same resources, written in another way. -/
theorem of_eq (h : Uses pre prog post) (hpre : pre' = pre) (hpost : ∀ b, post b = post' b) :
    Uses pre' prog post' := by
  obtain rfl := hpre
  obtain rfl := funext hpost
  exact h

/-- The same resources before the program, written in another way. -/
theorem of_pre_eq (h : Uses pre prog post) (hpre : pre' = pre) : Uses pre' prog post := hpre ▸ h

/-- A program that needs nothing open. -/
theorem keep (h : Uses 0 prog fun _ => 0) (rest : Multiset τ) : Uses rest prog fun _ => rest :=
  (h.frame rest).of_eq (zero_add rest).symm fun _ => zero_add rest

/-- A program that opens what it returns. -/
theorem opens (h : Uses 0 prog post) (rest : Multiset τ) : Uses rest prog fun b => post b + rest :=
  (h.frame rest).of_pre_eq (zero_add rest).symm

/-- Both branches have to account for the same. -/
theorem ite {c : Prop} [Decidable c] {prog' : Prog σ α τ β} (hpos : c → Uses pre prog post)
    (hneg : ¬c → Uses pre prog' post) : Uses pre (if c then prog else prog') post := by
  split
  · exact hpos ‹c›
  · exact hneg ‹¬c›

/-- A call that succeeds or fails, and what is done in either case. -/
theorem bind_ite {prog : Prog σ α τ Bool} {post : Bool → Multiset τ} {prog₁ prog₂ : Prog σ α τ γ}
    (hprog : Uses pre prog post) (htrue : Uses (post true) prog₁ last) (hfalse : Uses (post false) prog₂ last) :
    Uses pre (prog >>= fun ok => if ok = true then prog₁ else prog₂) last := by
  refine hprog.bind fun ok => ?_
  cases ok with
  | true => exact htrue
  | false => exact hfalse

/-- A program that borrows one of the resources that are open. -/
theorem borrow [DecidableEq τ] {t : τ} (h : Uses {t} prog fun b => post b + {t}) (ht : t ∈ pre) :
    Uses pre prog fun b => post b + pre := by
  have hpre : pre = {t} + pre.erase t := by rw [Multiset.singleton_add, Multiset.cons_erase ht]
  refine (h.frame (pre.erase t)).of_eq hpre fun b => ?_
  rw [add_assoc, ← hpre]

/-! ### The operations -/

/-- An answer concerns no resource. -/
theorem ask (pre : Multiset τ) : Uses pre (Prog.ask : Prog σ α τ α) fun _ => pre := fun _ _ hlive => ⟨hlive, rfl⟩

/-- Reading the variables concerns no resource. -/
theorem get (pre : Multiset τ) : Uses pre (Prog.get : Prog σ α τ σ) fun _ => pre := fun _ _ hlive => ⟨hlive, rfl⟩

/-- Setting the variables concerns no resource. -/
theorem set (vars : σ) (pre : Multiset τ) : Uses pre (Prog.set vars : Prog σ α τ Unit) fun _ => pre :=
  fun _ _ hlive => ⟨hlive, rfl⟩

/-- What is opened is open. -/
theorem acquire (t : τ) (pre : Multiset τ) : Uses pre (Prog.acquire t : Prog σ α τ Unit) fun _ => t ::ₘ pre := by
  intro s frame hlive
  refine ⟨?_, rfl⟩
  show t ::ₘ s.live = t ::ₘ pre + frame
  rw [hlive, Multiset.cons_add]

/-- Using some resource needs one that is open. -/
theorem accessWhere {p : τ → Prop} [DecidablePred p] (h : ∃ t ∈ pre, p t) :
    Uses pre (Prog.accessWhere p : Prog σ α τ Unit) fun _ => pre := by
  intro s frame hlive
  have hsome : 0 < s.live.countP p := by
    obtain ⟨t, ht, hp⟩ := h
    exact Multiset.countP_pos.mpr ⟨t, by rw [hlive]; exact Multiset.mem_add.mpr (.inl ht), hp⟩
  unfold Prog.accessWhere
  rw [if_pos hsome]
  exact ⟨hlive, rfl⟩

section

variable [DecidableEq τ]

/-- Using a resource needs it open and leaves it. -/
theorem access {t : τ} (h : t ∈ pre) : Uses pre (Prog.access t : Prog σ α τ Unit) fun _ => pre := by
  intro s frame hlive
  have hmem : t ∈ s.live := by
    rw [hlive]
    exact Multiset.mem_add.mpr (.inl h)
  unfold Prog.access
  rw [if_pos hmem]
  exact ⟨hlive, rfl⟩

/-- What is released has to be open. -/
theorem release (t : τ) (pre : Multiset τ) :
    Uses (t ::ₘ pre) (Prog.release t : Prog σ α τ Unit) fun _ => pre := by
  intro s frame hlive
  rw [Multiset.cons_add] at hlive
  have hmem : t ∈ s.live := by
    rw [hlive]
    exact Multiset.mem_cons_self t _
  unfold Prog.release
  rw [if_pos hmem]
  refine ⟨?_, rfl⟩
  show s.live.erase t = pre + frame
  rw [hlive, Multiset.erase_cons_head]

end

/-! ### Loops -/

/-- Each pass of the loop opens what it returns. -/
theorem mapM {δ : Type} {f : δ → Prog σ α τ β} (ds : List δ) (h : ∀ d ∈ ds, Uses pre (f d) fun b => post b + pre) :
    Uses pre (ds.mapM f) fun bs => (bs.map post).sum + pre := by
  induction ds with
  | nil =>
      rw [List.mapM_nil]
      exact .pure (zero_add pre).symm
  | cons d ds ih =>
      rw [List.mapM_cons]
      refine (h d List.mem_cons_self).bind fun b => ?_
      have hrest := (ih fun d' hd' => h d' (List.mem_cons_of_mem d hd')).frame (post b)
      refine (hrest.of_pre_eq (add_comm _ _)).bind fun bs => ?_
      refine .pure ?_
      rw [List.map_cons, List.sum_cons, add_right_comm, add_comm (List.sum _)]

/-- Each pass of the loop turns its part into what it returns. -/
theorem mapM_each {δ : Type} {f : δ → Prog σ α τ β} {part : δ → Multiset τ} (ds : List δ)
    (h : ∀ d ∈ ds, Uses (part d) (f d) post) : Uses (ds.map part).sum (ds.mapM f) fun bs => (bs.map post).sum := by
  induction ds with
  | nil =>
      rw [List.mapM_nil]
      exact .pure rfl
  | cons d ds ih =>
      rw [List.mapM_cons, List.map_cons, List.sum_cons]
      refine ((h d List.mem_cons_self).frame _).bind fun b => ?_
      have hrest := (ih fun d' hd' => h d' (List.mem_cons_of_mem d hd')).frame (post b)
      refine (hrest.of_pre_eq (add_comm _ _)).bind fun bs => .pure ?_
      rw [List.map_cons, List.sum_cons, add_comm]

/-- Each pass of the loop leaves everything as it is. -/
theorem forM_keep {δ : Type} {f : δ → Prog σ α τ Unit} (ds : List δ) (h : ∀ d ∈ ds, Uses pre (f d) fun _ => pre) :
    Uses pre (ds.forM f) fun _ => pre := by
  induction ds with
  | nil => exact .pure rfl
  | cons d ds ih =>
      show Uses _ (f d >>= fun _ => ds.forM f) _
      exact (h d List.mem_cons_self).bind fun _ => ih fun d' hd' => h d' (List.mem_cons_of_mem d hd')

/-- Each pass of the loop releases its part. -/
theorem forM {δ : Type} {f : δ → Prog σ α τ Unit} {part : δ → Multiset τ} (ds : List δ)
    (h : ∀ d ∈ ds, Uses (part d) (f d) fun _ => 0) : Uses (ds.map part).sum (ds.forM f) fun _ => 0 := by
  induction ds with
  | nil => exact .pure rfl
  | cons d ds ih =>
      rw [List.map_cons, List.sum_cons]
      show Uses _ (f d >>= fun _ => ds.forM f) _
      refine ((h d List.mem_cons_self).frame _).bind fun _ => ?_
      exact (ih fun d' hd' => h d' (List.mem_cons_of_mem d hd')).of_pre_eq (zero_add _)

/-- Each pass of the loop releases its resource. -/
theorem forM_singleton {δ : Type} {f : δ → Prog σ α τ Unit} (res : δ → τ) (ds : List δ)
    (h : ∀ d ∈ ds, Uses {res d} (f d) fun _ => 0) : Uses (ds.map res : Multiset τ) (ds.forM f) fun _ => 0 := by
  exact (forM ds h).of_pre_eq (coe_map_eq_sum res ds)

/-- Each pass of the loop opens its resource. -/
theorem forM_acquire {δ : Type} (res : δ → τ) (ds : List δ) (pre : Multiset τ) :
    Uses pre (ds.forM fun d => (Prog.acquire (res d) : Prog σ α τ Unit)) fun _ => (ds.map res : Multiset τ) + pre := by
  induction ds generalizing pre with
  | nil => exact .pure (zero_add pre).symm
  | cons d ds ih =>
      show Uses _ (Prog.acquire (res d) >>= fun _ => ds.forM fun d => Prog.acquire (res d)) _
      refine (Uses.acquire (res d) pre).bind fun _ => ?_
      refine (ih _).of_eq rfl fun _ => ?_
      rw [List.map_cons, ← Multiset.cons_coe, Multiset.cons_add, Multiset.add_cons]

/-- **What a fact says about the system**: what was open beside `pre` is open still. -/
theorem run (h : Uses pre prog post) {s : Kernel σ α τ} {rest : Multiset τ} (hlive : s.live = rest + pre) :
    (prog s).2.live = rest + post (prog s).1 ∧ (prog s).2.faults = s.faults := by
  rw [add_comm rest] at hlive
  obtain ⟨hlive', hfaults⟩ := h s rest hlive
  exact ⟨hlive'.trans (add_comm _ _), hfaults⟩

end Uses

namespace Returns

variable {prog : Prog σ α τ β} {φ : β → Prop} {ψ : γ → Prop} {k : β → Prog σ α τ γ}

/-- The end of a program. -/
theorem pure {b : β} (h : φ b) : Returns (Pure.pure b : Prog σ α τ β) φ := fun _ => h

/-- A weaker fact about the result. -/
theorem mono {ψ : β → Prop} (h : Returns prog φ) (himp : ∀ b, φ b → ψ b) : Returns prog ψ := fun s => himp _ (h s)

/-- Two facts about the result. -/
theorem and {ψ : β → Prop} (h : Returns prog φ) (h' : Returns prog ψ) : Returns prog fun b => φ b ∧ ψ b :=
  fun s => ⟨h s, h' s⟩

/-- Of a program whose result does not matter. -/
theorem trivial (prog : Prog σ α τ β) : Returns prog fun _ => True := fun _ => True.intro

/-- **One program after the other**: the second may use what holds of the first one's result. -/
theorem bind (hprog : Returns prog φ) (hk : ∀ b, φ b → Returns (k b) ψ) : Returns (prog >>= k) ψ :=
  fun s => hk _ (hprog s) _

/-- Either branch. -/
theorem ite {c : Prop} [Decidable c] {prog' : Prog σ α τ β} (hpos : c → Returns prog φ)
    (hneg : ¬c → Returns prog' φ) : Returns (if c then prog else prog') φ := by
  split
  · exact hpos ‹c›
  · exact hneg ‹¬c›

/-- A loop returns one result for each pass. -/
theorem mapM {δ : Type} {f : δ → Prog σ α τ β} (ds : List δ) (h : ∀ d ∈ ds, Returns (f d) φ) :
    Returns (ds.mapM f) fun bs => bs.length = ds.length ∧ ∀ b ∈ bs, φ b := by
  induction ds with
  | nil =>
      rw [List.mapM_nil]
      exact .pure ⟨rfl, by simp⟩
  | cons d ds ih =>
      rw [List.mapM_cons]
      refine (h d List.mem_cons_self).bind fun b hb => ?_
      refine (ih fun d' hd' => h d' (List.mem_cons_of_mem d hd')).bind fun bs hbs => ?_
      exact .pure ⟨congrArg (· + 1) hbs.1, List.forall_mem_cons.mpr ⟨hb, hbs.2⟩⟩

end Returns

/-! ## The passes of a loop -/

section

variable {δ : Type} {f : δ → Prog σ α τ β}

/-- **The passes of a loop**, each with the state in which it begins. -/
def passes (f : δ → Prog σ α τ β) : List δ → Kernel σ α τ → List (δ × Kernel σ α τ)
  | [], _ => []
  | d :: ds, s => (d, s) :: passes f ds (f d s).2

/-- There is one pass for every element. -/
@[simp] theorem length_passes (ds : List δ) (s : Kernel σ α τ) : (passes f ds s).length = ds.length := by
  induction ds generalizing s with
  | nil => rfl
  | cons d ds ih => exact congrArg (· + 1) (ih _)

/-- **A loop returns what its passes return.** -/
theorem mapM_apply_fst (ds : List δ) (s : Kernel σ α τ) :
    (ds.mapM f s).1 = (passes f ds s).map fun x => (f x.1 x.2).1 := by
  induction ds generalizing s with
  | nil => rfl
  | cons d ds ih =>
      rw [List.mapM_cons]
      show (f d s).1 :: (ds.mapM f (f d s).2).1 = _
      rw [ih, passes, List.map_cons]

end

end Prog

end Axon.Foundation
