import Axon.Foundation.EarlyReturn
import Axon.Rt.LatencyHold

/-! # Setting up the process of a control loop

`rt_setup_memory_and_sched` trims, locks, prefaults, pins, holds down the wake-up latency and promotes, as far as
its configuration requests it. `rt_setup_reports_iff` says when its return value tells what has taken effect. -/

namespace Axon.Rt

open Foundation

/-! ## The calls it makes -/

/-- `RtSetupConfig`, with the defaults of the header. -/
structure RtSetupConfig where
  schedPriority : Int32 := 80
  lockAllMemory : Bool := true
  prefaultStack : Bool := true
  prefaultHeapBytes : ℕ := 1 * 1024 * 1024
  setCpuAffinity : Bool := false
  cpuId : Int32 := -1
  disableMallocTrim : Bool := true
  cpuLatencyUs : Int32 := -1

/-- The CPU that the latency is held down on. -/
def RtSetupConfig.latencyCpu (cfg : RtSetupConfig) : Int32 := if cfg.setCpuAffinity then cfg.cpuId else -1

/-- `mallopt`'s parameter for giving memory back. -/
def M_TRIM_THRESHOLD : Int32 := -1

/-- `mallopt`'s parameter for mapped allocations. -/
def M_MMAP_MAX : Int32 := -4

/-- `CPU_SETSIZE`. -/
abbrev cpuSetSize : ℕ := 1024

/-- The blocks of the function. -/
inductive SetupStep
  | trim
  | lock
  | stack
  | heap
  | pin
  | hold
  | promote
  deriving DecidableEq

/-- A call that the function makes. -/
inductive SetupCall
  | mallopt (param value : Int32)
  /-- With `MCL_CURRENT | MCL_FUTURE`, and with `MCL_ONFAULT` or without it. -/
  | mlockall (onfault : Bool)
  | touchStack (offsets : List ℕ)
  | malloc (bytes : ℕ)
  | touchHeap (offsets : List ℕ)
  | free
  | schedSetaffinity (set : List ℕ)
  | acquire (maxLatencyUs cpu : Int32)
  /-- With `SCHED_FIFO`. -/
  | schedSetscheduler (schedPriority : Int32)

/-- The block that makes the call. -/
def SetupCall.step : SetupCall → SetupStep
  | .mallopt _ _ => .trim
  | .mlockall _ => .lock
  | .touchStack _ => .stack
  | .malloc _ => .heap
  | .touchHeap _ => .heap
  | .free => .heap
  | .schedSetaffinity _ => .pin
  | .acquire _ _ => .hold
  | .schedSetscheduler _ => .promote

/-- What the system answers in the course of one call of the function. -/
structure SetupAnswers where
  /-- `sysconf(_SC_PAGESIZE)`. -/
  sysconfPage : ℤ
  mlockall : Option ErrNo
  /-- The second time. -/
  mlockallRetry : Option ErrNo
  /-- There is memory to allocate. -/
  malloc : Bool
  schedSetaffinity : Option ErrNo
  acquire : AcquireAnswers
  schedSetscheduler : Option ErrNo

/-- The process: what its last failed call has left in `errno`, the calls since the function was entered, and the
hold of an earlier setup. -/
structure SetupState where
  errno : ℕ
  calls : List (SetupCall × Option ErrNo)
  gSetupLatencyHold : Option CpuLatencyHold
  sys : LatencySys

/-- A call returns. One that succeeds leaves `errno` alone. -/
def SetupState.called (st : SetupState) (call : SetupCall) (r : Option ErrNo) : SetupState :=
  { st with
    errno := r.elim st.errno fun e => e
    calls := st.calls ++ [(call, r)] }

/-! ## The function -/

/-- The size of a page, if `sysconf` has it. -/
def pageSize (sysconfPage : ℤ) : ℕ := if 0 < sysconfPage then sysconfPage.toNat else 4096

/-- **`touch_pages`**: the offsets that are written, one a page and the last. -/
def touchPages (sysconfPage : ℤ) (n : ℕ) : List ℕ :=
  let page := pageSize sysconfPage
  (List.range ((n + page - 1) / page)).map (fun i => i * page) ++ if 0 < n then [n - 1] else []

/-- `CPU_ZERO` and `CPU_SET`, which leaves out a CPU that the set has no room for. -/
def CPU_SET (cpu : ℕ) : List ℕ := if cpu < cpuSetSize then [cpu] else []

/-- What `sched_setaffinity` gives: a set without a CPU is refused. -/
def setaffinity (set : List ℕ) (ans : Option ErrNo) : Option ErrNo :=
  if set = [] then some (ans.getD EINVAL) else ans

/-- `g_setup_latency_hold.reset()`: the system behind it. -/
def SetupState.reset (st : SetupState) (pid : ℕ) : LatencySys :=
  match st.gSetupLatencyHold with
  | some h => (h.release pid st.sys).2
  | none => st.sys

/-- A call that the function returns after when it fails. -/
def orReturn (st : SetupState) (call : SetupCall) (r : Option ErrNo) : Option Int32 × SetupState :=
  (if r.isSome then some (-1) else none, st.called call r)

section Function

variable (onfault : Bool) (pid : ℕ) (cfg : RtSetupConfig) (ans : SetupAnswers)

/-- The `mlockall` block. `onfault` says whether `MCL_ONFAULT` is defined. -/
def lockBlock (st : SetupState) : Option Int32 × SetupState :=
  if cfg.lockAllMemory then
    let failed := st.called (.mlockall onfault) ans.mlockall
    if ans.mlockall.isSome then
      -- `errno == EINVAL && mlockall(..) < 0`: the second call is made only where `errno` says so.
      let retried := if failed.errno = EINVAL then failed.called (.mlockall false) ans.mlockallRetry else failed
      if failed.errno = EINVAL ∧ ans.mlockallRetry.isSome then (some (-1), retried)
      else if retried.errno ≠ 0 ∧ onfault = false then (some (-1), retried)
      else (none, retried)
    else (none, failed)
  else (none, st)

/-- The block that keeps the heap. -/
def heapBlock (st : SetupState) : Option Int32 × SetupState :=
  if 0 < cfg.prefaultHeapBytes then
    if ans.malloc then
      (none, ((st.called (.malloc cfg.prefaultHeapBytes) none).called
        (.touchHeap (touchPages ans.sysconfPage cfg.prefaultHeapBytes)) none).called .free none)
    else orReturn st (.malloc cfg.prefaultHeapBytes) (some ENOMEM)
  else (none, st)

/-- The block that pins the thread to a CPU. -/
def pinBlock (st : SetupState) : Option Int32 × SetupState :=
  if cfg.setCpuAffinity ∧ 0 ≤ cfg.cpuId then
    let set := CPU_SET cfg.cpuId.toUInt32.toNat
    orReturn st (.schedSetaffinity set) (setaffinity set ans.schedSetaffinity)
  else (none, st)

/-- The hold of an earlier setup is released before the new one is acquired. -/
def holdBlock (st : SetupState) : Option Int32 × SetupState :=
  if 0 ≤ cfg.cpuLatencyUs then
    let r := CpuLatencyHold.acquire pid cfg.cpuLatencyUs cfg.latencyCpu ans.acquire (st.reset pid)
    let call := SetupCall.acquire cfg.cpuLatencyUs cfg.latencyCpu
    match r.1 with
    | .error e => orReturn { st with gSetupLatencyHold := none, sys := r.2 } call (some e)
    | .ok h => (none, { st with gSetupLatencyHold := some h, sys := r.2 }.called call none)
  else (none, st)

/-- The blocks of `rt_setup_memory_and_sched`: what they return, if they do. -/
def setupBlock : SetupStep → SetupState → Option Int32 × SetupState
  | .trim, st =>
      -- `mallopt` takes both values, and is not asked whether it does
      (none, if cfg.disableMallocTrim then
        (st.called (.mallopt M_TRIM_THRESHOLD (-1)) none).called (.mallopt M_MMAP_MAX 0) none else st)
  | .lock, st => lockBlock onfault cfg ans st
  | .stack, st =>
      (none, if cfg.prefaultStack then st.called (.touchStack (touchPages ans.sysconfPage (64 * 1024))) none
        else st)
  | .heap, st => heapBlock cfg ans st
  | .pin, st => pinBlock cfg ans st
  | .hold, st => holdBlock pid cfg ans st
  | .promote, st =>
      if 0 < cfg.schedPriority then
        orReturn st (.schedSetscheduler cfg.schedPriority) ans.schedSetscheduler
      else (none, st)

/-- The order of the blocks. -/
def setupSteps : List SetupStep := [.trim, .lock, .stack, .heap, .pin, .hold, .promote]

/-- **`rt_setup_memory_and_sched`**, in the process `pid`. -/
def rtSetupMemoryAndSched (st : SetupState) : Int32 × SetupState :=
  let r := runBlocks (setupBlock onfault pid cfg ans) setupSteps { st with calls := [] }
  (r.1.getD 0, r.2)

end Function

/-! ## What a return value says -/

/-- The call has been made, and has succeeded. -/
def SetupState.Succeeded (st : SetupState) (call : SetupCall) : Prop := (call, none) ∈ st.calls

/-- The offsets are on all pages of `n` bytes, wherever these are. -/
def EveryPage (page n : ℕ) (offsets : List ℕ) : Prop :=
  ∀ base o, o < n → ∃ t ∈ offsets, t < n ∧ (base + t) / page = (base + o) / page

/-- **What the configuration requests of a step has taken effect.** -/
def Done (cfg : RtSetupConfig) (ans : SetupAnswers) (st : SetupState) : SetupStep → Prop
  | .trim => cfg.disableMallocTrim →
      st.Succeeded (.mallopt M_TRIM_THRESHOLD (-1)) ∧ st.Succeeded (.mallopt M_MMAP_MAX 0)
  | .lock => cfg.lockAllMemory → ∃ onfault, st.Succeeded (.mlockall onfault)
  | .stack => cfg.prefaultStack → ∃ offsets, st.Succeeded (.touchStack offsets) ∧
      EveryPage (pageSize ans.sysconfPage) (64 * 1024) offsets
  | .heap => 0 < cfg.prefaultHeapBytes → st.Succeeded (.malloc cfg.prefaultHeapBytes) ∧
      ∃ offsets, st.Succeeded (.touchHeap offsets) ∧
        EveryPage (pageSize ans.sysconfPage) cfg.prefaultHeapBytes offsets
  | .pin => cfg.setCpuAffinity →
      0 ≤ cfg.cpuId ∧ st.Succeeded (.schedSetaffinity [cfg.cpuId.toUInt32.toNat])
  | .hold => 0 ≤ cfg.cpuLatencyUs → st.Succeeded (.acquire cfg.cpuLatencyUs cfg.latencyCpu) ∧
      ∃ h, st.gSetupLatencyHold = some h ∧ h.us_ = cfg.cpuLatencyUs ∧ h.cpu_ = cfg.latencyCpu
  | .promote => 0 < cfg.schedPriority → st.Succeeded (.schedSetscheduler cfg.schedPriority)

/-- The last call has failed, and `errno` is what it has left. -/
def SetupState.LastFailed (st : SetupState) (step : SetupStep) : Prop :=
  ∃ call e, st.calls.getLast? = some (call, some e) ∧ call.step = step ∧ st.errno = (e : ℕ)

/-- **A return value tells the truth**: it is 0 if and only if all that is requested has taken effect, and
otherwise negative, with the `errno` of the step that has failed. -/
structure ReportsTruly (cfg : RtSetupConfig) (ans : SetupAnswers) (r : Int32 × SetupState) : Prop where
  success : r.1 = 0 ↔ ∀ step, Done cfg ans r.2 step
  failure : r.1 ≠ 0 → r.1 < 0 ∧ ∃ step, r.2.LastFailed step ∧ ¬ Done cfg ans r.2 step

section Conditions

variable (onfault : Bool) (pid : ℕ) (cfg : RtSetupConfig) (ans : SetupAnswers)

/-- The step is requested and refused, and the function returns after it. -/
def Refused (st : SetupState) : SetupStep → Prop
  | .lock => cfg.lockAllMemory ∧ ∃ e, ans.mlockall = some e ∧
      if e = EINVAL then ans.mlockallRetry ≠ none else onfault = false
  | .heap => 0 < cfg.prefaultHeapBytes ∧ ans.malloc = false
  | .pin => cfg.setCpuAffinity ∧ 0 ≤ cfg.cpuId ∧
      setaffinity (CPU_SET cfg.cpuId.toUInt32.toNat) ans.schedSetaffinity ≠ none
  | .hold => 0 ≤ cfg.cpuLatencyUs ∧
      ∃ e, (CpuLatencyHold.acquire pid cfg.cpuLatencyUs cfg.latencyCpu ans.acquire (st.reset pid)).1 = .error e
  | .promote => 0 < cfg.schedPriority ∧ ans.schedSetscheduler ≠ none
  | _ => False

/-- **The step is requested and has no effect, and the function goes on**: memory that cannot be locked, where
`MCL_ONFAULT` is defined and `errno` is not `EINVAL`; a CPU that there is not. -/
def PassedOver : SetupStep → Prop
  | .lock => cfg.lockAllMemory ∧ onfault = true ∧ ∃ e, ans.mlockall = some e ∧ e ≠ EINVAL
  | .pin => cfg.setCpuAffinity ∧ cfg.cpuId < 0
  | _ => False

/-- **The function returns although the second `mlockall` has succeeded**, where `MCL_ONFAULT` is not defined. -/
def RetryWasted : Prop :=
  cfg.lockAllMemory ∧ onfault = false ∧ ans.mlockall = some EINVAL ∧ ans.mlockallRetry = none

end Conditions

/-! ## The pages -/

/-- A page has at least one byte. -/
theorem pageSize_pos (sysconfPage : ℤ) : 0 < pageSize sysconfPage := by
  unfold pageSize
  split_ifs with h
  · omega
  · exact Nat.succ_pos _

/-- **`touch_pages` is on every page.** Writing the last byte is what makes it so where the first byte does not
start a page. -/
theorem everyPage_touchPages (sysconfPage : ℤ) (n : ℕ) :
    EveryPage (pageSize sysconfPage) n (touchPages sysconfPage n) := by
  intro base o ho
  unfold touchPages
  dsimp only
  have hpage := pageSize_pos sysconfPage
  generalize pageSize sysconfPage = page at hpage ⊢
  -- `k` pages behind the page of the first byte.
  set k := (base % page + o) / page with hk
  have hbase : ∀ t, (base + t) / page = base / page + (base % page + t) / page := by
    intro t
    conv_lhs => rw [← Nat.div_add_mod base page, Nat.add_assoc]
    exact Nat.mul_add_div hpage _ _
  rcases Nat.lt_or_ge (k * page) n with hlt | hge
  · refine ⟨k * page, List.mem_append_left _ (List.mem_map.mpr ⟨k, List.mem_range.mpr ?_, rfl⟩), hlt, ?_⟩
    · rw [Nat.lt_div_iff_mul_lt hpage]
      omega
    · rw [hbase, hbase, Nat.add_mul_div_right _ _ hpage, Nat.div_eq_of_lt (Nat.mod_lt _ hpage), Nat.zero_add]
  · have hn : 0 < n := Nat.lt_of_le_of_lt (Nat.zero_le o) ho
    refine ⟨n - 1, List.mem_append_right _ ?_, Nat.sub_lt hn Nat.one_pos, ?_⟩
    · rw [if_pos hn]
      exact List.mem_singleton.mpr rfl
    · rw [hbase, hbase, ← hk]
      congr 1
      refine Nat.le_antisymm ?_ (Nat.div_le_div_right (by omega))
      refine Nat.lt_succ_iff.mp ((Nat.div_lt_iff_lt_mul hpage).mpr ?_)
      have hmod := Nat.mod_lt base hpage
      rw [Nat.succ_mul]
      omega

/-! ## What a block does -/

/-- What a block leaves alone: the calls made before it, and, if it is not the block of the hold, the holds. -/
structure BlockFrame (step : SetupStep) (st st' : SetupState) : Prop where
  calls : ∃ made, st'.calls = st.calls ++ made ∧ ∀ x ∈ made, x.1.step = step
  hold : step ≠ .hold → st'.gSetupLatencyHold = st.gSetupLatencyHold ∧ st'.sys = st.sys

namespace BlockFrame

variable {step step' : SetupStep} {st st' : SetupState} {call : SetupCall} {r : Option ErrNo}

/-- No call has been made. -/
theorem refl (step : SetupStep) (st : SetupState) : BlockFrame step st st :=
  ⟨⟨[], (List.append_nil _).symm, fun _ hx => (nomatch hx)⟩, fun _ => ⟨rfl, rfl⟩⟩

/-- A call of this block is within its frame. -/
theorem called (h : BlockFrame step st st') (hcall : call.step = step) : BlockFrame step st (st'.called call r) := by
  obtain ⟨made, hmade, hof⟩ := h.calls
  refine ⟨⟨made ++ [(call, r)], ?_, ?_⟩, h.hold⟩
  · rw [SetupState.called, hmade, List.append_assoc]
  · intro x hx
    rcases List.mem_append.mp hx with hx | hx
    · exact hof x hx
    · rw [List.mem_singleton.mp hx]
      exact hcall

/-- Whether a call of another block has succeeded does not change. -/
theorem succeeded_iff (h : BlockFrame step st st') (call : SetupCall) (hcall : call.step ≠ step) :
    st'.Succeeded call ↔ st.Succeeded call := by
  obtain ⟨made, hmade, hof⟩ := h.calls
  rw [SetupState.Succeeded, SetupState.Succeeded, hmade, List.mem_append]
  exact ⟨fun hc => hc.resolve_right fun hc => hcall (hof _ hc), .inl⟩

/-- **What has taken effect of the other steps** does not change. -/
theorem done_iff (h : BlockFrame step st st') {cfg : RtSetupConfig} {ans : SetupAnswers} (hne : step' ≠ step) :
    Done cfg ans st' step' ↔ Done cfg ans st step' := by
  cases step' with
  | trim => simp only [Done, h.succeeded_iff (.mallopt _ _) hne]
  | lock => simp only [Done, h.succeeded_iff (.mlockall _) hne]
  | stack => simp only [Done, h.succeeded_iff (.touchStack _) hne]
  | heap => simp only [Done, h.succeeded_iff (.malloc _) hne, h.succeeded_iff (.touchHeap _) hne]
  | pin => simp only [Done, h.succeeded_iff (.schedSetaffinity _) hne]
  | hold =>
      obtain ⟨hhold, -⟩ := h.hold (Ne.symm hne)
      simp only [Done, h.succeeded_iff (.acquire _ _) hne, hhold]
  | promote => simp only [Done, h.succeeded_iff (.schedSetscheduler _) hne]

end BlockFrame

section Blocks

variable {onfault : Bool} {pid : ℕ} {cfg : RtSetupConfig} {ans : SetupAnswers} {st : SetupState}
  {step : SetupStep} {call : SetupCall}

/-- A call has succeeded if it had before, or if it is the one made now and was not refused. -/
theorem succeeded_called {call' : SetupCall} {r : Option ErrNo} :
    (st.called call' r).Succeeded call ↔ st.Succeeded call ∨ call = call' ∧ r = none := by
  simp only [SetupState.Succeeded, SetupState.called, List.mem_append, List.mem_singleton, Prod.mk.injEq]
  rw [@eq_comm _ none r]

/-- A call that is refused is the last of its block that was made. -/
theorem lastFailed_called {e : ErrNo} (hcall : call.step = step) : (st.called call (some e)).LastFailed step :=
  ⟨call, e, List.getLast?_concat, hcall, rfl⟩

/-- A call that succeeds leaves its block with no failure at its end. -/
theorem not_lastFailed_called : ¬ (st.called call none).LastFailed step := by
  rintro ⟨call', e, hlast, -, -⟩
  rw [SetupState.called, List.getLast?_concat] at hlast
  cases hlast

/-- No call of the step has been made. -/
def Fresh (step : SetupStep) (st : SetupState) : Prop := ∀ x ∈ st.calls, x.1.step ≠ step

/-- Before a block, none of its calls has succeeded. -/
theorem Fresh.not_succeeded (h : Fresh step st) (hcall : call.step = step) : ¬ st.Succeeded call :=
  fun hc => h _ hc hcall

/-- **How a block ends**: it goes on, it returns after a call that has failed, or it returns although the last call
has succeeded. -/
inductive BlockCase (onfault : Bool) (pid : ℕ) (cfg : RtSetupConfig) (ans : SetupAnswers) (step : SetupStep)
    (st : SetupState) (r : Option Int32 × SetupState) : Prop
  | goes (hret : r.1 = none) (hrefused : ¬ Refused onfault pid cfg ans st step)
      (hwasted : step = .lock → ¬ RetryWasted onfault cfg ans)
      (hdone : Done cfg ans r.2 step ↔ ¬ PassedOver onfault cfg ans step)
  | refused (hret : r.1 = some (-1)) (hrefused : Refused onfault pid cfg ans st step)
      (hwasted : step = .lock → ¬ RetryWasted onfault cfg ans) (hlast : r.2.LastFailed step)
      (hdone : ¬ Done cfg ans r.2 step)
  | wasted (hret : r.1 = some (-1)) (hstep : step = .lock) (hwasted : RetryWasted onfault cfg ans)
      (hlast : ∀ step', ¬ r.2.LastFailed step')

/-- A lock that is not refused ends the block. -/
theorem lockBlock_of_none (hlock : cfg.lockAllMemory = true) (h : ans.mlockall = none) :
    lockBlock onfault cfg ans st = (none, st.called (.mlockall onfault) none) := by
  unfold lockBlock
  rw [if_pos hlock, h]
  rfl

/-- `EINVAL`: the second call decides, but only where `MCL_ONFAULT` is defined. -/
theorem lockBlock_of_einval (hlock : cfg.lockAllMemory = true) (h : ans.mlockall = some EINVAL) :
    lockBlock onfault cfg ans st =
      (if ans.mlockallRetry.isSome ∨ onfault = false then some (-1) else none,
        (st.called (.mlockall onfault) (some EINVAL)).called (.mlockall false) ans.mlockallRetry) := by
  unfold lockBlock
  rw [if_pos hlock, h]
  have herrno : (st.called (.mlockall onfault) (some EINVAL)).errno = EINVAL := rfl
  -- A call that succeeds leaves the `errno` of the first one.
  have hleft : ((st.called (.mlockall onfault) (some EINVAL)).called (.mlockall false) none).errno ≠ 0 :=
    EINVAL.ne_zero
  simp only [Option.isSome_some, if_true, if_pos herrno]
  cases hretry : ans.mlockallRetry with
  | some e => rw [if_pos ⟨herrno, rfl⟩, if_pos (.inl rfl)]
  | none =>
      rw [if_neg fun hfail => Bool.false_ne_true hfail.2]
      cases onfault with
      | false => rw [if_pos ⟨hleft, rfl⟩, if_pos (.inr rfl)]
      | true =>
          rw [if_neg fun hflags => Bool.false_ne_true hflags.2.symm]
          rfl

/-- Another `errno` is passed over where `MCL_ONFAULT` is defined. -/
theorem lockBlock_of_ne {e : ErrNo} (hlock : cfg.lockAllMemory = true) (h : ans.mlockall = some e)
    (he : e ≠ EINVAL) :
    lockBlock onfault cfg ans st =
      (if onfault = false then some (-1) else none, st.called (.mlockall onfault) (some e)) := by
  unfold lockBlock
  rw [if_pos hlock, h]
  have herrno : (st.called (.mlockall onfault) (some e)).errno ≠ EINVAL := fun heq => he (PNat.coe_inj.mp heq)
  have hleft : (st.called (.mlockall onfault) (some e)).errno ≠ 0 := e.ne_zero
  simp only [Option.isSome_some, if_true, if_neg herrno]
  rw [if_neg fun hfail => herrno hfail.1]
  cases onfault with
  | false => rw [if_pos ⟨hleft, rfl⟩, if_pos rfl]
  | true =>
      rw [if_neg fun hflags => Bool.false_ne_true hflags.2.symm, if_neg fun hflags => Bool.false_ne_true hflags.symm]

/-- A step that is not requested. -/
theorem goes_of_not_requested (hrefused : ¬ Refused onfault pid cfg ans st step)
    (hwasted : step = .lock → ¬ RetryWasted onfault cfg ans) (hdone : Done cfg ans st step)
    (hover : ¬ PassedOver onfault cfg ans step) : BlockCase onfault pid cfg ans step st (none, st) :=
  .goes rfl hrefused hwasted (iff_of_true hdone hover)

/-- A call that `orReturn` makes. -/
theorem orReturn_case {r : Option ErrNo} (hfresh : Fresh step st) (hcall : call.step = step)
    (hrefused : Refused onfault pid cfg ans st step ↔ r ≠ none)
    (hwasted : step = .lock → ¬ RetryWasted onfault cfg ans)
    (hdone : ∀ st', Done cfg ans st' step ↔ st'.Succeeded call) (hover : ¬ PassedOver onfault cfg ans step) :
    BlockCase onfault pid cfg ans step st (orReturn st call r) := by
  cases r with
  | none =>
      refine .goes rfl (fun hr => hrefused.mp hr rfl) hwasted (iff_of_true ((hdone _).mpr ?_) hover)
      exact succeeded_called.mpr (.inr ⟨rfl, rfl⟩)
  | some e =>
      refine .refused rfl (hrefused.mpr (by simp)) hwasted (lastFailed_called hcall) fun hd => ?_
      rcases succeeded_called.mp ((hdone _).mp hd) with hmade | ⟨-, hnone⟩
      · exact hfresh.not_succeeded hcall hmade
      · cases hnone

/-- **The `mlockall` block.** -/
theorem lockBlock_case (hfresh : Fresh .lock st) :
    BlockCase onfault pid cfg ans .lock st (lockBlock onfault cfg ans st) := by
  have hnot : ∀ onfault', ¬ st.Succeeded (.mlockall onfault') := fun _ => hfresh.not_succeeded rfl
  by_cases hlock : cfg.lockAllMemory = true
  · cases h : ans.mlockall with
    | none =>
        rw [lockBlock_of_none hlock h]
        exact .goes rfl (by simp [Refused, h]) (by simp [RetryWasted, h])
          (iff_of_true (fun _ => ⟨onfault, succeeded_called.mpr (.inr ⟨rfl, rfl⟩)⟩) (by simp [PassedOver, h]))
    | some e =>
        by_cases he : e = EINVAL
        · subst he
          rw [lockBlock_of_einval hlock h]
          -- the second call decides
          cases hretry : ans.mlockallRetry with
          | some e' =>
              refine .refused rfl (by simp [Refused, hlock, h, hretry]) (by simp [RetryWasted, hretry])
                (lastFailed_called rfl) fun hdone => ?_
              obtain ⟨onfault', hmade⟩ := hdone hlock
              simp only [succeeded_called, reduceCtorEq, and_false, or_false] at hmade
              exact hnot _ hmade
          | none =>
              cases onfault with
              | true =>
                  exact .goes rfl (by simp [Refused, h, hretry]) (by simp [RetryWasted])
                    (iff_of_true (fun _ => ⟨false, succeeded_called.mpr (.inr ⟨rfl, rfl⟩)⟩) (by simp [PassedOver, h]))
              | false => exact .wasted rfl rfl ⟨hlock, rfl, h, hretry⟩ fun _ => not_lastFailed_called
        · rw [lockBlock_of_ne hlock h he]
          -- the only call has failed, whether the function returns after it or not
          have hundone : ¬ Done cfg ans (st.called (.mlockall onfault) (some e)) .lock := fun hdone => by
            obtain ⟨onfault', hmade⟩ := hdone hlock
            simp only [succeeded_called, reduceCtorEq, and_false, or_false] at hmade
            exact hnot _ hmade
          cases onfault with
          | true =>
              exact .goes rfl (by simp [Refused, h, he]) (by simp [RetryWasted])
                (iff_of_false hundone (not_not.mpr ⟨hlock, rfl, e, h, he⟩))
          | false =>
              exact .refused rfl (by simp [Refused, hlock, h, he]) (by simp [RetryWasted, h, he])
                (lastFailed_called rfl) hundone
  · unfold lockBlock
    rw [if_neg hlock]
    exact goes_of_not_requested (fun hr => hlock hr.1) (fun _ hw => hlock hw.1) (fun hl => absurd hl hlock)
      fun ho => hlock ho.1

/-- **The block that keeps the heap** makes its calls or reports the one that was refused. -/
theorem heapBlock_case (hfresh : Fresh .heap st) :
    BlockCase onfault pid cfg ans .heap st (heapBlock cfg ans st) := by
  unfold heapBlock
  split_ifs with hheap hmalloc
  · refine .goes rfl (fun hr => ?_) (fun hstep => nomatch hstep) (iff_of_true (fun _ => ⟨?_, ?_⟩) id)
    · rw [hr.2] at hmalloc
      cases hmalloc
    · simp only [succeeded_called, true_and, true_or, or_true]
    · exact ⟨_, by simp only [succeeded_called, true_and, true_or, or_true], everyPage_touchPages _ _⟩
  · refine .refused rfl ⟨hheap, Bool.eq_false_of_not_eq_true hmalloc⟩ (fun hstep => nomatch hstep)
      (lastFailed_called rfl) fun hdone => ?_
    rcases succeeded_called.mp (hdone hheap).1 with hmade | ⟨-, hnone⟩
    · exact hfresh.not_succeeded rfl hmade
    · cases hnone
  · exact goes_of_not_requested (fun hr => hheap hr.1) (fun hstep => nomatch hstep) (fun h => absurd h hheap) id

/-- **The block that pins the thread** makes its call or reports that it was refused. -/
theorem pinBlock_case (hfresh : Fresh .pin st) :
    BlockCase onfault pid cfg ans .pin st (pinBlock cfg ans st) := by
  unfold pinBlock
  dsimp only
  split_ifs with hpin
  · obtain ⟨hset, hcpu⟩ := hpin
    generalize hn : cfg.cpuId.toUInt32.toNat = cpu
    by_cases hroom : cpu < cpuSetSize
    · have hone : CPU_SET cpu = [cpu] := if_pos hroom
      refine orReturn_case hfresh rfl ?_ (fun hstep => nomatch hstep) (fun st' => ?_) fun ho => ?_
      · simp only [Refused, hset, hcpu, hn, true_and]
      · simp only [Done, hset, hcpu, hn, hone, true_and, forall_const]
      · exact absurd hcpu (Int32.not_le.mpr ho.2)
    · -- There is no room for the CPU, and the empty set is refused.
      have hempty : CPU_SET cpu = [] := if_neg hroom
      have hanswer : setaffinity (CPU_SET cpu) ans.schedSetaffinity = some (ans.schedSetaffinity.getD EINVAL) := by
        rw [hempty, setaffinity, if_pos rfl]
      rw [hanswer]
      refine .refused rfl ⟨hset, hcpu, by simp [hn, hanswer]⟩ (fun hstep => nomatch hstep) (lastFailed_called rfl)
        fun hdone => ?_
      rcases succeeded_called.mp (hdone hset).2 with hmade | ⟨-, hnone⟩
      · exact hfresh.not_succeeded rfl hmade
      · cases hnone
  · by_cases hset : cfg.setCpuAffinity = true
    · -- A negative CPU is passed over.
      have hneg : ¬ 0 ≤ cfg.cpuId := fun hcpu => hpin ⟨hset, hcpu⟩
      exact .goes rfl (fun hr => hneg hr.2.1) (fun hstep => nomatch hstep)
        (iff_of_false (fun hdone => hneg (hdone hset).1) (not_not.mpr ⟨hset, Int32.not_le.mp hneg⟩))
    · exact goes_of_not_requested (fun hr => hset hr.1) (fun hstep => nomatch hstep) (fun hs => absurd hs hset)
        fun ho => hset ho.1

/-- **The block that holds the latency** takes the hold or reports that it was refused. -/
theorem holdBlock_case (hfresh : Fresh .hold st) :
    BlockCase onfault pid cfg ans .hold st (holdBlock pid cfg ans st) := by
  unfold holdBlock
  dsimp only
  split_ifs with hhold
  · cases hr : (CpuLatencyHold.acquire pid cfg.cpuLatencyUs cfg.latencyCpu ans.acquire (st.reset pid)).1 with
    | error e =>
        dsimp only
        refine .refused rfl ⟨hhold, e, hr⟩ (fun hstep => nomatch hstep) (lastFailed_called rfl) fun hdone => ?_
        -- a call that was refused cannot have succeeded too
        rcases succeeded_called.mp (hdone hhold).1 with hmade | ⟨-, hnone⟩
        · exact hfresh.not_succeeded rfl hmade
        · cases hnone
    | ok h =>
        dsimp only
        refine .goes rfl (fun hrefused => ?_) (fun hstep => nomatch hstep)
          (iff_of_true (fun _ => ⟨succeeded_called.mpr (.inr ⟨rfl, rfl⟩), h, rfl, CpuLatencyHold.acquire_ok hr⟩) id)
        obtain ⟨-, e, he⟩ := hrefused
        rw [hr] at he
        cases he
  -- no hold was asked for
  · exact goes_of_not_requested (fun hr => hhold hr.1) (fun hstep => nomatch hstep) (fun h => absurd h hhold) id

/-- **Every block** makes its calls or reports the one that was refused. -/
theorem setupBlock_case (hfresh : Fresh step st) :
    BlockCase onfault pid cfg ans step st (setupBlock onfault pid cfg ans step st) := by
  -- trimming and the stack cannot fail; the other blocks have their own lemmas
  cases step with
  | trim =>
      refine .goes rfl id (fun hstep => nomatch hstep) (iff_of_true (fun htrim => ?_) id)
      simp only [setupBlock, if_pos htrim, succeeded_called, true_or, or_true, and_self]
  | lock => exact lockBlock_case hfresh
  | stack =>
      refine .goes rfl id (fun hstep => nomatch hstep) (iff_of_true (fun hstack => ?_) id)
      simp only [setupBlock, if_pos hstack]
      exact ⟨_, succeeded_called.mpr (.inr ⟨rfl, rfl⟩), everyPage_touchPages _ _⟩
  | heap => exact heapBlock_case hfresh
  | pin => exact pinBlock_case hfresh
  | hold => exact holdBlock_case hfresh
  | promote =>
      rw [setupBlock]
      split_ifs with hprio
      · refine orReturn_case hfresh rfl ?_ (fun hstep => nomatch hstep) (fun st' => ?_) id
        · simp only [Refused, hprio, true_and]
        · simp only [Done, hprio, forall_const]
      · exact goes_of_not_requested (fun hr => hprio hr.1) (fun hstep => nomatch hstep) (fun h => absurd h hprio) id

/-- A block makes calls of its own step alone. -/
theorem setupBlock_frame : BlockFrame step st (setupBlock onfault pid cfg ans step st).2 := by
  -- a block adds calls of its own step only
  have hsame := BlockFrame.refl step st
  cases step with
  | trim =>
      rw [setupBlock]
      split_ifs
      · exact (hsame.called rfl).called rfl
      · exact hsame
  | lock =>
      rw [setupBlock]
      by_cases hlock : cfg.lockAllMemory = true
      · cases h : ans.mlockall with
        | none =>
            rw [lockBlock_of_none hlock h]
            exact hsame.called rfl
        -- `EINVAL` is tried again without `MCL_ONFAULT`
        | some e =>
            by_cases he : e = EINVAL
            · rw [lockBlock_of_einval hlock (h.trans (congrArg some he))]
              exact (hsame.called rfl).called rfl
            · rw [lockBlock_of_ne hlock h he]
              exact hsame.called rfl
      · rw [lockBlock, if_neg hlock]
        exact hsame
  | stack =>
      rw [setupBlock]
      split_ifs
      · exact hsame.called rfl
      · exact hsame
  | heap =>
      rw [setupBlock, heapBlock]
      split_ifs
      · exact ((hsame.called rfl).called rfl).called rfl
      · exact hsame.called rfl
      · exact hsame
  | pin =>
      rw [setupBlock, pinBlock]
      split_ifs
      · exact hsame.called rfl
      · exact hsame
  | hold =>
      rw [setupBlock, holdBlock]
      dsimp only
      split_ifs
      · split
        · exact ⟨(hsame.called rfl).calls, fun hne => absurd rfl hne⟩
        · exact ⟨(hsame.called rfl).calls, fun hne => absurd rfl hne⟩
      · exact hsame
  | promote =>
      rw [setupBlock]
      split_ifs
      · exact hsame.called rfl
      · exact hsame

/-! ## The run -/

/-- What would be refused does not change while the other blocks run. -/
theorem refused_iff {st' : SetupState}
    (h : step = .hold → st'.gSetupLatencyHold = st.gSetupLatencyHold ∧ st'.sys = st.sys) :
    Refused onfault pid cfg ans st' step ↔ Refused onfault pid cfg ans st step := by
  cases step with
  | hold =>
      obtain ⟨hhold, hsys⟩ := h rfl
      simp only [Refused, SetupState.reset, hhold, hsys]
  | _ => rfl

/-- **What is known behind the blocks `pre`**, which have all gone on. -/
structure SetupSoFar (onfault : Bool) (pid : ℕ) (cfg : RtSetupConfig) (ans : SetupAnswers) (st : SetupState)
    (pre : List SetupStep) (st' : SetupState) : Prop where
  not_refused : ∀ step ∈ pre, ¬ Refused onfault pid cfg ans st step
  not_wasted : .lock ∈ pre → ¬ RetryWasted onfault cfg ans
  done : ∀ step ∈ pre, Done cfg ans st' step ↔ ¬ PassedOver onfault cfg ans step
  calls : ∀ x ∈ st'.calls, x.1.step ∈ pre
  hold : .hold ∉ pre → st'.gSetupLatencyHold = st.gSetupLatencyHold ∧ st'.sys = st.sys

/-- A block that is still to come has made no calls. -/
theorem SetupSoFar.fresh {pre : List SetupStep} {st' : SetupState} (h : SetupSoFar onfault pid cfg ans st pre st')
    (hstep : step ∉ pre) : Fresh step st' :=
  fun x hx heq => hstep (heq ▸ h.calls x hx)

/-- The blocks before leave a later one to be refused as it would have been. -/
theorem SetupSoFar.refused_iff {pre : List SetupStep} {st' : SetupState}
    (h : SetupSoFar onfault pid cfg ans st pre st') (hstep : step ∉ pre) :
    Refused onfault pid cfg ans st' step ↔ Refused onfault pid cfg ans st step :=
  Rt.refused_iff fun heq => h.hold (heq ▸ hstep)

/-- One more block goes on. -/
theorem SetupSoFar.go {pre : List SetupStep} {st' : SetupState} (h : SetupSoFar onfault pid cfg ans st pre st')
    (hstep : step ∉ pre) (hgo : (setupBlock onfault pid cfg ans step st').1 = none) :
    SetupSoFar onfault pid cfg ans st (pre ++ [step]) (setupBlock onfault pid cfg ans step st').2 := by
  -- the step is new, so the frame of its block keeps what is known of the others
  have hframe : BlockFrame step st' (setupBlock onfault pid cfg ans step st').2 := setupBlock_frame
  have hcase : BlockCase onfault pid cfg ans step st' (setupBlock onfault pid cfg ans step st') :=
    setupBlock_case (h.fresh hstep)
  cases hcase with
  | goes _ hrefused hwasted hdone =>
      refine ⟨fun step' hmem => ?_, fun hmem => ?_, fun step' hmem => ?_, fun x hx => ?_, fun hnot => ?_⟩
      · rcases List.mem_append.mp hmem with hmem | hmem
        · exact h.not_refused step' hmem
        · rw [List.mem_singleton.mp hmem]
          exact fun hr => hrefused ((h.refused_iff hstep).mpr hr)
      · rcases List.mem_append.mp hmem with hmem | hmem
        · exact h.not_wasted hmem
        · exact hwasted (List.mem_singleton.mp hmem).symm
      · rcases List.mem_append.mp hmem with hmem | hmem
        · exact (hframe.done_iff fun heq => hstep (heq ▸ hmem)).trans (h.done step' hmem)
        · rw [List.mem_singleton.mp hmem]
          exact hdone
      · obtain ⟨made, hmade, hof⟩ := hframe.calls
        rw [hmade] at hx
        rcases List.mem_append.mp hx with hx | hx
        · exact List.mem_append_left _ (h.calls x hx)
        · exact List.mem_append_right _ (List.mem_singleton.mpr (hof x hx))
      · obtain ⟨hpre, hself⟩ := not_or.mp fun hmem => hnot (List.mem_append.mpr hmem)
        obtain ⟨hhold, hsys⟩ := hframe.hold fun heq => hself (List.mem_singleton.mpr heq.symm)
        exact ⟨hhold.trans (h.hold hpre).1, hsys.trans (h.hold hpre).2⟩
  | refused hret => cases hret.symm.trans hgo
  | wasted hret => cases hret.symm.trans hgo

/-- **How the run ends**: behind all blocks, or at one that returns. -/
theorem rt_setup_cases (onfault : Bool) (pid : ℕ) (cfg : RtSetupConfig) (ans : SetupAnswers) (st : SetupState) :
    (∃ st', rtSetupMemoryAndSched onfault pid cfg ans st = (0, st') ∧
      SetupSoFar onfault pid cfg ans st setupSteps st') ∨
    ∃ pre step post st' st'', setupSteps = pre ++ step :: post ∧ SetupSoFar onfault pid cfg ans st pre st' ∧
      step ∉ pre ∧ BlockCase onfault pid cfg ans step st' (some (-1), st'') ∧
      rtSetupMemoryAndSched onfault pid cfg ans st = (-1, st'') := by
  have hnodup : ∀ {pre step post}, setupSteps = pre ++ step :: post → step ∉ pre := by
    intro pre step post hsplit hmem
    have hsteps : setupSteps.Nodup := by decide
    rw [hsplit] at hsteps
    exact (List.nodup_append.mp hsteps).2.2 step hmem step List.mem_cons_self rfl
  have hstart : SetupSoFar onfault pid cfg ans st [] { st with calls := [] } :=
    ⟨fun _ h => (nomatch h), fun h => (nomatch h), fun _ h => (nomatch h), fun _ h => (nomatch h),
      fun _ => ⟨rfl, rfl⟩⟩
  -- `SetupSoFar` is what each block that goes on keeps
  unfold rtSetupMemoryAndSched
  dsimp only
  rcases runBlocks_cases (P := SetupSoFar onfault pid cfg ans st) hstart
    (fun pre step post st' hsplit h hgo => h.go (hnodup hsplit) hgo) with ⟨hret, h⟩ | hstop
  · exact .inl ⟨_, by rw [hret]; rfl, h⟩
  · obtain ⟨pre, step, post, st', v, hsplit, h, hv, hrun⟩ := hstop
    have hstep := hnodup hsplit
    have hcase : BlockCase onfault pid cfg ans step st' (setupBlock onfault pid cfg ans step st') :=
      setupBlock_case (h.fresh hstep)
    have hret : (setupBlock onfault pid cfg ans step st').1 = some (-1) := by
      cases hcase with
      | goes hret => cases hret.symm.trans hv
      | refused hret => exact hret
      | wasted hret => exact hret
    refine .inr ⟨pre, step, post, st', (setupBlock onfault pid cfg ans step st').2, hsplit, h, hstep, ?_, ?_⟩
    · rw [← hret]
      exact hcase
    · rw [hrun, hret]
      rfl

/-- Where a step is refused, no `mlockall` has been wasted before it. -/
theorem not_wasted_of_refused {pre post : List SetupStep} {st' : SetupState}
    (hsplit : setupSteps = pre ++ step :: post) (h : SetupSoFar onfault pid cfg ans st pre st')
    (hrefused : Refused onfault pid cfg ans st step) (hwasted : step = .lock → ¬ RetryWasted onfault cfg ans) :
    ¬ RetryWasted onfault cfg ans := by
  -- The function starts with `trim`, which is never refused, and `lock`.
  match pre with
  | [] =>
      rw [← (List.cons.inj hsplit).1] at hrefused
      exact hrefused.elim
  | [_] => exact hwasted (List.cons.inj (List.cons.inj hsplit).2).1.symm
  | _ :: step' :: _ =>
      have hlock : .lock = step' := (List.cons.inj (List.cons.inj hsplit).2).1
      exact h.not_wasted (hlock ▸ List.mem_cons_of_mem _ List.mem_cons_self)

end Blocks

/-- **What it returns is true**, unless the second `mlockall` is wasted, or something has no effect and nothing is
refused: it is 0 if and only if all that is requested has taken effect, and otherwise negative, with the `errno` of
the step that has failed. -/
theorem rt_setup_reports_iff (onfault : Bool) (pid : ℕ) (cfg : RtSetupConfig) (ans : SetupAnswers)
    (st : SetupState) :
    ReportsTruly cfg ans (rtSetupMemoryAndSched onfault pid cfg ans st) ↔
      ¬ RetryWasted onfault cfg ans ∧
        ((∃ step, PassedOver onfault cfg ans step) → ∃ step, Refused onfault pid cfg ans st step) := by
  rcases rt_setup_cases onfault pid cfg ans st with ⟨st', hrun, h⟩ | hstop
  · -- All blocks have gone on: 0 is returned.
    have hall : ∀ step, step ∈ setupSteps := by
      intro step
      cases step <;> decide
    rw [hrun]
    refine ⟨fun htrue => ⟨h.not_wasted (hall _), ?_⟩, fun hcond => ⟨iff_of_true rfl fun step => ?_, ?_⟩⟩
    · rintro ⟨step, hover⟩
      exact absurd hover ((h.done step (hall step)).mp (htrue.success.mp rfl step))
    · refine (h.done step (hall step)).mpr fun hover => ?_
      obtain ⟨step', hrefused⟩ := hcond.2 ⟨step, hover⟩
      exact h.not_refused step' (hall step') hrefused
    · exact fun hne => absurd rfl hne
  · obtain ⟨pre, step, post, st', st'', hsplit, h, hstep, hcase, hrun⟩ := hstop
    have hneg : (-1 : Int32) < 0 := by decide
    have hne : (-1 : Int32) ≠ 0 := by decide
    rw [hrun]
    cases hcase with
    | goes hret => cases hret
    | refused _ hrefused hwasted hlast hdone =>
        -- a step before it may have been passed over: what is returned is true all the same
        have hrefused' := (h.refused_iff hstep).mp hrefused
        refine iff_of_true ⟨iff_of_false hne fun hall => hdone (hall step), fun _ => ?_⟩
          ⟨not_wasted_of_refused hsplit h hrefused' hwasted, fun _ => ⟨step, hrefused'⟩⟩
        exact ⟨hneg, step, hlast, hdone⟩
    | wasted _ _ hwasted hlast =>
        -- no call has failed last
        refine iff_of_false (fun htrue => ?_) fun hcond => hcond.1 hwasted
        obtain ⟨-, step', hfailed, -⟩ := htrue.failure hne
        exact hlast step' hfailed

/-- The system of a user whose `RLIMIT_MEMLOCK` is too small, and who may do everything else. -/
def memlockLimit : SetupAnswers where
  sysconfPage := 4096
  mlockall := some ENOMEM
  mlockallRetry := some ENOMEM
  malloc := true
  schedSetaffinity := none
  acquire := ⟨none, none, .error EIO, none, none⟩
  schedSetscheduler := none

/-- **Memory that is not locked**, reported as a success. -/
theorem rt_setup_not_locked :
    let r := rtSetupMemoryAndSched true 1 {} memlockLimit ⟨0, [], none, ⟨fun _ => [], 3, []⟩⟩
    r.1 = 0 ∧ ¬ ReportsTruly {} memlockLimit r := by
  refine ⟨rfl, fun h => ?_⟩
  obtain ⟨onfault, hmade⟩ := h.success.mp rfl .lock rfl
  have hlock : (rtSetupMemoryAndSched true 1 {} memlockLimit
      ⟨0, [], none, ⟨fun _ => [], 3, []⟩⟩).2.calls.filter (fun x => x.1.step = .lock) =
      [(.mlockall true, some ENOMEM)] := rfl
  have hmem : (SetupCall.mlockall onfault, (none : Option ErrNo)) ∈ [(SetupCall.mlockall true, some ENOMEM)] := by
    rw [← hlock]
    exact List.mem_filter.mpr ⟨hmade, rfl⟩
  cases List.mem_singleton.mp hmem

end Axon.Rt
