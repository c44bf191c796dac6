import Axon.Rt.Sysfs
import Mathlib.Logic.Function.Basic

/-! # Holding down the wake-up latency of a CPU

A `CpuLatencyHold` sets the limit of a CPU in sysfs, or opens `/dev/cpu_dma_latency`, and undoes it when it is
released. -/

namespace Axon.Rt

/-! ## The system -/

/-- What a hold does to the system. -/
inductive Effect
  | write (path : String) (v : List Char)
  | close (fd : ℕ)
  deriving DecidableEq

/-- The system as the holds see it: the values of its attributes, and what has been done so far. -/
structure LatencySys where
  attr : String → List Char
  nextFd : ℕ
  effects : List Effect

namespace LatencySys

/-- Open a device. -/
def openFd (sys : LatencySys) : ℕ × LatencySys := (sys.nextFd, { sys with nextFd := sys.nextFd + 1 })

/-- The FD is closed. -/
def close (sys : LatencySys) (fd : ℕ) : LatencySys := { sys with effects := sys.effects ++ [.close fd] }

/-- **`write_str`**, where the file can be opened: reads return `v` from then on. -/
def writeStr (sys : LatencySys) (path : String) (v : List Char) : LatencySys :=
  { sys with
    attr := Function.update sys.attr path v
    effects := sys.effects ++ [.write path v] }

end LatencySys

/-- What the system answers in the course of one `acquire`. -/
structure AcquireAnswers where
  /-- Opening `/dev/cpu_dma_latency`. -/
  dmaOpen : Option ErrNo
  /-- Writing to it. -/
  dmaWrite : Option ErrNo
  /-- What the CPU's `online` file has. -/
  online : Except ErrNo (List Char)
  /-- Opening and reading the attribute. -/
  attrRead : Option ErrNo
  /-- Opening the attribute and writing to it. -/
  attrWrite : Option ErrNo

/-! ## `CpuLatencyHold` -/

/-- `CpuLatencyHold`. -/
structure CpuLatencyHold where
  /-- `/dev/cpu_dma_latency`. -/
  fd_ : Option ℕ
  cpu_ : Int32
  us_ : Int32
  /-- Only the acquiring process releases. -/
  ownerPid_ : ℕ
  /-- The attribute. -/
  path_ : String
  /-- Its previous value. -/
  restore_ : List Char

/-- `std::to_string`. -/
def stdToString (n : Int32) : List Char :=
  if n < 0 then '-' :: Nat.toDigits 10 n.toInt.natAbs else Nat.toDigits 10 n.toInt.natAbs

/-- A limit as the attribute has it. -/
def limit (us : Int32) : List Char := if us = 0 then ['n', '/', 'a'] else stdToString us

/-- The attribute of a CPU. -/
def latencyAttr (cpu : Int32) : String := cpuAttr cpu "power/pm_qos_resume_latency_us"

/-- The CPU is said to be offline. -/
def offline (ans : AcquireAnswers) : Bool :=
  match readLine ans.online with
  | .ok online => online == ['0']
  | .error _ => false

namespace CpuLatencyHold

/-- **`CpuLatencyHold::acquire`**, in the process `pid`. -/
def acquire (pid : ℕ) (maxLatencyUs cpu : Int32) (ans : AcquireAnswers) (sys : LatencySys) :
    Except ErrNo CpuLatencyHold × LatencySys :=
  if maxLatencyUs < 0 ∨ cpu < -1 then (.error EINVAL, sys)
  else if cpu = -1 then
    match ans.dmaOpen with
    | some e => (.error e, sys)
    | none =>
        let r := sys.openFd
        match ans.dmaWrite with
        | some e => (.error e, r.2.close r.1)
        | none => (.ok ⟨some r.1, -1, maxLatencyUs, pid, "", []⟩, r.2)
  else if offline ans then (.error ENODEV, sys)
  else
    match ans.attrRead with
    | some e => (.error e, sys)
    | none =>
        match readLine (.ok (shown (sys.attr (latencyAttr cpu)))) with
        | .error e => (.error e, sys)
        | .ok prev =>
            match ans.attrWrite with
            | some e => (.error e, sys)
            | none => (.ok ⟨none, cpu, maxLatencyUs, pid, latencyAttr cpu, prev⟩,
                sys.writeStr (latencyAttr cpu) (limit maxLatencyUs))

/-- **`release`**, in the process `pid`: only the owner closes or writes. -/
def release (h : CpuLatencyHold) (pid : ℕ) (sys : LatencySys) : CpuLatencyHold × LatencySys :=
  match h.fd_ with
  | some fd => ({ h with fd_ := none }, if pid = h.ownerPid_ then sys.close fd else sys)
  | none =>
      if h.restore_ ≠ [] then
        ({ h with restore_ := [] }, if pid = h.ownerPid_ then sys.writeStr h.path_ h.restore_ else sys)
      else (h, sys)

/-- What a move leaves behind. The path that has been moved from is not read again. -/
def movedFrom (h : CpuLatencyHold) : CpuLatencyHold := { h with fd_ := none, path_ := "", restore_ := [] }

variable {h : CpuLatencyHold} {pid : ℕ} {sys : LatencySys}

/-- A process that is not the owner does nothing. -/
theorem release_of_ne (hpid : pid ≠ h.ownerPid_) : (h.release pid sys).2 = sys := by
  unfold release
  split
  · exact if_neg hpid
  · split_ifs
    · rfl
    · rfl

/-- Without an FD and a value to restore nothing is done. -/
theorem release_of_empty (hfd : h.fd_ = none) (hrestore : h.restore_ = []) : h.release pid sys = (h, sys) := by
  unfold release
  rw [hfd]
  exact if_neg (not_not.mpr hrestore)

/-- The owner closes an FD. -/
theorem release_of_fd {fd : ℕ} (hfd : h.fd_ = some fd) (hpid : pid = h.ownerPid_) :
    (h.release pid sys).2 = sys.close fd := by
  unfold release
  rw [hfd]
  exact if_pos hpid

/-- The owner restores a value. -/
theorem release_of_restore (hfd : h.fd_ = none) (hrestore : h.restore_ ≠ []) (hpid : pid = h.ownerPid_) :
    (h.release pid sys).2 = sys.writeStr h.path_ h.restore_ := by
  unfold release
  rw [hfd]
  dsimp only
  rw [if_pos hrestore, if_pos hpid]

/-- **What `acquire` does**: it fails and changes no attribute, opens the device, or sets the limit of the CPU and
keeps the value that was there. -/
theorem acquire_cases {maxLatencyUs cpu : Int32} {ans : AcquireAnswers}
    (hattr : SysfsValue (sys.attr (latencyAttr cpu))) :
    (∃ e sys', acquire pid maxLatencyUs cpu ans sys = (.error e, sys') ∧ sys'.attr = sys.attr) ∨
    (∃ fd sys', acquire pid maxLatencyUs cpu ans sys = (.ok ⟨some fd, -1, maxLatencyUs, pid, "", []⟩, sys') ∧
      sys'.attr = sys.attr) ∨
    (¬ maxLatencyUs < 0 ∧ acquire pid maxLatencyUs cpu ans sys =
      (.ok ⟨none, cpu, maxLatencyUs, pid, latencyAttr cpu, sys.attr (latencyAttr cpu)⟩,
        sys.writeStr (latencyAttr cpu) (limit maxLatencyUs))) := by
  unfold acquire
  -- the limit of all CPUs goes to the device, that of one CPU to its attribute
  split_ifs with hargs hcpu hoffline
  · exact .inl ⟨_, _, rfl, rfl⟩
  · cases ans.dmaOpen with
    | some e => exact .inl ⟨_, _, rfl, rfl⟩
    | none =>
        cases ans.dmaWrite with
        | some e => exact .inl ⟨_, _, rfl, rfl⟩
        | none => exact .inr (.inl ⟨_, _, rfl, rfl⟩)
  · exact .inl ⟨_, _, rfl, rfl⟩
  · cases ans.attrRead with
    | some e => exact .inl ⟨_, _, rfl, rfl⟩
    | none =>
        -- what was there before is read back as it was written
        rw [readLine_shown hattr]
        cases ans.attrWrite with
        | some e => exact .inl ⟨_, _, rfl, rfl⟩
        | none => exact .inr (.inr ⟨fun hneg => hargs (.inl hneg), rfl⟩)

/-- A hold that has been acquired is on the CPU it was asked for. -/
theorem acquire_ok {maxLatencyUs cpu : Int32} {ans : AcquireAnswers}
    (hok : (acquire pid maxLatencyUs cpu ans sys).1 = .ok h) : h.us_ = maxLatencyUs ∧ h.cpu_ = cpu := by
  revert hok
  unfold acquire
  -- only two branches return a hold
  split_ifs with hargs hcpu hoffline
  · exact fun hok => (nomatch hok)
  · cases ans.dmaOpen with
    | some e => exact fun hok => (nomatch hok)
    | none =>
        cases ans.dmaWrite with
        | some e => exact fun hok => (nomatch hok)
        | none =>
            rintro ⟨⟩
            exact ⟨rfl, hcpu.symm⟩
  · exact fun hok => (nomatch hok)
  · cases ans.attrRead with
    | some e => exact fun hok => (nomatch hok)
    | none =>
        cases readLine (.ok (shown (sys.attr (latencyAttr cpu)))) with
        | error e => exact fun hok => (nomatch hok)
        | ok prev =>
            cases ans.attrWrite with
            | some e => exact fun hok => (nomatch hok)
            | none =>
                rintro ⟨⟩
                exact ⟨rfl, rfl⟩

end CpuLatencyHold

/-- **A limit is read as it was written.** -/
theorem sysfsValue_limit {us : Int32} (hus : ¬ us < 0) : SysfsValue (limit us) := by
  unfold limit
  split_ifs with hzero
  · exact ⟨by decide, fun _ => by simp, by decide⟩
  · rw [stdToString, if_neg hus]
    have hlt : us.toInt.natAbs < 10 ^ 10 := by
      have hlow := us.le_toInt
      have hhigh := us.toInt_lt
      omega
    refine ⟨Nat.toDigits_ne_nil, fun hne => ?_, ?_⟩
    · have hdigit := Nat.isDigit_of_mem_toDigits (by decide) (by decide) (List.getLast_mem hne)
      constructor <;> intro heq <;> rw [heq] at hdigit <;> cases hdigit
    · exact ((Nat.length_toDigits_le_iff (by decide) (by decide)).mpr hlt).trans (by decide)

end Axon.Rt
