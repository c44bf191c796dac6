import Axon.Foundation.Resources
import Axon.Types
import Axon.Sidecar.Wire

/-! # The calls below the device code

What `mmap`, the CUDA driver and the NvBufSurface library open for a process. Each of their calls takes the next
answer of an arbitrary sequence; a call that releases something needs exactly what an earlier call has opened, the
size included. -/

namespace Axon.Device

open Foundation Prog

/-- **What a process holds** of the system, the CUDA driver and the NvBufSurface library. -/
inductive Resource
  | fd (fd : Fd)
  /-- Memory mapped by `mmap`. -/
  | host (base : ℕ) (length : UInt64)
  /-- A reserved range of device addresses, nothing mapped into it. -/
  | reserved (ptr : ℕ) (size : UInt64)
  /-- The range with memory mapped into it. -/
  | mapped (ptr : ℕ) (size : UInt64)
  /-- A handle of device memory. -/
  | allocation (handle : ℕ)
  /-- A surface, which owns its FD. -/
  | surface (surf : ℕ) (fd : Option Fd)
  /-- A surface that is mapped as an EGL image. -/
  | eglImage (surf : ℕ) (fd : Option Fd)
  /-- An EGL image registered with CUDA. -/
  | graphics (resource : ℕ)
  deriving DecidableEq

/-- The FD that a resource keeps open. -/
def Resource.fd? : Resource → Option Fd
  | .fd own => some own
  | .surface _ own => own
  | .eglImage _ own => own
  | _ => none

/-- **An FD is open**. -/
def Held (live : Multiset Resource) (fd : Fd) : Prop := ∃ r ∈ live, r.fd? = some fd

/-- An FD of its own is open. -/
theorem Held.of_mem {live : Multiset Resource} {fd : Fd} (h : .fd fd ∈ live) : Held live fd := ⟨_, h, rfl⟩

/-- More that is open changes nothing. -/
theorem Held.mono {live live' : Multiset Resource} {fd : Fd} (h : Held live fd) (hle : live ≤ live') :
    Held live' fd :=
  h.imp fun _ hr => ⟨Multiset.mem_of_le hle hr.1, hr.2⟩

/-- What a process remembers beside its objects. -/
structure Globals where
  /-- Of `accelerator_cuda.cpp`: the driver has been initialised. -/
  gInit : Bool
  /-- How long the thread has slept, in milliseconds. -/
  slept : ℕ
  deriving DecidableEq

/-- A call, or a function that makes calls. An answer is the value a call gives, `none` when it fails. -/
abbrev Call := Prog Globals (Option ℕ) Resource

/-- What a process has open, the calls made so far and those to come. -/
abbrev Process := Kernel Globals (Option ℕ) Resource

/-- A call of which only the success matters. -/
def succeeds : Call Bool := do return (← ask).isSome

/-- Such a call concerns no resource. -/
theorem succeeds_uses (rest : Multiset Resource) : Uses rest succeeds fun _ => rest :=
  (Uses.ask rest).bind fun _ => .pure rfl

/-- Calls one after the other, up to the first that fails. -/
def allSucceed : ℕ → Call Bool
  | 0 => return true
  | n + 1 => do if ← succeeds then allSucceed n else return false

/-- Nor do several of them. -/
theorem allSucceed_uses (n : ℕ) (rest : Multiset Resource) : Uses rest (allSucceed n) fun _ => rest := by
  induction n with
  | zero => exact .pure rfl
  | succ n ih =>
      refine (succeeds_uses rest).bind fun ok => ?_
      exact .ite (fun _ => ih) fun _ => .pure rfl

/-- `sleep_ms`. -/
def sleepMs (ms : ℕ) : Call Unit := do
  let g ← get
  set { g with slept := g.slept + ms }

/-- Sleeping concerns no resource. -/
theorem sleepMs_uses (ms : ℕ) (rest : Multiset Resource) : Uses rest (sleepMs ms) fun _ => rest :=
  (Uses.get rest).bind fun _ => .set _ rest

/-- **The loops that wait for the other side**: an attempt every 20 ms, until one succeeds or `timeout_ms` has been
waited. -/
def retry {β : Type} (attempt : Call (Option β)) (timeoutMs : ℤ) (waited : ℕ) : Call (Option β) := do
  match ← attempt with
  | some b => return some b
  | none =>
      if _h : timeoutMs ≤ waited then return none
      else
        sleepMs 20
        retry attempt timeoutMs (waited + 20)
termination_by (timeoutMs - waited).toNat
decreasing_by omega

/-- The loop leaves open what its last attempt does, and the failed ones leave nothing. -/
theorem retry_uses {β : Type} {attempt : Call (Option β)} {pre : Multiset Resource}
    {post : Option β → Multiset Resource} (h : Uses pre attempt post) (hnone : post none = pre) (timeoutMs : ℤ)
    (waited : ℕ) : Uses pre (retry attempt timeoutMs waited) post := by
  subst hnone
  induction waited using retry.induct timeoutMs with
  | case1 waited ih =>
      rw [retry]
      refine h.bind fun r => ?_
      cases r with
      | some b => exact .pure rfl
      | none =>
          dsimp only
          split
          · exact .pure rfl
          · exact (sleepMs_uses 20 _).bind fun _ => ih ‹_›

/-- What is open after a call that opens what it returns, if it does not fail. -/
def adding {β : Type} (res : β → Resource) (rest : Multiset Resource) : Option β → Multiset Resource
  | none => rest
  | some b => res b ::ₘ rest

/-- The resources of what a function returns, if it does not fail. -/
def optRes {β : Type} (res : β → Multiset Resource) : Option β → Multiset Resource
  | none => 0
  | some b => res b

/-- What is returned has its own resources. -/
@[simp] theorem optRes_some {β : Type} (res : β → Multiset Resource) (b : β) : optRes res (some b) = res b := rfl

/-- The call opens what it answers. -/
def opening (res : ℕ → Resource) : Call (Option ℕ) := do
  match ← ask with
  | none => return none
  | some n =>
      acquire (res n)
      return some n

/-- **The call opens what it answers**, unless it fails. -/
theorem opening_uses (res : ℕ → Resource) (rest : Multiset Resource) :
    Uses rest (opening res) (adding res rest) := by
  refine (Uses.ask rest).bind fun a => ?_
  cases a with
  | none => exact .pure rfl
  | some n => exact (Uses.acquire (res n) rest).bind fun _ => .pure rfl

/-- One resource is turned into another. -/
def exchange (before after : Resource) : Call Unit := do
  release before
  acquire after

/-- The one has to be open, and the other is open from then on. -/
theorem exchange_uses (before after : Resource) (rest : Multiset Resource) :
    Uses (before ::ₘ rest) (exchange before after) fun _ => after ::ₘ rest :=
  (Uses.release before rest).bind fun _ => .acquire after rest

/-- `close`. -/
def close (fd : Fd) : Call Unit := release (.fd fd)

/-- An FD that is closed has to be open. -/
theorem close_uses (fd : Fd) (rest : Multiset Resource) : Uses (.fd fd ::ₘ rest) (close fd) fun _ => rest :=
  .release _ rest

/-- An FD made by a call that has answered `n`, of a file of `bytes` bytes. -/
def newFd (n bytes : ℕ) : Fd := ⟨n, ⟨n, bytes⟩⟩

/-- A close that an FD of -1 skips. -/
def closeOpt : Option Fd → Call Unit
  | some fd => close fd
  | none => return ()

/-- An FD that may be -1. -/
def fdRes (fd : Option Fd) : Multiset Resource := optRes (fun fd => {.fd fd}) fd

/-- One of -1 need not be. -/
theorem closeOpt_uses (fd : Option Fd) : Uses (fdRes fd) (closeOpt fd) fun _ => 0 := by
  cases fd with
  | none => exact .pure rfl
  | some fd => exact close_uses fd 0

/-- An FD is used, its own or that of a surface. -/
def useFd (fd : Fd) : Call Unit := accessWhere fun r => r.fd? = some fd

/-- An FD that is used has to be open. -/
theorem useFd_uses {fd : Fd} {rest : Multiset Resource} (h : Held rest fd) : Uses rest (useFd fd) fun _ => rest :=
  .accessWhere h

/-- `mmap` of an FD. -/
def mmap (fd : Fd) (length : UInt64) : Call (Option ℕ) := do
  useFd fd
  opening fun base => .host base length

/-- **`mmap`** needs the FD open, and opens a mapping. -/
theorem mmap_uses {fd : Fd} (length : UInt64) {rest : Multiset Resource} (h : Held rest fd) :
    Uses rest (mmap fd length) (adding (fun base => .host base length) rest) :=
  (useFd_uses h).bind fun _ => opening_uses _ rest

/-- `munmap`. -/
def munmap (base : ℕ) (length : UInt64) : Call Unit := release (.host base length)

/-- **`munmap`** needs the mapping, in all its length. -/
theorem munmap_uses (base : ℕ) (length : UInt64) (rest : Multiset Resource) :
    Uses (.host base length ::ₘ rest) (munmap base length) fun _ => rest := .release _ rest

/-- A process with one FD open, in which the call of number `k` will fail. -/
def refusing (k : ℕ) : Process where
  vars := ⟨false, 0⟩
  answer i := if i = k then none else some (i + 100)
  asked := 0
  live := {.fd (newFd 0 0)}
  faults := 0

end Axon.Device
