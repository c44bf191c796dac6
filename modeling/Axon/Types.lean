import Mathlib.Data.UInt
import Mathlib.Tactic.Common

/-! # Common types and enums

The scalar types, the byte-sized enumerations and the error codes every other module uses.

A C++ `enum class E : std::uint8_t` may hold any byte, also one that names no enumerator, and the
code checks for that where it matters (`dtype_size` of an unknown type is `0`). The enumerations that
travel inside a descriptor are therefore modelled as a byte with named values. -/

namespace Axon

/-- `std::uint64_t` id of a buffer inside its pool, chosen by the producer. -/
abbrev BoHandle := ℕ

/-- `std::uint64_t` counter of the pool's buffer sets, read as a natural number: it is bumped once per
reallocation and never wraps in practice. -/
abbrev PoolGeneration := ℕ

/-- `std::uint64_t` counter of the accepted frames of one publisher, read as a natural number: it is
bumped once per accepted frame and never wraps in practice. -/
abbrev SeqNo := ℕ

/-- Largest tensor rank the wire format carries. -/
abbrev kMaxRank : ℕ := 8

/-- Wire version shared by every publisher and subscriber of this build. -/
def kWireVersion : UInt32 := 4

/-! ## Enumerations carried by a descriptor -/

/-- Element type of a tensor. -/
structure DType where
  /-- The enumerator's byte. -/
  code : UInt8
  deriving DecidableEq, Inhabited, Repr

namespace DType

/-- Unsigned bytes. -/
def U8 : DType := ⟨0⟩
/-- 16-bit unsigned integers. -/
def U16 : DType := ⟨1⟩
/-- 16-bit signed integers. -/
def I16 : DType := ⟨2⟩
/-- Half precision. -/
def F16 : DType := ⟨3⟩
/-- Brain floating point. -/
def BF16 : DType := ⟨4⟩
/-- Single precision. -/
def F32 : DType := ⟨5⟩
/-- Double precision. -/
def F64 : DType := ⟨6⟩
/-- 32-bit signed integers. -/
def I32 : DType := ⟨7⟩
/-- 64-bit signed integers. -/
def I64 : DType := ⟨8⟩

end DType

/-- Bytes per element, `0` for a byte that names no element type. -/
def dtypeSize (t : DType) : ℕ :=
  if t = .U8 then 1
  else if t = .U16 ∨ t = .I16 ∨ t = .F16 ∨ t = .BF16 then 2
  else if t = .F32 ∨ t = .I32 then 4
  else if t = .F64 ∨ t = .I64 then 8
  else 0

/-- No element is wider than eight bytes. -/
theorem dtypeSize_le (t : DType) : dtypeSize t ≤ 8 := by
  unfold dtypeSize
  split_ifs <;> omega

/-- How the producer's writes are ordered before the consumer's reads. -/
structure SyncFenceKind where
  /-- The enumerator's byte. -/
  code : UInt8
  deriving DecidableEq, Inhabited, Repr

namespace SyncFenceKind

/-- The caller's responsibility. -/
def None : SyncFenceKind := ⟨0⟩
/-- The kernel orders the work through `dma_resv`. -/
def DmaResvImplicit : SyncFenceKind := ⟨1⟩
/-- A `sync_file` FD travels through the sidecar. -/
def SyncFileViaSidecar : SyncFenceKind := ⟨2⟩

end SyncFenceKind

/-- Physical meaning of a sample. -/
structure SampleUnits where
  /-- The enumerator's byte. -/
  code : UInt8
  deriving DecidableEq, Inhabited, Repr

/-- Clock domain of a capture timestamp. -/
structure CaptureClock where
  /-- The enumerator's byte. -/
  code : UInt8
  deriving DecidableEq, Inhabited, Repr

/-- Memory layout of a tensor in its buffer. -/
structure TensorLayout where
  /-- The enumerator's byte. -/
  code : UInt8
  deriving DecidableEq, Inhabited, Repr

/-! ## Pool backends and fallback policies -/

/-- Where the buffers of a pool come from. -/
inductive PoolBackend
  | V4L2
  | UDMABUF
  | Custom
  | Accelerator
  | NvBufSurface
  deriving DecidableEq, Inhabited, Repr

/-- The byte that names a backend in the pool handshake. -/
def PoolBackend.toByte : PoolBackend → UInt8
  | V4L2 => 0
  | UDMABUF => 1
  | Custom => 2
  | Accelerator => 3
  | NvBufSurface => 4

/-- The byte tells the backend. -/
theorem PoolBackend.toByte_injective : Function.Injective PoolBackend.toByte := by
  intro b b' h
  cases b <;> cases b' <;> first | rfl | cases h

/-- What `latest_view` hands out when it has no fresh frame. -/
inductive FallbackPolicy
  | LastKnownGood
  | ZeroCommand
  | UserCallback
  | AbortLoop
  deriving DecidableEq, Inhabited, Repr

/-- Compile-time options that change which backends exist. -/
structure BuildConfig where
  /-- `AXON_WITH_CUDA`. -/
  cuda : Bool
  /-- `AXON_ENABLE_JETSON`. -/
  jetson : Bool
  deriving DecidableEq, Repr

/-! ## Error codes -/

/-- The `errno` values the code sets or passes on. -/
inductive Errno
  | EINVAL
  | EMSGSIZE
  | E2BIG
  | EPROTO
  | EOVERFLOW
  | ETIMEDOUT
  | ENOTSUP
  | ENOSYS
  | ENOSPC
  | EPIPE
  /-- Any other error a system call reports. -/
  | other
  deriving DecidableEq, Inhabited, Repr

end Axon
