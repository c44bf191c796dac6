import Axon.Types
import Mathlib.Tactic.IntervalCases

/-! # The tensor descriptor and its validation

`TensorDescriptor` is the fixed-size record the metadata plane carries. It is 144 bytes, i.e. 18
words of 64 bits; the metadata slot copies it word by word, so the layout into words is part of the
model (`TensorDescriptor.words`). The second half of the file is `descriptor_util.h`: the byte
counts of a frame, in 64-bit arithmetic as the code computes them, and `descriptor_error`. -/

namespace Axon

/-- **Payload of the metadata plane.** A `float` is kept as its 32-bit pattern. -/
structure TensorDescriptor where
  boHandle : BoHandle
  seqno : SeqNo
  poolGeneration : PoolGeneration
  captureTsNs : UInt64
  producerPublishTsNs : UInt64
  shape : Vector UInt32 kMaxRank
  offset : UInt64
  size : UInt64
  syncFenceToken : UInt64
  rowPitch : UInt32
  depthScale : BitVec 32
  invalidValue : UInt32
  intrFx : BitVec 32
  intrFy : BitVec 32
  intrCx : BitVec 32
  intrCy : BitVec 32
  intrRefWidth : UInt32
  intrRefHeight : UInt32
  rank : UInt8
  dtype : DType
  syncFenceKind : SyncFenceKind
  sampleUnits : SampleUnits
  captureClock : CaptureClock
  layout : TensorLayout
  reserved : Vector UInt8 6
  deriving DecidableEq, Inhabited, Repr

namespace TensorDescriptor

/-! ## The layout into words -/

/-- The eighteen 64-bit words of a descriptor, in memory order, named after the fields in them. -/
inductive WordIdx
  | boHandle
  | seqno
  | poolGeneration
  | captureTsNs
  | producerPublishTsNs
  | shape_0_1
  | shape_2_3
  | shape_4_5
  | shape_6_7
  | offset
  | size
  | syncFenceToken
  | rowPitchDepthScale
  | invalidValueIntrFx
  | intrFyIntrCx
  | intrCyIntrRefWidth
  | intrRefHeightKinds
  | clockLayoutReserved
  deriving DecidableEq, Repr

/-- All eighteen word indices, in memory order. -/
def WordIdx.all : List WordIdx :=
  [.boHandle, .seqno, .poolGeneration, .captureTsNs, .producerPublishTsNs, .shape_0_1,
    .shape_2_3, .shape_4_5, .shape_6_7, .offset, .size, .syncFenceToken, .rowPitchDepthScale,
    .invalidValueIntrFx, .intrFyIntrCx, .intrCyIntrRefWidth, .intrRefHeightKinds,
    .clockLayoutReserved]

/-- Every word is listed. -/
@[simp] theorem WordIdx.mem_all (i : WordIdx) : i ∈ WordIdx.all := by
  cases i <;> simp [WordIdx.all]

/-- The value of each word: the fields that share it. -/
def Word : WordIdx → Type
  | .boHandle => BoHandle
  | .seqno => SeqNo
  | .poolGeneration => PoolGeneration
  | .captureTsNs => UInt64
  | .producerPublishTsNs => UInt64
  | .shape_0_1 => UInt32 × UInt32
  | .shape_2_3 => UInt32 × UInt32
  | .shape_4_5 => UInt32 × UInt32
  | .shape_6_7 => UInt32 × UInt32
  | .offset => UInt64
  | .size => UInt64
  | .syncFenceToken => UInt64
  | .rowPitchDepthScale => UInt32 × BitVec 32
  | .invalidValueIntrFx => UInt32 × BitVec 32
  | .intrFyIntrCx => BitVec 32 × BitVec 32
  | .intrCyIntrRefWidth => BitVec 32 × UInt32
  | .intrRefHeightKinds => UInt32 × UInt8 × DType × SyncFenceKind × SampleUnits
  | .clockLayoutReserved => CaptureClock × TensorLayout × Vector UInt8 6

/-- The descriptor as the words the metadata slot stores. -/
def words (d : TensorDescriptor) : ∀ i, Word i
  | .boHandle => d.boHandle
  | .seqno => d.seqno
  | .poolGeneration => d.poolGeneration
  | .captureTsNs => d.captureTsNs
  | .producerPublishTsNs => d.producerPublishTsNs
  | .shape_0_1 => (d.shape[0], d.shape[1])
  | .shape_2_3 => (d.shape[2], d.shape[3])
  | .shape_4_5 => (d.shape[4], d.shape[5])
  | .shape_6_7 => (d.shape[6], d.shape[7])
  | .offset => d.offset
  | .size => d.size
  | .syncFenceToken => d.syncFenceToken
  | .rowPitchDepthScale => (d.rowPitch, d.depthScale)
  | .invalidValueIntrFx => (d.invalidValue, d.intrFx)
  | .intrFyIntrCx => (d.intrFy, d.intrCx)
  | .intrCyIntrRefWidth => (d.intrCy, d.intrRefWidth)
  | .intrRefHeightKinds =>
      (d.intrRefHeight, d.rank, d.dtype, d.syncFenceKind, d.sampleUnits)
  | .clockLayoutReserved => (d.captureClock, d.layout, d.reserved)

/-- The descriptor read back from its words. -/
def ofWords (w : ∀ i, Word i) : TensorDescriptor where
  boHandle := w .boHandle
  seqno := w .seqno
  poolGeneration := w .poolGeneration
  captureTsNs := w .captureTsNs
  producerPublishTsNs := w .producerPublishTsNs
  shape := #v[(w .shape_0_1).1, (w .shape_0_1).2, (w .shape_2_3).1, (w .shape_2_3).2,
    (w .shape_4_5).1, (w .shape_4_5).2, (w .shape_6_7).1, (w .shape_6_7).2]
  offset := w .offset
  size := w .size
  syncFenceToken := w .syncFenceToken
  rowPitch := (w .rowPitchDepthScale).1
  depthScale := (w .rowPitchDepthScale).2
  invalidValue := (w .invalidValueIntrFx).1
  intrFx := (w .invalidValueIntrFx).2
  intrFy := (w .intrFyIntrCx).1
  intrCx := (w .intrFyIntrCx).2
  intrCy := (w .intrCyIntrRefWidth).1
  intrRefWidth := (w .intrCyIntrRefWidth).2
  intrRefHeight := (w .intrRefHeightKinds).1
  rank := (w .intrRefHeightKinds).2.1
  dtype := (w .intrRefHeightKinds).2.2.1
  syncFenceKind := (w .intrRefHeightKinds).2.2.2.1
  sampleUnits := (w .intrRefHeightKinds).2.2.2.2
  captureClock := (w .clockLayoutReserved).1
  layout := (w .clockLayoutReserved).2.1
  reserved := (w .clockLayoutReserved).2.2

/-- The words determine the descriptor. -/
@[simp] theorem ofWords_words (d : TensorDescriptor) : ofWords d.words = d := by
  have hshape : #v[d.shape[0], d.shape[1], d.shape[2], d.shape[3], d.shape[4], d.shape[5],
      d.shape[6], d.shape[7]] = d.shape := by
    ext i hi
    interval_cases i <;> rfl
  simp only [ofWords, words, hshape]

/-! ## Byte counts -/

/-- The first `rank` entries of the shape, at most `kMaxRank` of them. -/
def dims (d : TensorDescriptor) : List UInt32 := d.shape.toList.take d.rank.toNat

end TensorDescriptor

/-- `shape[rank - 1]`, the width of a row. -/
def TensorDescriptor.width (d : TensorDescriptor) : UInt32 := d.shape.toList.getD (d.rank.toNat - 1) 0

/-- Bytes of one row: `row_pitch` when set, else `width × dtype_size`. -/
def rowStrideBytes (d : TensorDescriptor) : UInt64 :=
  if d.rowPitch ≠ 0 then d.rowPitch.toUInt64
  else if 1 ≤ d.rank then d.width.toUInt64 * UInt64.ofNat (dtypeSize d.dtype)
  else 0

/-- Physical footprint with row padding, `rows × row_stride`, modulo `2 ^ 64`; the rows are all
dimensions but the last. -/
def imageBytes (d : TensorDescriptor) : UInt64 :=
  if d.rank = 0 then 0
  else (d.shape.toList.take (d.rank.toNat - 1)).foldl (fun n s => n * s.toUInt64) 1 *
    rowStrideBytes d

/-- Multiplying dimensions up in 64 bits gives their product modulo `2 ^ 64`. -/
theorem toNat_foldl_mul (n : UInt64) (l : List UInt32) :
    (l.foldl (fun n s => n * s.toUInt64) n).toNat = n.toNat * (l.map UInt32.toNat).prod % 2 ^ 64 := by
  induction l generalizing n with
  | nil =>
      rw [List.foldl_nil, List.map_nil, List.prod_nil, Nat.mul_one]
      exact (Nat.mod_eq_of_lt n.toNat_lt).symm
  | cons s l ih =>
      rw [List.foldl_cons, ih, List.map_cons, List.prod_cons, UInt64.toNat_mul, UInt32.toNat_toUInt64,
        Nat.mod_mul_mod, Nat.mul_assoc]

/-- The bytes of a tightly packed row never leave 64 bits: the width has 32 and an element at most eight
bytes. -/
theorem TensorDescriptor.toNat_packed_row (d : TensorDescriptor) :
    (d.width.toUInt64 * UInt64.ofNat (dtypeSize d.dtype)).toNat = d.width.toNat * dtypeSize d.dtype := by
  have hes : (UInt64.ofNat (dtypeSize d.dtype)).toNat = dtypeSize d.dtype :=
    UInt64.toNat_ofNat_of_lt' ((dtypeSize_le _).trans_lt (by decide))
  rw [UInt64.toNat_mul, UInt32.toNat_toUInt64, hes]
  refine Nat.mod_eq_of_lt ?_
  have := Nat.mul_le_mul (Nat.le_of_lt_succ d.width.toNat_lt) (dtypeSize_le d.dtype)
  omega

/-- **Structural validity** of a descriptor against a buffer of `buffer_size` bytes: `none` when it
can be published, else the error that names the first check it fails. -/
def descriptorError (d : TensorDescriptor) (bufferSize : UInt64) : Option Errno :=
  if d.rank = 0 ∨ kMaxRank < d.rank.toNat then some .EINVAL
  else if dtypeSize d.dtype = 0 then some .EINVAL
  else if d.size = 0 then some .EINVAL
  else if bufferSize < d.offset then some .EMSGSIZE
  else if bufferSize - d.offset < d.size then some .EMSGSIZE
  else if d.rowPitch ≠ 0 ∧ 1 ≤ d.rank then
    if d.rowPitch.toUInt64 < d.width.toUInt64 * UInt64.ofNat (dtypeSize d.dtype) then some .EINVAL
    else if d.size < imageBytes d then some .EINVAL
    else none
  else none

/-! ## The range check -/

/-- The range `[offset, offset + size)` lies inside a buffer of `n` bytes. -/
def TensorDescriptor.FitsIn (d : TensorDescriptor) (n : UInt64) : Prop :=
  d.offset.toNat + d.size.toNat ≤ n.toNat

/-- The two comparisons of the range check together say that the range fits, without overflow. -/
theorem TensorDescriptor.fitsIn_iff (d : TensorDescriptor) (n : UInt64) :
    d.FitsIn n ↔ ¬ n < d.offset ∧ ¬ n - d.offset < d.size := by
  unfold FitsIn
  by_cases hoff : n < d.offset
  · have := UInt64.lt_iff_toNat_lt.mp hoff
    exact iff_of_false (by omega) fun h => h.1 hoff
  · have hle : d.offset ≤ n := UInt64.le_iff_toNat_le.mpr
      (not_lt.mp fun h => hoff (UInt64.lt_iff_toNat_lt.mpr h))
    have := UInt64.le_iff_toNat_le.mp hle
    rw [UInt64.lt_iff_toNat_lt (a := n - d.offset), UInt64.toNat_sub_of_le _ _ hle]
    exact ⟨fun h => ⟨hoff, by omega⟩, fun h => by omega⟩

/-- A descriptor that passes the check fits the buffer. -/
theorem fitsIn_of_descriptorError {d : TensorDescriptor} {n : UInt64}
    (h : descriptorError d n = none) : d.FitsIn n := by
  rw [d.fitsIn_iff]
  unfold descriptorError at h
  split_ifs at h with h1 h2 h3 h4 h5 <;> exact ⟨h4, h5⟩

/-- `EMSGSIZE` is the answer to a descriptor that does not fit the buffer, and to no other. -/
theorem not_fitsIn_of_descriptorError {d : TensorDescriptor} {n : UInt64}
    (h : descriptorError d n = some .EMSGSIZE) : ¬ d.FitsIn n := by
  rw [d.fitsIn_iff]
  unfold descriptorError at h
  split_ifs at h with h1 h2 h3 h4 h5
  all_goals first
    | exact fun hfit => hfit.1 h4
    | exact fun hfit => hfit.2 h5
    | cases h

/-- A descriptor that passes the check has a rank the wire format carries. -/
theorem rank_of_descriptorError {d : TensorDescriptor} {n : UInt64}
    (h : descriptorError d n = none) : 1 ≤ d.rank.toNat ∧ d.rank.toNat ≤ kMaxRank := by
  have hrank : ¬ (d.rank = 0 ∨ kMaxRank < d.rank.toNat) := by
    intro hbad
    rw [descriptorError, if_pos hbad] at h
    cases h
  push Not at hrank
  refine ⟨Nat.pos_of_ne_zero fun h0 => hrank.1 (UInt8.toNat_inj.mp h0), hrank.2⟩

end Axon
