import Axon.Attachment
import Axon.Foundation.RowMajor

/-! # What a consumer reads of a tightly packed frame

A view carries the shape and the element type of its frame, but not its size: a consumer that walks the
view by its shape relies on `publish` having checked that the frame is that large. `tight_view_inside_iff`
says when it is. -/

namespace Axon

open Foundation

namespace TensorDescriptor

/-- The number of bytes of the elements, exactly. -/
def exactBytes (d : TensorDescriptor) : ℕ := (d.dims.map UInt32.toNat).prod * dtypeSize d.dtype

/-- The byte count does not leave the 64 bits the code counts in. -/
def NoOverflow (d : TensorDescriptor) : Prop := d.exactBytes < 2 ^ 64

/-- Whether the products overflow is a comparison of numbers. -/
instance (d : TensorDescriptor) : Decidable d.NoOverflow :=
  inferInstanceAs (Decidable (d.exactBytes < 2 ^ 64))

end TensorDescriptor

/-- The dimensions are those of the rows and the width. -/
theorem TensorDescriptor.prod_dims {d : TensorDescriptor} (hrank : 1 ≤ d.rank.toNat)
    (hmax : d.rank.toNat ≤ kMaxRank) : (d.dims.map UInt32.toNat).prod =
      ((d.shape.toList.take (d.rank.toNat - 1)).map UInt32.toNat).prod * d.width.toNat := by
  have hlt : d.rank.toNat - 1 < d.shape.toList.length := by
    rw [Vector.length_toList]
    omega
  have hsplit : d.dims = d.shape.toList.take (d.rank.toNat - 1) ++ [d.width] := by
    unfold TensorDescriptor.dims TensorDescriptor.width
    conv_lhs => rw [← Nat.sub_add_cancel hrank]
    rw [List.take_add_one, List.getD_eq_getElem?_getD, List.getElem?_eq_getElem hlt]
    rfl
  rw [hsplit, List.map_append, List.prod_append]
  simp

/-- **The sibling check**: `image_bytes`, which bounds the size of a frame with padded rows, counts the
bytes of a tightly packed one modulo `2 ^ 64`. -/
theorem toNat_imageBytes {d : TensorDescriptor} (hrank : 1 ≤ d.rank.toNat)
    (hmax : d.rank.toNat ≤ kMaxRank) (hpitch : d.rowPitch = 0) :
    (imageBytes d).toNat = d.exactBytes % 2 ^ 64 := by
  have hne : d.rank ≠ 0 := fun h0 => by simp [h0] at hrank
  have hle : 1 ≤ d.rank := UInt8.le_iff_toNat_le.mpr hrank
  have hrow : (rowStrideBytes d).toNat = d.width.toNat * dtypeSize d.dtype := by
    unfold rowStrideBytes
    rw [if_neg (by simp [hpitch]), if_pos hle, d.toNat_packed_row]
  unfold imageBytes TensorDescriptor.exactBytes
  rw [if_neg hne, UInt64.toNat_mul, toNat_foldl_mul, hrow, TensorDescriptor.prod_dims hrank hmax]
  simp [Nat.mul_assoc]

/-- Nothing overflows and the sibling check passes exactly when the bytes fit the frame's size. -/
theorem imageBytes_le_iff {d : TensorDescriptor} (hrank : 1 ≤ d.rank.toNat)
    (hmax : d.rank.toNat ≤ kMaxRank) (hpitch : d.rowPitch = 0) :
    d.NoOverflow ∧ imageBytes d ≤ d.size ↔ d.exactBytes ≤ d.size.toNat := by
  rw [UInt64.le_iff_toNat_le, toNat_imageBytes hrank hmax hpitch, TensorDescriptor.NoOverflow]
  have := d.size.toNat_lt
  constructor
  · rintro ⟨hlt, hle⟩
    rwa [Nat.mod_eq_of_lt hlt] at hle
  · intro hle
    have hlt : d.exactBytes < 2 ^ 64 := by omega
    exact ⟨hlt, by rwa [Nat.mod_eq_of_lt hlt]⟩

namespace TensorView

/-- The extents a consumer reads from a view: the first `rank` dimensions. -/
def shape (v : TensorView) : List ℕ := (v.dims.toList.take v.rank.toNat).map UInt32.toNat

/-- The offset in its buffer at which a consumer finds the element at `idx`, walking from the pointer `p`
by the view's shape and element type. -/
def elementOffset (v : TensorView) (p : PayloadPtr) (idx : List ℕ) : ℕ :=
  p.offset.toNat + rowMajor v.shape idx * dtypeSize v.dtype

/-- Every element that can be indexed lies within the frame's range. -/
def Inside (v : TensorView) (p : PayloadPtr) (d : TensorDescriptor) : Prop :=
  ∀ idx, IsIndex v.shape idx → d.offset.toNat ≤ v.elementOffset p idx ∧
    v.elementOffset p idx + dtypeSize v.dtype ≤ d.offset.toNat + d.size.toNat

end TensorView

/-- **When a tightly packed frame can be indexed safely**: the elements of a frame that `publish` accepted
without row pitch all lie in its range exactly when it would have passed the check made of padded frames,
`image_bytes` against `size`, and its byte count does not overflow. -/
theorem tight_view_inside_iff {pub pub' : TensorPublisher} {pool : TensorPool} {now now' : UInt64}
    {d : AcquiredDescriptor} {syncFd : Option Fd} {sub : TensorSubscriber} {retries : ℕ}
    {p : PayloadPtr} (hpub : pub.publish pool now d syncFd = some (.ok (), pub'))
    (hpitch : d.desc.rowPitch = 0)
    (hp : (sub.viewOf (pub.stamp pool now d) retries now').data = some p ∨
      (sub.viewOf (pub.stamp pool now d) retries now').devicePtr = some p) :
    (sub.viewOf (pub.stamp pool now d) retries now').Inside p (pub.stamp pool now d) ↔
      d.desc.NoOverflow ∧ imageBytes d.desc ≤ d.desc.size := by
  obtain ⟨hrank, hmax⟩ := rank_of_descriptorError (TensorPublisher.check_of_publish_ok hpub)
  rw [imageBytes_le_iff hrank hmax hpitch]
  have hoffset : p.offset = d.desc.offset := (TensorSubscriber.viewOf_ptr hp).1
  have hshape : (sub.viewOf (pub.stamp pool now d) retries now').shape = d.desc.dims.map UInt32.toNat := rfl
  have hdtype : (sub.viewOf (pub.stamp pool now d) retries now').dtype = d.desc.dtype := rfl
  unfold TensorDescriptor.exactBytes TensorView.Inside TensorView.elementOffset
  rw [← forall_element_le_iff, hshape, hdtype, hoffset]
  -- the stamp leaves offset and size alone
  refine forall₂_congr fun idx _ => ⟨fun h => ?_, fun h => ⟨Nat.le_add_right _ _, ?_⟩⟩
  · have := h.2
    change _ ≤ d.desc.offset.toNat + d.desc.size.toNat at this
    omega
  · change _ ≤ d.desc.offset.toNat + d.desc.size.toNat
    omega

/-- Sixteen bytes can be indexed safely. -/
theorem tight_view_inside_bytes : ∃ (s : Attachment) (pub' : TensorPublisher) (p : PayloadPtr),
    s.prod.pub.publish s.prod.pool 7 (.bytesFrame 16 .None) none = some (.ok (), pub') ∧
    (s.sub.viewOf (s.prod.pub.stamp s.prod.pool 7 (.bytesFrame 16 .None)) 0 9).Inside p
      (s.prod.pub.stamp s.prod.pool 7 (.bytesFrame 16 .None)) := by
  obtain ⟨prod, hprod⟩ : ∃ prod, Producer.create ⟨false, false⟩ (.oneBuffer 4096) .obliging = some prod :=
    ⟨_, rfl⟩
  obtain ⟨s, hs⟩ : ∃ s, (attachmentMachine ⟨false, false⟩).exec ⟨prod, .create⟩
      [.prod (.connect 0 64 true), .prod .handshake,
        .waitHandshake (.bundle 0 [] 1) (.obliging fun _ => true)] = some s := by
    cases hprod
    exact ⟨_, rfl⟩
  -- the frame is published into the mapped buffer
  obtain ⟨pub', hpub⟩ : ∃ pub', s.prod.pub.publish s.prod.pool 7 (.bytesFrame 16 .None) none =
      some (.ok (), pub') := by
    cases hprod
    cases hs
    exact ⟨_, rfl⟩
  obtain ⟨p, hp⟩ : ∃ p, (s.sub.viewOf (s.prod.pub.stamp s.prod.pool 7 (.bytesFrame 16 .None)) 0 9).data =
      some p := by
    cases hprod
    cases hs
    exact ⟨_, rfl⟩
  exact ⟨s, pub', p, hpub, (tight_view_inside_iff hpub rfl (.inl hp)).mpr ⟨by decide, by decide⟩⟩

/-- A frame of sixteen doubles that says it is one byte long. -/
def AcquiredDescriptor.shortFrame : AcquiredDescriptor where
  desc := { (default : TensorDescriptor) with
    rank := 1
    shape := #v[16, 0, 0, 0, 0, 0, 0, 0]
    dtype := .F64
    size := 1 }
  bufferIndex := 0
  hostView := none

/-- **A frame can be shorter than its shape**: `publish` accepts sixteen doubles in one byte, and the last
of them lies outside the range of the frame that the consumer is handed. -/
theorem short_frame_not_inside : ∃ (s : Attachment) (d : TensorDescriptor) (v : TensorView) (p : PayloadPtr),
    (attachmentMachine ⟨false, false⟩).Run [.prod (.connect 0 64 true), .prod .handshake,
      .waitHandshake (.bundle 0 [] 1) (.obliging fun _ => true), .prod (.publish 7 .shortFrame none)] s ∧
    s.prod.pub.published = [d] ∧ d.rowPitch = 0 ∧ (s.sub.latestView 1 (some d) 0 9).1 = some v ∧
    v.data = some p ∧ ¬ v.Inside p d := by
  obtain ⟨prod, hprod⟩ : ∃ prod, Producer.create ⟨false, false⟩ (.oneBuffer 4096) .obliging = some prod :=
    ⟨_, rfl⟩
  obtain ⟨s, hs⟩ : ∃ s, (attachmentMachine ⟨false, false⟩).exec ⟨prod, .create⟩
      [.prod (.connect 0 64 true), .prod .handshake,
        .waitHandshake (.bundle 0 [] 1) (.obliging fun _ => true),
        .prod (.publish 7 .shortFrame none)] = some s := by
    cases hprod
    exact ⟨_, rfl⟩
  have hrun := Machine.Run.of_exec (M := attachmentMachine ⟨false, false⟩)
    ⟨⟨_, _, _, hprod⟩, rfl⟩ hs
  obtain ⟨d, hd⟩ : ∃ d, s.prod.pub.published = [d] := by
    cases hprod
    cases hs
    exact ⟨_, rfl⟩
  obtain ⟨v, p, hv, hp⟩ : ∃ v p, (s.sub.latestView 1 (some d) 0 9).1 = some v ∧ v.data = some p := by
    cases hprod
    cases hs
    cases hd
    exact ⟨_, _, rfl, rfl⟩
  refine ⟨s, d, v, p, hrun, hd, ?_, hv, hp, fun hin => ?_⟩
  · cases hprod
    cases hs
    cases hd
    rfl
  · cases hprod
    cases hs
    cases hd
    cases hv
    cases hp
    -- the last element ends 128 bytes into the buffer
    have hlast := (hin [15] (.cons (by decide) .nil)).2
    exact absurd hlast (by decide)

end Axon
