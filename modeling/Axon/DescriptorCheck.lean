import Axon.Descriptor

/-! # What the descriptor check decides

`descriptor_error` compares byte counts that it multiplies up in 64 bits. Beside it stands the meaning of
validity in unbounded integers (`TensorDescriptor.Publishable`), and `checkedExactly_iff` says on which
descriptors the two agree: on all but those whose padded footprint wraps past `2 ^ 64` to a count that looks
small enough. -/

namespace Axon

/-- The byte names an element type. -/
def DType.Known (t : DType) : Prop := t.code.toNat ≤ 8

/-- Whether a type is known is a comparison of its byte. -/
instance (t : DType) : Decidable t.Known := inferInstanceAs (Decidable (t.code.toNat ≤ 8))

/-- The bytes the size table knows are those that name an element type. -/
theorem dtypeSize_ne_zero_iff (t : DType) : dtypeSize t ≠ 0 ↔ t.Known := by
  obtain ⟨code⟩ := t
  constructor
  -- a size that is not zero comes from one of the branches, each of which names known types
  · intro h
    unfold dtypeSize at h
    split_ifs at h with h1 h2 h4 h8
    · rw [h1]
      decide
    · rcases h2 with h | h | h | h <;> rw [h] <;> decide
    · rcases h4 with h | h <;> rw [h] <;> decide
    · rcases h8 with h | h <;> rw [h] <;> decide
    · exact absurd rfl h
  -- the known types are the nine numbers from 0 to 8
  · intro (h : code.toNat ≤ 8)
    have hcode : code = UInt8.ofNat code.toNat := UInt8.ofNat_toNat.symm
    generalize code.toNat = n at h hcode
    subst hcode
    interval_cases n <;> decide

namespace TensorDescriptor

/-- The number of rows, exactly: the product of all dimensions but the last. -/
def rows (d : TensorDescriptor) : ℕ := ((d.shape.toList.take (d.rank.toNat - 1)).map UInt32.toNat).prod

/-- Bytes of a tightly packed row, exactly. -/
def packedRow (d : TensorDescriptor) : ℕ := d.width.toNat * dtypeSize d.dtype

/-- Bytes of all rows with their padding, exactly. -/
def paddedBytes (d : TensorDescriptor) : ℕ := d.rows * d.rowPitch.toNat

/-- Rank, element type and size are well formed. -/
def WellFormed (d : TensorDescriptor) : Prop :=
  (1 ≤ d.rank.toNat ∧ d.rank.toNat ≤ kMaxRank) ∧ d.dtype.Known ∧ 0 < d.size.toNat

/-- The row pitch, when there is one, holds a packed row, and the size covers the padded rows. -/
def PitchFits (d : TensorDescriptor) : Prop :=
  d.rowPitch ≠ 0 → d.packedRow ≤ d.rowPitch.toNat ∧ d.paddedBytes ≤ d.size.toNat

/-- **Validity in unbounded integers** against a buffer of `n` bytes. -/
def Publishable (d : TensorDescriptor) (n : UInt64) : Prop := d.WellFormed ∧ d.FitsIn n ∧ d.PitchFits

/-- The check gives every descriptor the answer that validity in unbounded integers calls for: none to a
publishable one, `EMSGSIZE` to a well-formed one out of range, `EINVAL` to every other. -/
def CheckedExactly (d : TensorDescriptor) (n : UInt64) : Prop :=
  (descriptorError d n = none ↔ d.Publishable n) ∧
  (descriptorError d n = some .EMSGSIZE ↔ d.WellFormed ∧ ¬ d.FitsIn n) ∧
  (descriptorError d n = some .EINVAL ↔ ¬ d.Publishable n ∧ ¬ (d.WellFormed ∧ ¬ d.FitsIn n))

/-- The padded footprint leaves 64 bits and comes back at no more than the frame's size. -/
def FootprintWraps (d : TensorDescriptor) : Prop :=
  2 ^ 64 ≤ d.paddedBytes ∧ d.paddedBytes % 2 ^ 64 ≤ d.size.toNat

/-- Whether a descriptor is well formed can be read off it. -/
instance (d : TensorDescriptor) : Decidable d.WellFormed :=
  inferInstanceAs (Decidable ((_ ∧ _) ∧ _ ∧ _))
/-- Whether it fits is a comparison of sizes. -/
instance (d : TensorDescriptor) (n : UInt64) : Decidable (d.FitsIn n) := inferInstanceAs (Decidable (_ ≤ _))
/-- Whether its pitch fits can be read off it. -/
instance (d : TensorDescriptor) : Decidable d.PitchFits := inferInstanceAs (Decidable (_ → _ ∧ _))
/-- Whether it may be published can be read off it. -/
instance (d : TensorDescriptor) (n : UInt64) : Decidable (d.Publishable n) :=
  inferInstanceAs (Decidable (_ ∧ _ ∧ _))
/-- Whether the product wraps is a comparison of sizes. -/
instance (d : TensorDescriptor) : Decidable d.FootprintWraps := inferInstanceAs (Decidable (_ ∧ _))

/-! ## The 64-bit byte counts -/

/-- The footprint of padded rows is counted modulo `2 ^ 64`. -/
theorem toNat_imageBytes_padded {d : TensorDescriptor} (hrank : 1 ≤ d.rank.toNat)
    (hpitch : d.rowPitch ≠ 0) : (imageBytes d).toNat = d.paddedBytes % 2 ^ 64 := by
  have hne : d.rank ≠ 0 := by
    intro h0
    simp [h0] at hrank
  unfold imageBytes rowStrideBytes paddedBytes rows
  rw [if_neg hne, if_pos hpitch, UInt64.toNat_mul, toNat_foldl_mul, UInt32.toNat_toUInt64]
  simp

/-! ## The checks in order -/

/-- The three field checks pass exactly on well-formed descriptors. -/
theorem wellFormed_iff (d : TensorDescriptor) :
    d.WellFormed ↔ ¬ (d.rank = 0 ∨ kMaxRank < d.rank.toNat) ∧ ¬ dtypeSize d.dtype = 0 ∧ ¬ d.size = 0 := by
  have hrank : d.rank = 0 ↔ d.rank.toNat = 0 := UInt8.toNat_inj.symm
  have hsize : d.size = 0 ↔ d.size.toNat = 0 := UInt64.toNat_inj.symm
  rw [WellFormed, ← dtypeSize_ne_zero_iff, hrank, hsize]
  omega

/-- The row check of the code: a pitch that holds a packed row, and a size that covers the footprint as
counted in 64 bits. -/
def PitchPasses (d : TensorDescriptor) : Prop :=
  d.rowPitch ≠ 0 → d.packedRow ≤ d.rowPitch.toNat ∧ d.paddedBytes % 2 ^ 64 ≤ d.size.toNat

/-- **The check, by cases**: what `descriptor_error` answers, in the order it looks. -/
theorem descriptorError_cases (d : TensorDescriptor) (n : UInt64) :
    ¬ d.WellFormed ∧ descriptorError d n = some .EINVAL ∨
    (d.WellFormed ∧ ¬ d.FitsIn n) ∧ descriptorError d n = some .EMSGSIZE ∨
    (d.WellFormed ∧ d.FitsIn n) ∧ ¬ d.PitchPasses ∧ descriptorError d n = some .EINVAL ∨
    (d.WellFormed ∧ d.FitsIn n) ∧ d.PitchPasses ∧ descriptorError d n = none := by
  by_cases hwf : d.WellFormed
  swap
  -- refused by one of the first three checks
  · refine .inl ⟨hwf, ?_⟩
    rw [wellFormed_iff] at hwf
    unfold descriptorError
    split_ifs <;> first | rfl | exact absurd ⟨‹_›, ‹_›, ‹_›⟩ hwf
  obtain ⟨hrank, hdtype, hsize⟩ := d.wellFormed_iff.mp hwf
  by_cases hfit : d.FitsIn n
  swap
  -- refused by the bound on the offset or on the end
  · refine .inr (.inl ⟨⟨hwf, hfit⟩, ?_⟩)
    rw [fitsIn_iff] at hfit
    unfold descriptorError
    rw [if_neg hrank, if_neg hdtype, if_neg hsize]
    split_ifs <;> first | rfl | exact absurd ⟨‹_›, ‹_›⟩ hfit
  refine .inr (.inr ?_)
  have hone : 1 ≤ d.rank := UInt8.le_iff_toNat_le.mpr hwf.1.1
  obtain ⟨hoff, hend⟩ := (d.fitsIn_iff n).mp hfit
  -- what is left is the check of the row pitch
  have hcheck : descriptorError d n =
      if d.rowPitch ≠ 0 then
        if d.rowPitch.toNat < d.packedRow then some .EINVAL
        else if d.size.toNat < (imageBytes d).toNat then some .EINVAL
        else none
      else none := by
    unfold descriptorError
    rw [if_neg hrank, if_neg hdtype, if_neg hsize, if_neg hoff, if_neg hend]
    simp only [hone, and_true, UInt64.lt_iff_toNat_lt, toNat_packed_row, UInt32.toNat_toUInt64]
    rfl
  rw [hcheck]
  by_cases hpitch : d.rowPitch = 0
  · exact .inr ⟨⟨hwf, hfit⟩, fun h => absurd hpitch h, if_neg (not_not.mpr hpitch)⟩
  rw [if_pos hpitch, toNat_imageBytes_padded hwf.1.1 hpitch]
  by_cases hpasses : d.PitchPasses
  · obtain ⟨hpacked, hbytes⟩ := hpasses hpitch
    exact .inr ⟨⟨hwf, hfit⟩, hpasses, by rw [if_neg (not_lt.mpr hpacked), if_neg (not_lt.mpr hbytes)]⟩
  · refine .inl ⟨⟨hwf, hfit⟩, hpasses, ?_⟩
    split_ifs with hpacked hbytes
    · rfl
    · rfl
    · exact absurd (fun _ => ⟨not_lt.mp hpacked, not_lt.mp hbytes⟩) hpasses

/-- The row check of the code accepts a pitch that does not fit in one case: the footprint wraps. -/
theorem pitchPasses_iff (d : TensorDescriptor) :
    d.PitchPasses ↔ d.PitchFits ∨
      d.rowPitch ≠ 0 ∧ d.packedRow ≤ d.rowPitch.toNat ∧ d.FootprintWraps := by
  have hsize := d.size.toNat_lt
  unfold PitchPasses PitchFits FootprintWraps
  by_cases hpitch : d.rowPitch = 0
  · simp [hpitch]
  · simp only [ne_eq, hpitch, not_false_eq_true, true_imp_iff, true_and]
    omega

/-- A footprint that wraps is larger than any size. -/
theorem FootprintWraps.not_pitchFits {d : TensorDescriptor} (hwrap : d.FootprintWraps)
    (hpitch : d.rowPitch ≠ 0) : ¬ d.PitchFits := by
  intro hfits
  have hbytes := (hfits hpitch).2
  have hsize := d.size.toNat_lt
  have := hwrap.1
  omega

/-- **When the check is exact**: a descriptor gets the answer that validity in unbounded integers calls for,
unless its fields, its range and its pitch are all in order and its padded footprint wraps past `2 ^ 64` to no
more than its size. -/
theorem checkedExactly_iff (d : TensorDescriptor) (n : UInt64) :
    d.CheckedExactly n ↔ ¬ (d.WellFormed ∧ d.FitsIn n ∧ d.rowPitch ≠ 0 ∧
      d.packedRow ≤ d.rowPitch.toNat ∧ d.FootprintWraps) := by
  unfold CheckedExactly Publishable
  rcases d.descriptorError_cases n with ⟨hwf, h⟩ | ⟨⟨hwf, hfit⟩, h⟩ | ⟨⟨hwf, hfit⟩, hpass, h⟩ |
    ⟨⟨hwf, hfit⟩, hpass, h⟩
  · simp [h, hwf]
  · simp [h, hwf, hfit]
  · -- rejected for its pitch: rightly so, and nothing wrapped to a small count
    rw [pitchPasses_iff, not_or] at hpass
    simp [h, hwf, hfit, hpass.1]
    tauto
  · -- accepted: rightly so unless the footprint wrapped
    rcases d.pitchPasses_iff.mp hpass with hfits | ⟨hpitch, hpacked, hwrap⟩
    · have hno : ¬ (d.rowPitch ≠ 0 ∧ d.packedRow ≤ d.rowPitch.toNat ∧ d.FootprintWraps) :=
        fun hw => hw.2.2.not_pitchFits hw.1 hfits
      simp only [h, hwf, hfit, hfits, true_and]
      simpa using hno
    · simp [h, hwf, hfit, hwrap.not_pitchFits hpitch, hpitch, hpacked, hwrap]

/-- A frame of `2 ^ 62` rows of one byte, four bytes apart, that says it is one byte long. -/
def hugeFrame : TensorDescriptor where
  boHandle := 0
  seqno := 0
  poolGeneration := 0
  captureTsNs := 0
  producerPublishTsNs := 0
  shape := #v[2 ^ 31, 2 ^ 31, 1, 0, 0, 0, 0, 0]
  offset := 0
  size := 1
  syncFenceToken := 0
  rowPitch := 4
  depthScale := 0
  invalidValue := 0
  intrFx := 0
  intrFy := 0
  intrCx := 0
  intrCy := 0
  intrRefWidth := 0
  intrRefHeight := 0
  rank := 3
  dtype := .U8
  syncFenceKind := .None
  sampleUnits := ⟨0⟩
  captureClock := ⟨0⟩
  layout := ⟨0⟩
  reserved := #v[0, 0, 0, 0, 0, 0]

/-- **A huge frame is let through**: the check finds nothing wrong with `2 ^ 64` bytes of rows in one byte of
a buffer of 4096, and the answer is not the one validity calls for. -/
theorem hugeFrame_not_checkedExactly : descriptorError hugeFrame 4096 = none ∧
    ¬ hugeFrame.Publishable 4096 ∧ ¬ hugeFrame.CheckedExactly 4096 := by
  have hnone : descriptorError hugeFrame 4096 = none := by decide
  have hnot : ¬ hugeFrame.Publishable 4096 := by decide
  exact ⟨hnone, hnot, fun h => hnot (h.1.mp hnone)⟩

end TensorDescriptor

end Axon
