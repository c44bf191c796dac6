import Axon.DescriptorCheck
import Axon.Footprint
import Axon.Foundation.Strided
import Mathlib.Algebra.BigOperators.Ring.List

/-! # NumPy arrays at the two ends

The Python bindings publish a NumPy array as a frame, and show a frame to Python as an array over the mapped
buffer or over its device pointer.

* **`PyFrame.describe`** is how `publish` and `publish_device` fill in a descriptor.
* **`PyView.ofView`** is what `latest_view` makes of a view, and **`PyView.Shows`** says which arrays it offers.
* **`PyFrame.within_iff`**: the elements shown lie in the frame exactly when what was put in is as long as its
  shape and type say. -/

namespace Axon

open Foundation

/-! ## Element types -/

/-- The array types that the bindings name. -/
inductive NumpyDtype
  | u1 | u2 | i2 | f2 | f4 | f8 | i4 | i8
  deriving DecidableEq, Repr

/-- Bytes per element. -/
def NumpyDtype.itemsize : NumpyDtype → ℕ
  | u1 => 1
  | u2 | i2 | f2 => 2
  | f4 | i4 => 4
  | f8 | i8 => 8

/-- The type as the array interface spells it, little-endian. -/
def NumpyDtype.typestr : NumpyDtype → String
  | u1 => "|u1"
  | u2 => "<u2"
  | i2 => "<i2"
  | f2 => "<f2"
  | f4 => "<f4"
  | f8 => "<f8"
  | i4 => "<i4"
  | i8 => "<i8"

/-- The spelling tells the type. -/
theorem NumpyDtype.typestr_injective : Function.Injective NumpyDtype.typestr := by
  intro a b h
  cases a <;> cases b <;> first | rfl | simp [typestr] at h

/-- **`numpy_dtype`**. There is no native `BF16`: it is surfaced as raw `uint16`. -/
def numpyDtype (t : DType) : NumpyDtype :=
  if t = .U8 then .u1
  else if t = .U16 then .u2
  else if t = .I16 then .i2
  else if t = .F16 then .f2
  else if t = .BF16 then .u2
  else if t = .F32 then .f4
  else if t = .F64 then .f8
  else if t = .I32 then .i4
  else if t = .I64 then .i8
  else .u1

/-- **`cai_typestr`**. -/
def caiTypestr (t : DType) : String :=
  if t = .U8 then "|u1"
  else if t = .U16 then "<u2"
  else if t = .I16 then "<i2"
  else if t = .F16 then "<f2"
  else if t = .BF16 then "<u2"
  else if t = .F32 then "<f4"
  else if t = .F64 then "<f8"
  else if t = .I32 then "<i4"
  else if t = .I64 then "<i8"
  else "|u1"

/-- The two tables name the same types. -/
theorem caiTypestr_eq (t : DType) : caiTypestr t = (numpyDtype t).typestr := by
  unfold caiTypestr numpyDtype
  split_ifs <;> rfl

/-- An element is as wide in NumPy as the size table says. -/
theorem itemsize_numpyDtype {t : DType} (ht : t.Known) : (numpyDtype t).itemsize = dtypeSize t := by
  obtain ⟨code⟩ := t
  have hcode : code = UInt8.ofNat code.toNat := UInt8.ofNat_toNat.symm
  have ht : code.toNat ≤ 8 := ht
  generalize code.toNat = n at ht hcode
  subst hcode
  interval_cases n <;> rfl

/-! ## The array that is published -/

/-- **`py::buffer_info`**: an array in the memory of its process, with the bytes it finds there. -/
structure BufferInfo where
  mem : ℤ → UInt8
  /-- The address of the first element. -/
  ptr : ℤ
  itemsize : ℕ
  shape : List ℕ
  strides : List ℤ
  /-- NumPy makes no larger array. -/
  countable : shape.prod * itemsize < 2 ^ 63
  strided : strides.length = shape.length

namespace BufferInfo

/-- `info.size * info.itemsize`. -/
def nbytes (arr : BufferInfo) : UInt64 := .ofNat arr.shape.prod * .ofNat arr.itemsize

/-- What `memcpy` finds at its byte `k`. -/
def byte (arr : BufferInfo) (k : ℕ) : UInt8 := arr.mem (arr.ptr + k)

/-- NumPy's `C_CONTIGUOUS`. -/
def CContiguous (arr : BufferInfo) : Prop := IsCContiguous arr.itemsize arr.shape arr.strides

/-- Whether an array is contiguous can be read off its strides. -/
instance (arr : BufferInfo) : Decidable arr.CContiguous := inferInstanceAs (Decidable (IsCContiguous _ _ _))

/-- An array has as many bytes as its elements. -/
theorem toNat_nbytes (arr : BufferInfo) : arr.nbytes.toNat = arr.shape.prod * arr.itemsize := by
  have h := arr.countable
  rw [nbytes, UInt64.toNat_mul, UInt64.toNat_ofNat', UInt64.toNat_ofNat', ← Nat.mul_mod]
  exact Nat.mod_eq_of_lt (by omega)

/-- An array that is not empty has no empty extent. -/
theorem pos_of_nbytes {arr : BufferInfo} (h : arr.nbytes ≠ 0) : ∀ n ∈ arr.shape, 0 < n := by
  intro n hn
  refine Nat.pos_of_ne_zero ?_
  rintro rfl
  refine h (UInt64.toNat_inj.mp ?_)
  rw [arr.toNat_nbytes, List.prod_eq_zero hn, Nat.zero_mul]
  rfl

/-- No extent is cut. -/
def ExtentsFit (arr : BufferInfo) : Prop := ∀ n ∈ arr.shape, n < 2 ^ 32

/-- Whether the extents fit is a comparison of numbers. -/
instance (arr : BufferInfo) : Decidable arr.ExtentsFit := inferInstanceAs (Decidable (∀ n ∈ _, _))

/-- Extents that fit survive the cast to 32 bits. -/
theorem ExtentsFit.shape_eq {arr : BufferInfo} (h : arr.ExtentsFit) :
    (arr.shape.map UInt32.ofNat).map UInt32.toNat = arr.shape := by
  rw [List.map_map]
  conv_rhs => rw [← List.map_id arr.shape]
  refine List.map_congr_left fun n hn => ?_
  rw [Function.comp_apply, UInt32.toNat_ofNat']
  exact Nat.mod_eq_of_lt (h n hn)

end BufferInfo

/-! ## What is published -/

/-- The fields that a Python producer fills in, with `rank` at most `kMaxRank`. -/
def TensorDescriptor.fillIn (d : TensorDescriptor) (shape : List UInt32) (dtype : DType) (size : UInt64) :
    TensorDescriptor :=
  { d with
    rank := .ofNat shape.length
    shape := .ofFn fun i => shape.getD i d.shape[i]
    dtype := dtype
    offset := 0
    size := size
    syncFenceKind := .None }

/-- The first `rank` entries of the shape are those filled in. -/
theorem TensorDescriptor.dims_fillIn {shape : List UInt32} (h : shape.length ≤ kMaxRank) (d : TensorDescriptor)
    (dtype : DType) (size : UInt64) : (d.fillIn shape dtype size).dims = shape := by
  have hrank : (d.fillIn shape dtype size).rank.toNat = shape.length := by
    show (UInt8.ofNat shape.length).toNat = _
    rw [UInt8.toNat_ofNat']
    exact Nat.mod_eq_of_lt (by unfold kMaxRank at h; omega)
  unfold TensorDescriptor.dims
  rw [hrank]
  apply List.ext_getElem
  · simpa using h
  · intro i hi hi'
    simp [fillIn, hi']

/-- **A frame as Python publishes it**: an array that is copied into the buffer, or a shape for what has been
written to the device buffer. -/
inductive PyFrame
  | host (arr : BufferInfo) (dtype : DType)
  | device (shape : List UInt32) (dtype : DType)

namespace PyFrame

/-- The element type that a frame is published with. -/
def dtype : PyFrame → DType
  | host _ dtype => dtype
  | device _ dtype => dtype

/-- The extents as the descriptor has them, cut to 32 bits. -/
def shape : PyFrame → List UInt32
  | host arr _ => arr.shape.map UInt32.ofNat
  | device shape _ => shape

/-- `nbytes`, and `count * dtype_size(dtype)` in 64 bits. -/
def size : PyFrame → UInt64
  | host arr _ => arr.nbytes
  | device shape dtype => shape.foldl (fun n s => n * s.toUInt64) 1 * .ofNat (dtypeSize dtype)

/-- The rank that both functions check. -/
def RankFits (f : PyFrame) : Prop := 1 ≤ f.shape.length ∧ f.shape.length ≤ kMaxRank

/-- Whether the rank fits is a comparison of numbers. -/
instance (f : PyFrame) : Decidable f.RankFits := inferInstanceAs (Decidable (_ ∧ _))

/-- What `publish` and `publish_device` fill in. -/
def describe (f : PyFrame) (d : TensorDescriptor) : TensorDescriptor := d.fillIn f.shape f.dtype f.size

/-- **The condition for a frame to be as long as its shape.** -/
def LongEnough : PyFrame → Prop
  | host arr dtype => dtypeSize dtype ≤ arr.itemsize
  | device shape dtype => (shape.map UInt32.toNat).prod * dtypeSize dtype < 2 ^ 64

/-- No extent is cut. -/
def ExtentsFit : PyFrame → Prop
  | host arr _ => arr.ExtentsFit
  | device _ _ => True

/-- **A frame that is not empty is as long as its shape exactly under the condition.** -/
theorem bytes_le_size_iff {f : PyFrame} (hfit : f.ExtentsFit) (hsize : f.size ≠ 0) :
    (f.shape.map UInt32.toNat).prod * dtypeSize f.dtype ≤ f.size.toNat ↔ f.LongEnough := by
  have hpos : 0 < f.size.toNat := Nat.pos_of_ne_zero fun h => hsize (UInt64.toNat_inj.mp h)
  -- an array's byte count does not wrap, that of a device buffer may
  cases f with
  | host arr dtype =>
      have hfit : arr.ExtentsFit := hfit
      show ((arr.shape.map UInt32.ofNat).map UInt32.toNat).prod * dtypeSize dtype ≤ arr.nbytes.toNat ↔ _
      have hpos : 0 < arr.nbytes.toNat := hpos
      rw [arr.toNat_nbytes] at hpos ⊢
      rw [hfit.shape_eq]
      exact Nat.mul_le_mul_left_iff (Nat.pos_of_mul_pos_right hpos)
  | device shape dtype =>
      -- the product is taken in 64 bits, so it is right when it fits
      have hcount : (PyFrame.device shape dtype).size.toNat =
          (shape.map UInt32.toNat).prod * dtypeSize dtype % 2 ^ 64 := by
        have hwidth := dtypeSize_le dtype
        rw [size, UInt64.toNat_mul, toNat_foldl_mul, UInt64.toNat_ofNat', UInt64.toNat_one, Nat.one_mul,
          ← Nat.mul_mod]
      rw [hcount]
      show (shape.map UInt32.toNat).prod * dtypeSize dtype ≤ _ ↔ _ < 2 ^ 64
      constructor
      · intro hle
        exact lt_of_le_of_lt hle (Nat.mod_lt _ (by simp))
      · intro hlt
        exact (Nat.mod_eq_of_lt hlt).ge

end PyFrame

/-! ## The array that is shown -/

/-- An array over the payload of a view. -/
structure NumpyArray where
  data : PayloadPtr
  dtype : NumpyDtype
  shape : List ℕ
  strides : List ℤ

namespace NumpyArray

/-- **`py::array`** with a base object, in row-major order. -/
def pyArray (dtype : NumpyDtype) (shape : List ℕ) (data : PayloadPtr) : NumpyArray :=
  ⟨data, dtype, shape, cStrides dtype.itemsize shape⟩

/-- The place of the byte `j` of the element at `idx`, from the array's pointer on. -/
def place (a : NumpyArray) (idx : List ℕ) (j : ℕ) : ℤ := Foundation.strided a.strides idx + j

/-- Every element lies in the first `n` bytes. -/
def Within (a : NumpyArray) (n : ℕ) : Prop :=
  ∀ idx, IsIndex a.shape idx → 0 ≤ a.place idx 0 ∧ a.place idx a.dtype.itemsize ≤ n

/-- **An element of an array made from a view** is at its row-major place. -/
theorem place_pyArray (dtype : NumpyDtype) {shape idx : List ℕ} (h : IsIndex shape idx) (data : PayloadPtr)
    (j : ℕ) : (pyArray dtype shape data).place idx j = rowMajor shape idx * dtype.itemsize + j :=
  congrArg (· + (j : ℤ)) (strided_cStrides dtype.itemsize h)

/-- An array in row-major order lies in as many bytes as its elements have. -/
theorem within_pyArray_iff {dtype : NumpyDtype} {shape : List ℕ} {data : PayloadPtr} {n : ℕ} :
    (pyArray dtype shape data).Within n ↔ shape.prod * dtype.itemsize ≤ n := by
  rw [← forall_element_le_iff]
  refine forall₂_congr fun idx hidx => ?_
  have hidx : IsIndex shape idx := hidx
  rw [place_pyArray dtype hidx, place_pyArray dtype hidx]
  show (0 : ℤ) ≤ _ ∧ _ ≤ (n : ℤ) ↔ _
  have hsame : (rowMajor shape idx * dtype.itemsize + dtype.itemsize : ℤ) ≤ n ↔
      rowMajor shape idx * dtype.itemsize + dtype.itemsize ≤ n := by
    exact_mod_cast Iff.rfl
  rw [← hsame]
  exact and_iff_right (by positivity)

end NumpyArray

/-- **The CUDA array interface**; no strides stand for row-major order. -/
structure CudaArrayInterface where
  shape : List ℕ
  typestr : String
  data : PayloadPtr
  readOnly : Bool
  strides : Option (List ℤ)
  version : ℕ

/-- The array that a framework makes of the interface. -/
def CudaArrayInterface.Describes (c : CudaArrayInterface) (a : NumpyArray) : Prop :=
  a.data = c.data ∧ a.dtype.typestr = c.typestr ∧ a.shape = c.shape ∧
    a.strides = c.strides.getD (cStrides a.dtype.itemsize c.shape)

/-- **A frame as Python sees it.** -/
structure PyView where
  seqno : SeqNo
  stalenessNs : UInt64
  seqlockRetries : ℕ
  dtype : DType
  shape : List UInt32
  /-- The host view; `none` is the empty array. -/
  data : Option NumpyArray
  devicePtr : Option PayloadPtr

namespace PyView

/-- **`latest_view`** of the bindings, given a view. The result is `none` where NumPy raises an error: it makes no
array whose bytes it cannot count. -/
def ofView (v : TensorView) : Option PyView :=
  let shape := v.dims.toList.take v.rank.toNat
  let count := shape.foldl (fun n s => n * s.toUInt64) (1 : UInt64)
  let npShape := shape.map UInt32.toNat
  let view (data : Option NumpyArray) : PyView :=
    ⟨v.seqno, v.stalenessNs, v.seqlockRetries, v.dtype, shape, data, v.devicePtr⟩
  match v.data with
  | none => some (view none)
  | some p =>
      if count = 0 then some (view none)
      else if npShape.prod * (numpyDtype v.dtype).itemsize < 2 ^ 63 then
        some (view (some (.pyArray (numpyDtype v.dtype) npShape p)))
      else none

/-- **`__cuda_array_interface__`**, of a device frame. It is not read-only: frameworks reject an interface that
is. -/
def cudaArrayInterface (pv : PyView) : Option CudaArrayInterface :=
  pv.devicePtr.map fun p =>
    { shape := pv.shape.map UInt32.toNat
      typestr := caiTypestr pv.dtype
      data := p
      readOnly := false
      strides := none
      version := 3 }

/-- The arrays over the payload that Python is shown. -/
def Shows (pv : PyView) (a : NumpyArray) : Prop :=
  pv.data = some a ∨ ∃ c, pv.cudaArrayInterface = some c ∧ c.Describes a

/-- **Every array shown** is the view's shape and type in row-major order over one of its pointers. -/
theorem array_of_shows {v : TensorView} {pv : PyView} (hpv : ofView v = some pv) {a : NumpyArray}
    (ha : pv.Shows a) : a.data ∈ v.data.toList ++ v.devicePtr.toList ∧
      a = .pyArray (numpyDtype v.dtype) v.shape a.data := by
  -- a view offers an array only over memory it has
  have hparts : pv.dtype = v.dtype ∧ pv.shape = v.dims.toList.take v.rank.toNat ∧
      pv.devicePtr = v.devicePtr ∧
      ∀ a, pv.data = some a → v.data = some a.data ∧ a = .pyArray (numpyDtype v.dtype) v.shape a.data := by
    unfold ofView at hpv
    dsimp only at hpv
    split at hpv
    · cases hpv
      exact ⟨rfl, rfl, rfl, nofun⟩
    · rename_i p hp
      split_ifs at hpv
      · cases hpv
        exact ⟨rfl, rfl, rfl, nofun⟩
      · cases hpv
        refine ⟨rfl, rfl, rfl, ?_⟩
        rintro a ⟨⟩
        exact ⟨hp, rfl⟩
  obtain ⟨hdtype, hshape, hdevice, hdata⟩ := hparts
  -- the array itself, or one made from the CUDA interface
  rcases ha with ha | ⟨c, hc, hptr, htype, hdims, hstrides⟩
  · obtain ⟨hp, harr⟩ := hdata a ha
    exact ⟨List.mem_append_left _ (Option.mem_toList.mpr hp), harr⟩
  · obtain ⟨p, hp, rfl⟩ := Option.map_eq_some_iff.mp hc
    rw [caiTypestr_eq, hdtype] at htype
    have htype := NumpyDtype.typestr_injective htype
    have hdims : a.shape = v.shape := hdims.trans (congrArg _ hshape)
    refine ⟨List.mem_append_right _ (Option.mem_toList.mpr ?_), ?_⟩
    · rw [hptr, ← hdevice]
      exact hp
    -- type, shape and strides of the interface are those of the view
    · obtain ⟨data, dtype, shape, strides⟩ := a
      obtain rfl : dtype = numpyDtype v.dtype := htype
      obtain rfl : shape = v.shape := hdims
      obtain rfl : strides = cStrides (numpyDtype v.dtype).itemsize v.shape :=
        hstrides.trans (congrArg (cStrides _) (congrArg _ hshape))
      rfl

end PyView

/-- **When an array can be indexed safely**: the arrays over a frame that is not empty lie within its bytes
exactly when what was published is long enough. -/
theorem PyFrame.within_iff {f : PyFrame} {v : TensorView} {pv : PyView} {a : NumpyArray} (hfit : f.ExtentsFit)
    (hsize : f.size ≠ 0) (hknown : f.dtype.Known) (hshape : v.shape = f.shape.map UInt32.toNat)
    (hdtype : v.dtype = f.dtype) (hpv : PyView.ofView v = some pv) (ha : pv.Shows a) :
    a.Within f.size.toNat ↔ f.LongEnough := by
  rw [← f.bytes_le_size_iff hfit hsize, (PyView.array_of_shows hpv ha).2, NumpyArray.within_pyArray_iff, hshape,
    hdtype, itemsize_numpyDtype hknown]

end Axon
