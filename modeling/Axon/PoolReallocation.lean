import Axon.PoolFds

/-! # Reallocating a pool, all or nothing

`retire_and_reallocate` frees the old buffers before it asks for new ones, and reports nothing. A pool is
**complete** when it has all its buffers, each of the size it states and no smaller than was asked for.

* **`le_pageRoundUp_iff`**: the sizes that the rounding to whole pages does not wrap.
* **`BufferAlloc.Yields`** tells an allocation by the answers of the system alone, and
  `allocLoop_yields_iff` lifts that to the loop over a pool's buffers.
* **`reallocation_all_or_nothing_iff`**: when a reallocation is all or nothing. -/

namespace Axon

open Foundation

/-! ## Rounding to whole pages -/

/-- The size of a page; `4096` when the system does not tell. -/
def Sys.pageSize (s : Sys) : UInt64 := if s.page ≠ 0 then s.page else 4096

/-- Pages are as large as a power of two. -/
def Sys.PowerPages (s : Sys) : Prop := ∃ k < 64, s.pageSize.toNat = 2 ^ k

/-- Later calls leave the size of a page as it is. -/
theorem Sys.PowerPages.of_page {s s' : Sys} (h : s.PowerPages) (hpage : s'.page = s.page) : s'.PowerPages := by
  unfold Sys.PowerPages Sys.pageSize
  rw [hpage]
  exact h

/-- Rounding `requested` bytes up to whole pages stays below `2^64`. -/
def Sys.RoundsUp (s : Sys) (requested : UInt64) : Prop :=
  requested.toNat + (s.pageSize.toNat - 1) < 2 ^ 64

/-- Whether a request can be rounded up is decided by one addition. -/
instance (s : Sys) (requested : UInt64) : Decidable (s.RoundsUp requested) :=
  inferInstanceAs (Decidable (_ < _))

/-- Clearing the bits below a power of two rounds down to a multiple of it. -/
theorem toNat_and_not_mask {x mask : UInt64} {k : ℕ} (hk : k < 64) (hmask : mask.toNat = 2 ^ k - 1) :
    (x &&& ~~~mask).toNat = x.toNat / 2 ^ k * 2 ^ k := by
  have hnot : (~~~mask).toNat = 2 ^ 64 - (2 ^ k - 1 + 1) := by
    rw [UInt64.toNat_not, hmask, Nat.sub_sub, Nat.add_comm]
    rfl
  have hlt : 2 ^ k - 1 < 2 ^ 64 :=
    (Nat.sub_le _ _).trans_lt (Nat.pow_lt_pow_right (by decide) hk)
  rw [UInt64.toNat_and, hnot]
  refine Nat.eq_of_testBit_eq fun i => ?_
  rw [Nat.testBit_and, Nat.testBit_two_pow_sub_succ hlt, Nat.testBit_two_pow_sub_one,
    Nat.testBit_mul_two_pow, Nat.testBit_div_two_pow]
  by_cases hki : k ≤ i
  · rw [Nat.sub_add_cancel hki]
    by_cases hi : i < 64
    · simp [hki, hi]
    · -- there is no bit above the word
      have hbit : x.toNat.testBit i = false :=
        Nat.testBit_lt_two_pow (x.toNat_lt.trans_le (Nat.pow_le_pow_right (by decide) (not_lt.mp hi)))
      simp [hbit]
  · simp [hki, not_le.mp hki]

/-- **Which sizes are rounded up**: the others come out as zero. -/
theorem le_pageRoundUp_iff {s : Sys} (hpages : s.PowerPages) (n : UInt64) :
    n ≤ pageRoundUp s n ↔ s.RoundsUp n := by
  obtain ⟨k, hk, hpage⟩ := hpages
  have hpos : 0 < 2 ^ k := Nat.two_pow_pos k
  have hpow : 2 ^ k < 2 ^ 64 := Nat.pow_lt_pow_right (by decide) hk
  have hn := n.toNat_lt
  have hmask : (s.pageSize - 1).toNat = 2 ^ k - 1 := by
    rw [UInt64.toNat_sub, hpage, UInt64.toNat_one]
    omega
  have hsum : (n + s.pageSize - 1).toNat = (n.toNat + (2 ^ k - 1)) % 2 ^ 64 := by
    rw [UInt64.toNat_sub, UInt64.toNat_add, hpage, UInt64.toNat_one]
    omega
  have hround : (pageRoundUp s n).toNat = (n.toNat + (2 ^ k - 1)) % 2 ^ 64 / 2 ^ k * 2 ^ k := by
    rw [← hsum]
    exact toNat_and_not_mask hk hmask
  rw [UInt64.le_iff_toNat_le, hround, Sys.RoundsUp, hpage]
  constructor
  · intro hle
    by_contra hge
    -- a sum that wraps is less than a page
    have hwrap : (n.toNat + (2 ^ k - 1)) % 2 ^ 64 < 2 ^ k := by omega
    rw [Nat.div_eq_of_lt hwrap] at hle
    omega
  · intro hlt
    have hdiv := Nat.div_add_mod (n.toNat + (2 ^ k - 1)) (2 ^ k)
    have hmod := Nat.mod_lt (n.toNat + (2 ^ k - 1)) hpos
    rw [Nat.mod_eq_of_lt hlt, Nat.mul_comm]
    omega

/-- One byte below `2^64` rounds up to nothing. -/
example : pageRoundUp .obliging (.ofNat (2 ^ 64 - 1)) = 0 := by decide +kernel

/-! ## What the system is going to answer -/

namespace Sys

/-- The answers still to come. -/
def upcoming (s : Sys) (i : ℕ) : Except Errno ℕ := s.answer (s.calls + i)

/-- **`k` calls later.** -/
structure CallsOn (s s' : Sys) (k : ℕ) : Prop where
  calls : s'.calls = s.calls + k
  answer : s'.answer = s.answer
  page : s'.page = s.page

namespace CallsOn

variable {s s' s'' : Sys} {k k' : ℕ}

/-- No call yet. -/
theorem refl (s : Sys) : s.CallsOn s 0 := ⟨rfl, rfl, rfl⟩

/-- A call that can fail is one call more. -/
theorem ask (s : Sys) : s.CallsOn s.ask.2 1 := ⟨rfl, rfl, rfl⟩

/-- Opening an FD takes no answer. -/
theorem openFd (s : Sys) (bytes : ℕ) : s.CallsOn (s.openFd bytes).2 0 := ⟨rfl, rfl, rfl⟩

/-- Neither does closing one. -/
theorem close (h : s.CallsOn s' k) (fd : Fd) : s.CallsOn (s'.close fd) k := ⟨h.calls, h.answer, h.page⟩

/-- Calls one after the other add up. -/
theorem trans (h : s.CallsOn s' k) (h' : s'.CallsOn s'' k') : s.CallsOn s'' (k + k') where
  calls := by rw [h'.calls, h.calls, Nat.add_assoc]
  answer := h'.answer.trans h.answer
  page := h'.page.trans h.page

/-- The answers still to come begin behind those that have been given. -/
theorem upcoming (h : s.CallsOn s' k) (i : ℕ) : s'.upcoming i = s.upcoming (k + i) := by
  unfold Sys.upcoming
  rw [h.answer, h.calls, Nat.add_assoc]

/-- Without a call, all answers are still to come. -/
theorem upcoming_eq (h : s.CallsOn s' 0) : s'.upcoming = s.upcoming := by
  funext i
  rw [h.upcoming, Nat.zero_add]

/-- Rounding gives the same in every later state. -/
theorem pageRoundUp (h : s.CallsOn s' k) (n : UInt64) : pageRoundUp s' n = pageRoundUp s n := by
  unfold Axon.pageRoundUp
  rw [h.page]

end CallsOn

/-- A call takes the next answer. -/
theorem ask_eq (s : Sys) : s.ask = (s.upcoming 0, s.ask.2) := rfl

end Sys

/-- A call that succeeds. -/
def Granted (r : Except Errno ℕ) : Prop := r.isOk = true

/-- An answer tells whether the call has succeeded. -/
instance (r : Except Errno ℕ) : Decidable (Granted r) := inferInstanceAs (Decidable (_ = _))

/-- A number is a success. -/
@[simp] theorem granted_ok (n : ℕ) : Granted (.ok n) := rfl

/-- An error code is none. -/
@[simp] theorem not_granted_error (e : Errno) : ¬ Granted (.error e) := nofun

/-- What a call has answered, error codes dropped. -/
theorem toOption_eq_some_iff {r : Except Errno ℕ} {n : ℕ} : r.toOption = some n ↔ r = .ok n := by
  cases r <;> simp [Except.toOption]

/-- What an allocation yields, read off the answers to come: the bytes of a buffer and the size reported for
it, or nothing. -/
abbrev Grant := (ℕ → Except Errno ℕ) → Option (ℕ × UInt64)

/-- **An allocation yields** what `grant` says, in `k` calls. -/
def BufferAlloc.Yields (alloc : BufferAlloc) (k : ℕ) (grant : Grant) : Prop :=
  ∀ s : Sys, (∃ b size s', grant s.upcoming = some (b.shareFd.file.bytes, size) ∧
      alloc s = (some (b, size), s') ∧ s.CallsOn s' k) ∨
    (grant s.upcoming = none ∧ ∃ s', alloc s = (none, s'))

/-- The three calls behind a sealed memfd. -/
def MemfdGranted (u : ℕ → Except Errno ℕ) : Prop := ∀ i < 3, Granted (u i)

/-- Three answers decide about a memfd. -/
instance (u : ℕ → Except Errno ℕ) : Decidable (MemfdGranted u) := inferInstanceAs (Decidable (∀ i < 3, _))

/-- **`make_sealed_memfd`** makes a file of the size asked for when its three calls are granted, and nothing
otherwise. -/
theorem makeSealedMemfd_cases (s : Sys) (size : UInt64) :
    (MemfdGranted s.upcoming ∧ ∃ fd s', makeSealedMemfd s size = (some fd, s') ∧
      fd.file.bytes = size.toNat ∧ s.CallsOn s' 3) ∨
    (¬ MemfdGranted s.upcoming ∧ ∃ s', makeSealedMemfd s size = (none, s')) := by
  -- creating the file, sizing it and sealing it
  have h₁ : s.CallsOn (s.ask.2.openFd size.toNat).2 1 := (Sys.CallsOn.ask s).trans (.openFd _ _)
  have h₂ := h₁.trans (.ask _)
  have hrefused : ∀ {i : ℕ} {e : Errno}, i < 3 → s.upcoming i = .error e → ¬ MemfdGranted s.upcoming := by
    intro i e hi he hall
    have hgranted := hall i hi
    rw [he] at hgranted
    exact not_granted_error e hgranted
  unfold makeSealedMemfd
  rw [s.ask_eq]
  cases hcreate : s.upcoming 0 with
  | error e => exact .inr ⟨hrefused (by decide) hcreate, _, rfl⟩
  | ok n₀ =>
      dsimp only
      rw [Sys.ask_eq, h₁.upcoming]
      cases hsize : s.upcoming 1 with
      | error e => exact .inr ⟨hrefused (by decide) hsize, _, rfl⟩
      | ok n₁ =>
          dsimp only
          rw [Sys.ask_eq, h₂.upcoming]
          cases hseal : s.upcoming 2 with
          | error e => exact .inr ⟨hrefused (by decide) hseal, _, rfl⟩
          | ok n₂ =>
              refine .inl ⟨?_, _, _, rfl, rfl, h₂.trans (.ask _)⟩
              intro i hi
              interval_cases i
              · rw [hcreate]
                rfl
              · rw [hsize]
                rfl
              · rw [hseal]
                rfl

/-- Custom: nothing but the memfd. -/
def customGrant (size : UInt64) : Grant := fun u => if MemfdGranted u then some (size.toNat, size) else none

/-- A Custom buffer takes three calls. -/
theorem allocCustom_yields (size : UInt64) : (allocCustom size).Yields 3 (customGrant size) := by
  intro s
  unfold allocCustom customGrant
  obtain ⟨hmemfd, fd, s', heq, hbytes, hcalls⟩ | ⟨hmemfd, s', heq⟩ := makeSealedMemfd_cases s size
  · rw [heq, if_pos hmemfd, ← hbytes]
    exact .inl ⟨_, _, _, rfl, rfl, hcalls⟩
  · rw [heq, if_neg hmemfd]
    exact .inr ⟨rfl, _, rfl⟩

/-- UDMABUF: one call more, for the dma-buf on the memfd. -/
def udmabufGrant (size : UInt64) : Grant := fun u =>
  if MemfdGranted u ∧ Granted (u 3) then some (size.toNat, size) else none

/-- A udmabuf takes four calls. -/
theorem allocUdmabuf_yields (size : UInt64) : (allocUdmabuf size).Yields 4 (udmabufGrant size) := by
  intro s
  unfold allocUdmabuf udmabufGrant
  obtain ⟨hmemfd, fd, s', heq, -, hcalls⟩ | ⟨hmemfd, s', heq⟩ := makeSealedMemfd_cases s size
  · rw [heq]
    dsimp only
    rw [s'.ask_eq, hcalls.upcoming]
    cases s.upcoming (3 + 0) with
    | error e =>
        rw [if_neg fun h => not_granted_error e h.2]
        exact .inr ⟨rfl, _, rfl⟩
    | ok n =>
        rw [if_pos ⟨hmemfd, granted_ok n⟩]
        exact .inl ⟨_, _, _, rfl, rfl, (hcalls.trans (.ask s')).trans (.openFd _ _)⟩
  · rw [heq, if_neg fun h => hmemfd h.1]
    exact .inr ⟨rfl, _, rfl⟩

/-- V4L2: the driver says how large its buffer is. -/
def v4l2Grant (size : UInt64) : Grant := fun u => (u 0).toOption.map fun bytes => (bytes, size)

/-- A capture buffer takes one call. -/
theorem allocV4l2_yields (size : UInt64) : (allocV4l2 size).Yields 1 (v4l2Grant size) := by
  intro s
  unfold allocV4l2 v4l2Grant
  rw [s.ask_eq]
  cases s.upcoming 0 with
  | error e => exact .inr ⟨rfl, _, rfl⟩
  | ok bytes => exact .inl ⟨_, _, _, rfl, rfl, (Sys.CallsOn.ask s).trans (.openFd _ _)⟩

/-- Accelerator: whole granules of the device. -/
def acceleratorGrant (size : UInt64) : Grant := fun u =>
  (u 0).toOption.bind fun gran =>
    if size ≠ 0 ∧ alignedSize (.ofNat gran) size ≠ 0 ∧ Granted (u 1) then
      some ((alignedSize (.ofNat gran) size).toNat, size)
    else none

/-- A device buffer takes two calls. -/
theorem allocAccelerator_yields (size : UInt64) :
    (allocAccelerator size).Yields 2 (acceleratorGrant size) := by
  intro s
  unfold allocAccelerator acceleratorGrant
  rw [s.ask_eq]
  -- refused at once, at the granularity, or at the address
  split_ifs with hzero
  · refine .inr ⟨?_, _, rfl⟩
    simp [hzero]
  · cases s.upcoming 0 with
    | error e => exact .inr ⟨rfl, _, rfl⟩
    | ok gran =>
        dsimp only [Except.toOption, Option.bind_some]
        by_cases hsz : alignedSize (.ofNat gran) size = 0
        · rw [if_pos hsz]
          exact .inr ⟨if_neg fun h => h.2.1 hsz, _, rfl⟩
        · rw [if_neg hsz, Sys.ask_eq, (Sys.CallsOn.ask s).upcoming]
          cases s.upcoming (1 + 0) with
          | error e =>
              rw [if_neg fun h => not_granted_error e h.2.2]
              exact .inr ⟨rfl, _, rfl⟩
          -- both answers were given, and the buffer is of the aligned size
          | ok ptr =>
              rw [if_pos ⟨hzero, hsz, granted_ok ptr⟩]
              exact .inl ⟨_, _, _, rfl, rfl, ((Sys.CallsOn.ask s).trans (.ask _)).trans (.openFd _ _)⟩

/-- NvBufSurface: the system says how large its surface is, and what its pitch is. -/
def nvbufGrant : Grant := fun u => (u 0).toOption.map fun bytes => (bytes, .ofNat bytes)

/-- A surface takes two calls; that for its pitch cannot fail. -/
theorem allocNvbufsurface_yields : BufferAlloc.Yields allocNvbufsurface 2 nvbufGrant := by
  intro s
  unfold allocNvbufsurface nvbufGrant
  rw [s.ask_eq]
  cases s.upcoming 0 with
  | error e => exact .inr ⟨rfl, _, rfl⟩
  | ok bytes =>
      exact .inl ⟨_, _, _, rfl, rfl, ((Sys.CallsOn.ask s).trans (.ask _)).trans (.openFd _ _)⟩

/-- **The allocation loop makes buffers of `bytes` bytes** exactly when every buffer is granted as such. -/
theorem allocLoop_yields_iff {alloc : BufferAlloc} {k : ℕ} {grant : Grant} (halloc : alloc.Yields k grant)
    (bytes n : ℕ) (bs : List PoolBuffer) (maxSize : UInt64) (s : Sys) :
    ((allocLoop alloc n bs maxSize s).1 = true ∧
      ∀ b ∈ (allocLoop alloc n bs maxSize s).2.1, b.shareFd.file.bytes = bytes) ↔
    (∀ b ∈ bs, b.shareFd.file.bytes = bytes) ∧
      ∀ i < n, ∃ size, grant (fun j => s.upcoming (k * i + j)) = some (bytes, size) := by
  induction n generalizing bs maxSize s with
  | zero => simp [allocLoop]
  | succ n ih =>
      have hfirst : (fun j => s.upcoming (k * 0 + j)) = s.upcoming := by simp
      unfold allocLoop
      obtain ⟨b, size, s', hgrant, heq, hcalls⟩ | ⟨hgrant, s', heq⟩ := halloc s
      · rw [heq]
        dsimp only
        -- the answers of the later passes are those behind the first `k`
        have hrest : ∀ i, (fun j => s'.upcoming (k * i + j)) = fun j => s.upcoming (k * (i + 1) + j) := by
          intro i
          funext j
          rw [hcalls.upcoming, Nat.mul_succ, ← Nat.add_assoc, Nat.add_comm k]
        rw [ih, Nat.forall_lt_succ_left, hfirst, hgrant]
        simp only [hrest, List.forall_mem_append, List.forall_mem_singleton, Option.some.injEq, Prod.mk.injEq,
          exists_and_left, exists_eq', and_true, and_assoc]
      -- the first pass fails, and with it the loop
      · rw [heq]
        refine iff_of_false (fun h => Bool.false_ne_true h.1) fun h => ?_
        obtain ⟨size, hsize⟩ := h.2 0 (Nat.succ_pos n)
        rw [hfirst, hgrant] at hsize
        cases hsize

/-- Where all sizes reported are equal, the loop ends with that size. -/
theorem allocLoop_max_size {alloc : BufferAlloc} {k : ℕ} {grant : Grant} (halloc : alloc.Yields k grant)
    {size : UInt64} {n : ℕ} (bs : List PoolBuffer) {maxSize : UInt64} {s : Sys}
    (hgrant : ∀ i < n, ∃ bytes, grant (fun j => s.upcoming (k * i + j)) = some (bytes, size))
    (hmax : maxSize ≤ size) : s.CallsOn (allocLoop alloc n bs maxSize s).2.2.2 (k * n) ∧
      (0 < n ∨ maxSize = size → (allocLoop alloc n bs maxSize s).2.2.1 = size) := by
  induction n generalizing bs maxSize s with
  | zero => exact ⟨.refl s, fun h => h.resolve_left (lt_irrefl 0)⟩
  | succ n ih =>
      have hfirst : (fun j => s.upcoming (k * 0 + j)) = s.upcoming := by simp
      obtain ⟨bytes, hfirst'⟩ := hgrant 0 (Nat.succ_pos n)
      rw [hfirst] at hfirst'
      unfold allocLoop
      obtain ⟨b, size', s', hgrant', heq, hcalls⟩ | ⟨hgrant', -⟩ := halloc s
      · rw [hgrant'] at hfirst'
        cases hfirst'
        rw [heq]
        dsimp only
        -- every later pass is granted the same size
        have hrest : ∀ i < n, ∃ bytes, grant (fun j => s'.upcoming (k * i + j)) = some (bytes, size) := by
          intro i hi
          obtain ⟨bytes, hb⟩ := hgrant (i + 1) (Nat.succ_lt_succ hi)
          refine ⟨bytes, hb ▸ congrArg grant ?_⟩
          funext j
          rw [hcalls.upcoming, Nat.mul_succ, ← Nat.add_assoc, Nat.add_comm k]
        -- so the maximum stays at this size from the first pass on
        have hmax' : (if maxSize < size then size else maxSize) = size := by
          split_ifs with hlt
          · rfl
          · exact UInt64.le_antisymm hmax (UInt64.not_lt.mp hlt)
        obtain ⟨hcalls', hsize⟩ := ih (bs ++ [b]) hrest (UInt64.le_of_eq hmax')
        rw [Nat.mul_succ, Nat.add_comm]
        exact ⟨hcalls.trans hcalls', fun _ => hsize (.inr hmax')⟩
      · rw [hgrant'] at hfirst'
        cases hfirst'

/-- The import parameters are there when every one of the calls for them is granted. -/
theorem nvbufImportBlob_iff (bs : List PoolBuffer) (s : Sys) :
    (nvbufImportBlob bs s).1.isSome = true ↔ ∀ i < bs.length, Granted (s.upcoming i) := by
  induction bs generalizing s with
  | nil => simp [nvbufImportBlob]
  | cons b bs ih =>
      -- the later answers, counted from the second surface on
      have hrest : ∀ i, s.ask.2.upcoming i = s.upcoming (i + 1) := by
        intro i
        rw [(Sys.CallsOn.ask s).upcoming, Nat.add_comm]
      rw [List.length_cons, Nat.forall_lt_succ_left, nvbufImportBlob, s.ask_eq]
      cases s.upcoming 0 with
      | error e => simp
      | ok n =>
          simp only [granted_ok, true_and, ← hrest, ← ih]
          split
          · rename_i heq
            rw [heq]
          · rename_i heq
            rw [heq]
            rfl

/-- **The system supplies the buffers** of a pool: the calls that an allocation makes are granted, the request
can be rounded up, and where the system decides on the sizes they come out as the pool states them. -/
def TensorPoolConfig.Supplied (cfg : TensorPoolConfig) (build : BuildConfig) (s : Sys) (requested : UInt64) :
    Prop :=
  match cfg.backend with
  | .Custom =>
      s.RoundsUp requested ∧ ∀ i < cfg.nBuffers, MemfdGranted fun j => s.upcoming (3 * i + j)
  | .UDMABUF =>
      s.RoundsUp requested ∧ Granted (s.upcoming 0) ∧ ∀ i < cfg.nBuffers,
        MemfdGranted (fun j => s.upcoming (1 + (4 * i + j))) ∧ Granted (s.upcoming (1 + (4 * i + 3)))
  | .V4L2 =>
      s.RoundsUp requested ∧ cfg.v4l2Device ≠ none ∧ Granted (s.upcoming 0) ∧
        (∃ count, s.upcoming 1 = .ok count ∧ cfg.nBuffers ≤ count) ∧
        ∀ i < cfg.nBuffers, s.upcoming (2 + i) = .ok (pageRoundUp s requested).toNat
  | .Accelerator =>
      s.RoundsUp requested ∧ build.cuda = true ∧ pageRoundUp s requested ≠ 0 ∧
        ∀ i < cfg.nBuffers, (∃ gran, s.upcoming (2 * i) = .ok gran ∧
          alignedSize (.ofNat gran) (pageRoundUp s requested) = pageRoundUp s requested) ∧
          Granted (s.upcoming (2 * i + 1))
  | .NvBufSurface =>
      build.jetson = true ∧
        (∃ bytes : UInt64, requested ≤ bytes ∧ pageRoundUp s bytes = bytes ∧
          ∀ i < cfg.nBuffers, s.upcoming (2 * i) = .ok bytes.toNat) ∧
        ∀ i < cfg.nBuffers, Granted (s.upcoming (2 * cfg.nBuffers + i))

namespace TensorPool

/-- An allocation that succeeded with buffers of `bytes` bytes. -/
def MadeOf (bytes : ℕ) (r : Bool × TensorPool × Sys) : Prop :=
  r.1 = true ∧ ∀ b ∈ r.2.1.buffers, b.shareFd.file.bytes = bytes

/-- **A pool is made of buffers of `bytes` bytes** exactly when each of its allocations yields one. -/
theorem allocateWith_madeOf_iff {p : TensorPool} (hbuffers : p.buffers = []) {alloc : BufferAlloc} {k : ℕ}
    {grant : Grant} (halloc : alloc.Yields k grant) (bytes : ℕ) (s : Sys) :
    MadeOf bytes (p.allocateWith s alloc) ↔
      ∀ i < p.cfg.nBuffers, ∃ size, grant (fun j => s.upcoming (k * i + j)) = some (bytes, size) := by
  refine (allocLoop_yields_iff halloc bytes p.cfg.nBuffers p.buffers 0 s).trans ?_
  rw [hbuffers]
  exact and_iff_right fun b hb => absurd hb List.not_mem_nil

/-! ## The backends -/

/-- **Custom**: all memfds have to be granted. -/
theorem allocateCustom_iff {p : TensorPool} (hbuffers : p.buffers = []) (s : Sys) :
    MadeOf p.bufferSize.toNat (p.allocateCustom s) ↔
      ∀ i < p.cfg.nBuffers, MemfdGranted fun j => s.upcoming (3 * i + j) := by
  refine (allocateWith_madeOf_iff hbuffers (allocCustom_yields _) _ s).trans (forall₂_congr fun i _ => ?_)
  unfold customGrant
  split_ifs with h <;> simp [h]

/-- **UDMABUF**: the device has to open, and every memfd and dma-buf has to be granted. -/
theorem allocateUdmabuf_iff {p : TensorPool} (hbuffers : p.buffers = []) (s : Sys) :
    MadeOf p.bufferSize.toNat (p.allocateUdmabuf s) ↔ Granted (s.upcoming 0) ∧ ∀ i < p.cfg.nBuffers,
      MemfdGranted (fun j => s.upcoming (1 + (4 * i + j))) ∧ Granted (s.upcoming (1 + (4 * i + 3))) := by
  unfold allocateUdmabuf
  rw [s.ask_eq]
  cases s.upcoming 0 with
  | error e => exact iff_of_false (fun h => Bool.false_ne_true h.1) fun h => not_granted_error e h.1
  | ok n =>
      have hopened : s.CallsOn (s.ask.2.openFd 0).2 1 := (Sys.CallsOn.ask s).trans (.openFd _ _)
      refine (allocateWith_madeOf_iff hbuffers (allocUdmabuf_yields _) _ _).trans ?_
      rw [and_iff_right (granted_ok n)]
      refine forall₂_congr fun i _ => ?_
      simp only [hopened.upcoming]
      unfold udmabufGrant
      split_ifs with h <;> simp [h]

/-- **V4L2**: the device has to be named, to open, to grant enough buffers and to export each at the size of the pool.
-/
theorem allocateV4l2_iff {p : TensorPool} (hbuffers : p.buffers = []) (s : Sys) :
    MadeOf p.bufferSize.toNat (p.allocateV4l2 s) ↔ p.cfg.v4l2Device ≠ none ∧ Granted (s.upcoming 0) ∧
      (∃ count, s.upcoming 1 = .ok count ∧ p.cfg.nBuffers ≤ count) ∧
      ∀ i < p.cfg.nBuffers, s.upcoming (2 + i) = .ok p.bufferSize.toNat := by
  unfold allocateV4l2
  split_ifs with hdevice
  -- without a device path nothing is opened
  · exact iff_of_false (fun h => Bool.false_ne_true h.1) fun h => h.1 hdevice
  rw [and_iff_right hdevice, s.ask_eq]
  cases s.upcoming 0 with
  | error e => exact iff_of_false (fun h => Bool.false_ne_true h.1) fun h => not_granted_error e h.1
  | ok n =>
      -- opening the device was one call, and the request for buffers is the next
      have hopened : s.CallsOn (s.ask.2.openFd 0).2 1 := (Sys.CallsOn.ask s).trans (.openFd _ _)
      dsimp only
      rw [and_iff_right (granted_ok n), Sys.ask_eq, hopened.upcoming]
      cases s.upcoming (1 + 0) with
      | error e =>
          refine iff_of_false (fun h => Bool.false_ne_true h.1) ?_
          rintro ⟨⟨count, ⟨⟩, -⟩, -⟩
      | ok count =>
          dsimp only
          split_ifs with hlt
          · refine iff_of_false (fun h => Bool.false_ne_true h.1) ?_
            rintro ⟨⟨_, ⟨⟩, hle⟩, -⟩
            exact hle.not_gt hlt
          -- the driver has made as many buffers as asked for, and exports one for each
          · refine (allocateWith_madeOf_iff (p := { p with v4l2Fd := some (s.ask.2.openFd 0).1 }) hbuffers
              (allocV4l2_yields _) _ _).trans ?_
            rw [and_iff_right ⟨count, rfl, not_lt.mp hlt⟩]
            refine forall₂_congr fun i _ => ?_
            simp only [(hopened.trans (.ask _)).upcoming]
            unfold v4l2Grant
            rw [Nat.add_zero, Nat.one_mul, ← toOption_eq_some_iff]
            cases (s.upcoming (2 + i)).toOption <;> simp

/-- **Accelerator**: CUDA has to be there, and each buffer has to be granted on a granularity that keeps its size. -/
theorem allocateAccelerator_iff {p : TensorPool} (hbuffers : p.buffers = []) (hn : 0 < p.cfg.nBuffers)
    (s : Sys) : MadeOf p.bufferSize.toNat (p.allocateAccelerator s) ↔
      p.build.cuda = true ∧ p.bufferSize ≠ 0 ∧ ∀ i < p.cfg.nBuffers,
        (∃ gran, s.upcoming (2 * i) = .ok gran ∧
          alignedSize (.ofNat gran) p.bufferSize = p.bufferSize) ∧ Granted (s.upcoming (2 * i + 1)) := by
  -- what one pass needs: a size that is not zero, aligned to itself, and memory of it
  have heach : ∀ i, (∃ size, acceleratorGrant p.bufferSize (fun j => s.upcoming (2 * i + j)) =
        some (p.bufferSize.toNat, size)) ↔
      p.bufferSize ≠ 0 ∧ (∃ gran, s.upcoming (2 * i) = .ok gran ∧
        alignedSize (.ofNat gran) p.bufferSize = p.bufferSize) ∧ Granted (s.upcoming (2 * i + 1)) := by
    intro i
    unfold acceleratorGrant
    simp only [Option.bind_eq_some_iff, toOption_eq_some_iff, Option.ite_none_right_eq_some, Option.some.injEq,
      Prod.mk.injEq, UInt64.toNat_inj, Nat.add_zero]
    constructor
    · rintro ⟨size, gran, hgran, ⟨hsize, -, hcreate⟩, heq, -⟩
      exact ⟨hsize, ⟨gran, hgran, heq⟩, hcreate⟩
    · rintro ⟨hsize, ⟨gran, hgran, heq⟩, hcreate⟩
      exact ⟨_, gran, hgran, ⟨hsize, heq.symm ▸ hsize, hcreate⟩, heq, rfl⟩
  unfold allocateAccelerator
  split_ifs with hcuda
  · rw [and_iff_right hcuda]
    refine (allocateWith_madeOf_iff hbuffers (allocAccelerator_yields _) _ s).trans ?_
    simp only [heach]
    constructor
    -- there is at least one buffer, so the size's own condition does not depend on the passes
    · intro h
      exact ⟨(h 0 hn).1, fun i hi => (h i hi).2⟩
    · rintro ⟨hsize, h⟩ i hi
      exact ⟨hsize, h i hi⟩
  · exact iff_of_false (fun h => Bool.false_ne_true h.1) fun h => hcuda h.1

/-- Which surfaces the system makes of one size. -/
theorem allocLoop_surfaces_iff (bytes : UInt64) (n : ℕ) (s : Sys) :
    ((allocLoop allocNvbufsurface n [] 0 s).1 = true ∧
      ∀ b ∈ (allocLoop allocNvbufsurface n [] 0 s).2.1, b.shareFd.file.bytes = bytes.toNat) ↔
    ∀ i < n, s.upcoming (2 * i) = .ok bytes.toNat := by
  have heach : ∀ i, (∃ size, nvbufGrant (fun j => s.upcoming (2 * i + j)) = some (bytes.toNat, size)) ↔
      s.upcoming (2 * i) = .ok bytes.toNat := by
    intro i
    rw [← toOption_eq_some_iff]
    show (∃ size, ((s.upcoming (2 * i)).toOption.map _) = _) ↔ _
    cases (s.upcoming (2 * i)).toOption <;> simp
  rw [allocLoop_yields_iff allocNvbufsurface_yields, and_iff_right fun b hb => absurd hb List.not_mem_nil]
  simp only [heach]

/-- Surfaces of one size leave that size, and the calls for their import parameters come next. -/
theorem allocLoop_surfaces_size {bytes : UInt64} {n : ℕ} (hn : 0 < n) {s : Sys}
    (hall : ∀ i < n, s.upcoming (2 * i) = .ok bytes.toNat) :
    s.CallsOn (allocLoop allocNvbufsurface n [] 0 s).2.2.2 (2 * n) ∧
      (allocLoop allocNvbufsurface n [] 0 s).2.2.1 = bytes := by
  have hsizes : ∀ i < n, ∃ b, nvbufGrant (fun j => s.upcoming (2 * i + j)) = some (b, bytes) := by
    intro i hi
    refine ⟨bytes.toNat, ?_⟩
    show (s.upcoming (2 * i)).toOption.map _ = _
    rw [hall i hi]
    exact congrArg (fun size => some (bytes.toNat, size)) (UInt64.ofNat_toNat)
  obtain ⟨hcalls, hmax⟩ := allocLoop_max_size allocNvbufsurface_yields [] hsizes UInt64.zero_le
  exact ⟨hcalls, hmax (.inl hn)⟩

/-- **NvBufSurface**: all surfaces have to come out at one size of whole pages, with import parameters for each. -/
theorem allocateNvbufsurface_iff {p : TensorPool} (hbuffers : p.buffers = []) (hn : 0 < p.cfg.nBuffers)
    {s : Sys} (hs : s.Sound) (bytes : UInt64) :
    MadeOf bytes.toNat (p.allocateNvbufsurface s) ∧ (p.allocateNvbufsurface s).2.1.bufferSize = bytes ↔
      p.build.jetson = true ∧ (pageRoundUp s bytes = bytes ∧
          ∀ i < p.cfg.nBuffers, s.upcoming (2 * i) = .ok bytes.toNat) ∧
        ∀ i < p.cfg.nBuffers, Granted (s.upcoming (2 * p.cfg.nBuffers + i)) := by
  -- the loop gives all surfaces this size, and its maximum is then the size too
  have hloop := allocLoop_surfaces_iff bytes p.cfg.nBuffers s
  have hafter := @allocLoop_surfaces_size bytes p.cfg.nBuffers hn s
  obtain ⟨-, new, hnew, -, hlen⟩ := allocLoop_spec allocNvbufsurface_sound p.cfg.nBuffers [] 0 s hs
  have hlength : (allocLoop allocNvbufsurface p.cfg.nBuffers [] 0 s).1 = true →
      (allocLoop allocNvbufsurface p.cfg.nBuffers [] 0 s).2.1.length = p.cfg.nBuffers := by
    intro hok
    rw [hnew, List.nil_append, hlen hok]
  unfold allocateNvbufsurface
  rw [hbuffers]
  split_ifs with hjetson
  · rw [and_iff_right hjetson]
    generalize allocLoop allocNvbufsurface p.cfg.nBuffers [] 0 s = run at *
    obtain ⟨ok, bs, maxSize, sys⟩ := run
    cases ok with
    | false => exact iff_of_false (fun h => Bool.false_ne_true h.1.1) fun h => Bool.false_ne_true (hloop.mpr h.1.2).1
    | true =>
        -- as many parameter blobs are asked for as there are surfaces
        have hblob := nvbufImportBlob_iff bs sys
        rw [hlength rfl] at hblob
        dsimp only
        split
        · rename_i sys' heq
          -- a blob that is missing was not granted
          rw [heq] at hblob
          refine iff_of_false (fun h => Bool.false_ne_true h.1.1) ?_
          rintro ⟨⟨-, hall⟩, hgranted⟩
          refine Bool.false_ne_true (hblob.mpr fun i hi => ?_)
          rw [(hafter hall).1.upcoming]
          exact hgranted i hi
        · rename_i blob sys' heq
          rw [heq] at hblob
          -- the size afterwards is the maximum, rounded up to pages
          constructor
          · rintro ⟨⟨-, hsized⟩, hsize⟩
            have hall := hloop.mp ⟨rfl, hsized⟩
            obtain ⟨hcalls, hmax⟩ := hafter hall
            refine ⟨⟨?_, hall⟩, fun i hi => ?_⟩
            · rw [← hcalls.pageRoundUp, ← hmax]
              exact hsize.trans hmax.symm
            · rw [← hcalls.upcoming]
              exact hblob.mp rfl i hi
          · rintro ⟨⟨hround, hall⟩, -⟩
            obtain ⟨hcalls, hmax⟩ := hafter hall
            refine ⟨⟨rfl, (hloop.mpr hall).2⟩, ?_⟩
            show pageRoundUp sys maxSize = bytes
            rw [show maxSize = bytes from hmax, hcalls.pageRoundUp, hround]
  · exact iff_of_false (fun h => Bool.false_ne_true h.1.1) fun h => hjetson h.1

/-- **The backend makes what the pool states**, and enough of it, exactly when the system supplies it. -/
theorem allocateBackend_supplied_iff {p : TensorPool} {s : Sys} {requested : UInt64} (hs : s.Sound)
    (hpages : s.PowerPages) (hbuffers : p.buffers = []) (hn : 0 < p.cfg.nBuffers)
    (hsize : p.bufferSize = pageRoundUp s requested) :
    (MadeOf (p.allocateBackend s).2.1.bufferSize.toNat (p.allocateBackend s) ∧
        requested ≤ (p.allocateBackend s).2.1.bufferSize) ↔ p.cfg.Supplied p.build s requested := by
  have hstated := p.allocateBackend_bufferSize s
  have hround := le_pageRoundUp_iff hpages requested
  unfold TensorPoolConfig.Supplied
  cases hb : p.cfg.backend with
  | Custom =>
      rw [if_neg (by simp [hb])] at hstated
      rw [hstated, and_comm, hsize, hround, ← hsize, ← allocateCustom_iff hbuffers s]
      simp only [allocateBackend, hb]
  | UDMABUF =>
      rw [if_neg (by simp [hb])] at hstated
      rw [hstated, and_comm, hsize, hround, ← hsize, ← allocateUdmabuf_iff hbuffers s]
      simp only [allocateBackend, hb]
  | V4L2 =>
      rw [if_neg (by simp [hb])] at hstated
      rw [hstated, and_comm, hsize, hround, ← hsize, ← allocateV4l2_iff hbuffers s]
      simp only [allocateBackend, hb]
  | Accelerator =>
      rw [if_neg (by simp [hb])] at hstated
      rw [hstated, and_comm, hsize, hround, ← hsize, ← allocateAccelerator_iff hbuffers hn s]
      simp only [allocateBackend, hb]
  | NvBufSurface =>
      -- the size stated is that of the surfaces
      have hmade := allocateNvbufsurface_iff hbuffers hn hs
      simp only [allocateBackend, hb]
      constructor
      · rintro ⟨hbytes, hle⟩
        obtain ⟨hjetson, ⟨hpage, hall⟩, hgranted⟩ := (hmade _).mp ⟨hbytes, rfl⟩
        exact ⟨hjetson, ⟨_, hle, hpage, hall⟩, hgranted⟩
      · rintro ⟨hjetson, ⟨bytes, hle, hpage, hall⟩, hgranted⟩
        obtain ⟨hbytes, heq⟩ := (hmade bytes).mpr ⟨hjetson, ⟨hpage, hall⟩, hgranted⟩
        rw [heq]
        exact ⟨hbytes, hle⟩

/-! ## Complete pools -/

/-- **A complete pool**: all the buffers, open and idle, each of the size stated and no smaller than asked
for, and shared in their order. -/
structure Complete (p : TensorPool) (s : Sys) (requested : UInt64) : Prop where
  length : p.buffers.length = p.cfg.nBuffers
  open_fds : ∀ b ∈ p.buffers, b.shareFd.num < s.nextFd ∧ b.shareFd ∉ s.closed
  backed : ∀ b ∈ p.buffers, requested.toNat ≤ b.shareFd.file.bytes
  sized : ∀ b ∈ p.buffers, b.shareFd.file.bytes = p.bufferSize.toNat
  shared : p.shareFds = p.buffers.map (·.shareFd)
  idle : p.inUse = p.buffers.map fun _ => false

/-- **An allocation leaves a complete pool** exactly when the system supplies it. -/
theorem allocate_complete_iff {p : TensorPool} {s : Sys} {requested : UInt64} (hs : s.Sound)
    (hpages : s.PowerPages) (hbuffers : p.buffers = []) (hdevice : p.v4l2Fd = none)
    (hn : 0 < p.cfg.nBuffers) (hsize : p.bufferSize = pageRoundUp s requested) :
    (p.allocate s).2.1.Complete (p.allocate s).2.2 requested ↔ p.cfg.Supplied p.build s requested := by
  rw [← allocateBackend_supplied_iff hs hpages hbuffers hn hsize]
  have hcfg := (p.sameConfig_allocateBackend s).cfg
  obtain ⟨-, hall, -, hlen⟩ := allocateBackend_spec hs hbuffers hdevice
  unfold allocate
  split
  · rename_i q sys heq
    rw [heq] at hcfg ⊢
    -- a failed allocation leaves no buffers, and the pool is to have some
    refine iff_of_false (fun h => ?_) fun h => Bool.false_ne_true h.1.1
    have hnone : 0 = q.cfg.nBuffers := h.length
    rw [hcfg] at hnone
    exact hn.ne hnone
  · rename_i q sys heq
    rw [heq] at hcfg hall hlen ⊢
    have hlength : q.buffers.length = q.cfg.nBuffers := (hlen rfl).trans (congrArg _ hcfg.symm)
    constructor
    · intro h
      refine ⟨⟨rfl, h.sized⟩, ?_⟩
      obtain ⟨b, hb⟩ := List.exists_mem_of_length_pos (l := q.buffers) (by rw [hlen rfl]; exact hn)
      exact UInt64.le_iff_toNat_le.mpr ((h.backed b hb).trans (h.sized b hb).le)
    · rintro ⟨⟨-, hsized⟩, hle⟩
      refine ⟨hlength, fun b hb => ⟨(hall.each b hb).below, (hall.each b hb).not_closed⟩, ?_, hsized, rfl, rfl⟩
      intro b hb
      exact (UInt64.le_iff_toNat_le.mp hle).trans (hsized b hb).ge

/-- Freeing makes no call that can fail. -/
theorem freeAll_callsOn (p : TensorPool) (s : Sys) : s.CallsOn (p.freeAll s).2 0 := by
  -- closing asks for nothing
  have hfold : ∀ (bs : List PoolBuffer) (s : Sys), s.CallsOn (bs.foldl freeBuffer s) 0 := by
    intro bs
    induction bs with
    | nil => exact fun s => .refl s
    | cons b bs ih =>
        intro s
        have hfirst : s.CallsOn (freeBuffer s b) 0 := by
          unfold freeBuffer
          dsimp only
          split
          · exact ((Sys.CallsOn.refl s).close _).close _
          · exact (Sys.CallsOn.refl s).close _
        exact hfirst.trans (ih _)
  unfold freeAll
  dsimp only
  split
  · exact (hfold _ _).close _
  · exact hfold _ _

end TensorPool

/-- What the system supplies depends on the calls still to come. -/
theorem TensorPoolConfig.supplied_congr {cfg : TensorPoolConfig} {build : BuildConfig} {s s' : Sys}
    (h : s.CallsOn s' 0) (requested : UInt64) :
    cfg.Supplied build s' requested ↔ cfg.Supplied build s requested := by
  unfold TensorPoolConfig.Supplied Sys.RoundsUp Sys.pageSize
  simp only [h.upcoming_eq, h.pageRoundUp, h.page]

namespace TensorPool

/-- A pool that was created is complete exactly when the system supplied it. -/
theorem create_complete_iff {build : BuildConfig} {cfg : TensorPoolConfig} {sys sys' : Sys} {p : TensorPool}
    (hsys : sys.Sound) (hpages : sys.PowerPages) (h : create build cfg sys = (some p, sys')) :
    p.Complete sys' cfg.bufferSize ↔ cfg.Supplied build sys cfg.bufferSize := by
  obtain ⟨hn, heq⟩ := allocate_of_create h
  have hcomplete := allocate_complete_iff (p := unallocated build cfg sys) hsys hpages rfl rfl hn rfl
  rwa [heq] at hcomplete

/-- **A reallocation leaves a complete pool** exactly when the system supplies it. -/
theorem retireAndReallocate_complete_iff {p : TensorPool} {s : Sys} (hs : p.Holds s) (hpages : s.PowerPages)
    (hn : 0 < p.cfg.nBuffers) (requested : UInt64) :
    (p.retireAndReallocate requested s).1.Complete (p.retireAndReallocate requested s).2 requested ↔
      p.cfg.Supplied p.build s requested := by
  have hfreed := p.freeAll_callsOn s
  exact (allocate_complete_iff (p := p.retired requested s) (freeAll_sound hs) (hpages.of_page hfreed.page)
    rfl rfl hn rfl).trans (TensorPoolConfig.supplied_congr hfreed requested)

end TensorPool

/-! ## Runs of reallocations -/

/-- A pool, the system below it, and the generations of the buffer sets it had before. -/
structure PoolRun where
  pool : TensorPool
  sys : Sys
  earlier : List PoolGeneration

namespace PoolRun

/-- One reallocation. -/
def step (r : PoolRun) (newBufferSize : UInt64) : Option PoolRun :=
  let (pool, sys) := r.pool.retireAndReallocate newBufferSize r.sys
  some ⟨pool, sys, r.earlier ++ [r.pool.gen]⟩

/-- The pool is complete, and of a generation later than every earlier one. -/
def Complete (r : PoolRun) (requested : UInt64) : Prop :=
  r.pool.Complete r.sys requested ∧ ∀ gen ∈ r.earlier, gen < r.pool.gen

/-- The buffers before an operation, with their size and generation, are in place after it. -/
def KeptBy (r r' : PoolRun) : Prop :=
  r'.pool.buffers = r.pool.buffers ∧ r'.pool.bufferSize = r.pool.bufferSize ∧ r'.pool.gen = r.pool.gen

/-- **All or nothing**: the reallocation leaves a complete pool, or the previous one. -/
def AllOrNothing (r : PoolRun) (newBufferSize : UInt64) : Prop :=
  ∀ r', r.step newBufferSize = some r' → r'.Complete newBufferSize ∨ r.KeptBy r'

/-- The system supplies the buffers of the next set. -/
def Supplied (r : PoolRun) (newBufferSize : UInt64) : Prop :=
  r.pool.cfg.Supplied r.pool.build r.sys newBufferSize

end PoolRun

/-- Reallocations of a pool, one after the other. -/
def poolRunMachine : Machine PoolRun UInt64 where
  init r := (∃ build cfg sys, TensorPool.create build cfg sys = (some r.pool, r.sys)) ∧ r.earlier = []
  step := PoolRun.step

namespace PoolRun

/-- What every reallocation keeps. -/
structure Inv (r : PoolRun) : Prop where
  holds : r.pool.Holds r.sys
  pages : r.sys.PowerPages
  buffers : 0 < r.pool.cfg.nBuffers
  later : ∀ gen ∈ r.earlier, gen < r.pool.gen

variable {r r' : PoolRun} {n : UInt64}

/-- A reallocation begins the next generation. -/
theorem gen_of_step (hs : r.step n = some r') : r'.pool.gen = r.pool.gen + 1 := by
  cases hs
  exact r.pool.retireAndReallocate_gen n r.sys

/-- **A reallocation keeps the invariant.** -/
theorem Inv.step (h : r.Inv) (hs : r.step n = some r') : r'.Inv := by
  have hgen := gen_of_step hs
  cases hs
  have hcfg : (r.pool.retireAndReallocate n r.sys).1.cfg = r.pool.cfg :=
    (r.pool.sameConfig_retireAndReallocate n r.sys).cfg
  obtain ⟨hlater, hholds, -⟩ := TensorPool.retireAndReallocate_spec h.holds n
  refine ⟨hholds, ?_, ?_, ?_⟩
  -- neither freeing nor allocating changes the size of a page
  · exact h.pages.of_page (hlater.page.trans (r.pool.page_freeAll r.sys))
  · show 0 < (r.pool.retireAndReallocate n r.sys).1.cfg.nBuffers
    rw [hcfg]
    exact h.buffers
  · intro gen hgen'
    rw [hgen]
    rcases List.mem_append.mp hgen' with hgen' | hgen'
    · exact (h.later gen hgen').trans (Nat.lt_succ_self _)
    · rw [List.mem_singleton.mp hgen']
      exact Nat.lt_succ_self _

/-- **When one reallocation is all or nothing.** -/
theorem allOrNothing_iff (h : r.Inv) (hs : r.step n = some r') : r.AllOrNothing n ↔ r.Supplied n := by
  have hgen := gen_of_step hs
  have hlater := (h.step hs).later
  have hcomplete := TensorPool.retireAndReallocate_complete_iff h.holds h.pages h.buffers n
  cases hs
  constructor
  · intro hall
    rcases hall _ rfl with hr | hkept
    · exact hcomplete.mp hr.1
    · -- the generation has moved on, whatever came of the allocation
      exact absurd (hgen.symm.trans hkept.2.2) (Nat.succ_ne_self _)
  · rintro hsupplied r' ⟨⟩
    exact .inl ⟨hcomplete.mpr hsupplied, hlater⟩

end PoolRun

/-- **When reallocating is all or nothing**: a pool that `create` returned is complete exactly when the system
supplied what was asked for, and in any sequence of reallocations each leaves a complete pool of a new
generation or the previous one exactly when the system supplies each. -/
theorem reallocation_all_or_nothing_iff {build : BuildConfig} {cfg : TensorPoolConfig} {sys sys' : Sys}
    {p : TensorPool} (hsys : sys.Sound) (hpages : sys.PowerPages)
    (hcreate : TensorPool.create build cfg sys = (some p, sys')) {tr : List UInt64} {r : PoolRun}
    (hexec : poolRunMachine.exec ⟨p, sys', []⟩ tr = some r) :
    (p.Complete sys' cfg.bufferSize ↔ cfg.Supplied build sys cfg.bufferSize) ∧
      (poolRunMachine.Meets PoolRun.AllOrNothing ⟨p, sys', []⟩ tr ↔
        poolRunMachine.Meets PoolRun.Supplied ⟨p, sys', []⟩ tr) := by
  refine ⟨TensorPool.create_complete_iff hsys hpages hcreate, ?_⟩
  -- the invariant of a run, first for the pool just created
  refine Machine.meets_iff (P := PoolRun.Inv) hexec ?_ (fun r n r' h hs => h.step hs)
    fun r n r' h hs => PoolRun.allOrNothing_iff h hs
  obtain ⟨hn, heq⟩ := TensorPool.allocate_of_create hcreate
  obtain ⟨hlater, -⟩ := TensorPool.allocate_spec (p := .unallocated build cfg sys) hsys rfl rfl
  rw [heq] at hlater
  have hcfg := TensorPool.cfg_of_create hcreate
  refine ⟨TensorPool.create_holds hsys hcreate, hpages.of_page hlater.page, ?_, ?_⟩
  · show 0 < p.cfg.nBuffers
    rw [hcfg]
    exact hn
  · exact fun gen hgen => absurd hgen List.not_mem_nil

/-- On a system that grants every call, two buffers of 4096 bytes are replaced twice. -/
theorem reallocation_all_or_nothing_twice : ∃ (p : TensorPool) (sys' : Sys) (r : PoolRun),
    TensorPool.create ⟨false, false⟩ (.memfds 2 4096) .obliging = (some p, sys') ∧
      poolRunMachine.exec ⟨p, sys', []⟩ [8192, 5000] = some r ∧ r.pool.gen = 3 ∧ r.pool.bufferSize = 8192 ∧
      p.Complete sys' 4096 ∧ poolRunMachine.Meets PoolRun.AllOrNothing ⟨p, sys', []⟩ [8192, 5000] := by
  have hpages : Sys.obliging.PowerPages := ⟨12, by decide, by decide⟩
  obtain ⟨p, sys', hcreate⟩ : ∃ p sys', TensorPool.create ⟨false, false⟩ (.memfds 2 4096) .obliging =
    (some p, sys') := ⟨_, _, rfl⟩
  obtain ⟨r, hr⟩ : ∃ r, poolRunMachine.exec ⟨p, sys', []⟩ [8192, 5000] = some r := by
    cases hcreate
    exact ⟨_, rfl⟩
  obtain ⟨hcomplete, hmeets⟩ := reallocation_all_or_nothing_iff Sys.sound_obliging hpages hcreate hr
  cases hcreate
  cases hr
  -- every memfd is granted, in both reallocations
  refine ⟨_, _, _, rfl, rfl, rfl, by decide +kernel, hcomplete.mpr ?_, hmeets.mpr ?_⟩
  · exact ⟨by decide, fun i _ j _ => rfl⟩
  · refine ⟨⟨by decide, fun i _ j _ => rfl⟩, fun s hs => ?_⟩
    cases hs
    exact ⟨⟨by decide +kernel, fun i _ j _ => rfl⟩, fun _ _ => trivial⟩

/-- A system that refuses its tenth call: creating the memfd of the second buffer of the second set. -/
def Sys.refusing : Sys := { Sys.obliging with answer := fun i => if i = 9 then .error .other else .ok 0 }

/-- **A reallocation that fails is not undone**: of two buffers none is left, with the size and the generation
of the set that was not made. -/
theorem failed_reallocation_empties_pool : ∃ (p : TensorPool) (sys' : Sys) (r : PoolRun),
    TensorPool.create ⟨false, false⟩ (.memfds 2 4096) .refusing = (some p, sys') ∧ p.Complete sys' 4096 ∧
      PoolRun.step ⟨p, sys', []⟩ 8192 = some r ∧ r.pool.buffers = [] ∧ r.pool.gen = 2 ∧
      r.pool.bufferSize = 8192 ∧ ¬ PoolRun.AllOrNothing ⟨p, sys', []⟩ 8192 := by
  have hpages : Sys.refusing.PowerPages := ⟨12, by decide, by decide⟩
  have hsound : Sys.refusing.Sound := fun fd hfd => absurd hfd List.not_mem_nil
  have hsupplied : (TensorPoolConfig.memfds 2 4096).Supplied ⟨false, false⟩ .refusing 4096 := by
    refine ⟨by decide, ?_⟩
    show ∀ i < 2, MemfdGranted _
    decide
  obtain ⟨p, sys', hcreate⟩ : ∃ p sys', TensorPool.create ⟨false, false⟩ (.memfds 2 4096) .refusing =
    (some p, sys') := ⟨_, _, rfl⟩
  have hcomplete := (TensorPool.create_complete_iff hsound hpages hcreate).mpr hsupplied
  cases hcreate
  refine ⟨_, _, _, rfl, hcomplete, rfl, rfl, rfl, by decide +kernel, fun hall => ?_⟩
  -- neither the new buffers are there nor the old ones
  rcases hall _ rfl with hr | hkept
  · exact absurd hr.1.length (by decide)
  · exact absurd hkept.2.2 (by decide)

end Axon
