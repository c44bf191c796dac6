import Axon.Producer

/-! # The FDs a pool holds

A pool closes FDs only when it is freed, and a reallocation opens new ones. An `Fd` stands for one opening
of a file, so a number that the kernel hands out again is another `Fd` here.

* **`Sys.Later`** relates the system before and after a number of calls.
* **`TensorPool.Holds`** is the invariant: the shared FDs of the pool are open, each of a file of its own.
* **`Producer.holds_of_step`**: it is kept by everything a producer does. -/

namespace Axon

open Foundation

namespace Sys

/-- What has been closed had been opened before. -/
def Sound (s : Sys) : Prop := ∀ fd ∈ s.closed, fd.num < s.nextFd

/-- **Calls have been made** that close only what they opened. -/
structure Later (s s' : Sys) : Prop where
  nextFd : s.nextFd ≤ s'.nextFd
  mapParams : s'.mapParams = s.mapParams
  page : s'.page = s.page
  closed : ∀ fd ∈ s'.closed, fd ∈ s.closed ∨ (s.nextFd ≤ fd.num ∧ fd.num < s'.nextFd)

namespace Later

variable {s s' s'' : Sys}

/-- No call has been made. -/
theorem refl (s : Sys) : s.Later s := ⟨le_rfl, rfl, rfl, fun _ => .inl⟩

/-- Calls one after the other. -/
theorem trans (h : s.Later s') (h' : s'.Later s'') : s.Later s'' := by
  refine ⟨h.nextFd.trans h'.nextFd, h'.mapParams.trans h.mapParams, h'.page.trans h.page, fun fd hfd => ?_⟩
  rcases h'.closed fd hfd with hfd | ⟨hge, hlt⟩
  · exact (h.closed fd hfd).imp_right fun ⟨hge, hlt⟩ => ⟨hge, hlt.trans_le h'.nextFd⟩
  · exact .inr ⟨h.nextFd.trans hge, hlt⟩

/-- A call that can fail closes nothing. -/
theorem ask (s : Sys) : s.Later s.ask.2 := ⟨le_rfl, rfl, rfl, fun _ => .inl⟩

/-- Nor does opening an FD. -/
theorem openFd (s : Sys) (bytes : ℕ) : s.Later (s.openFd bytes).2 :=
  ⟨Nat.le_succ _, rfl, rfl, fun _ => .inl⟩

/-- What was opened meanwhile may be closed. -/
theorem close (h : s.Later s') {fd : Fd} (hge : s.nextFd ≤ fd.num) (hlt : fd.num < s'.nextFd) :
    s.Later (s'.close fd) := by
  refine ⟨h.nextFd, h.mapParams, h.page, fun fd' hfd' => ?_⟩
  rcases List.mem_append.mp hfd' with hfd' | hfd'
  · exact h.closed fd' hfd'
  · rw [List.mem_singleton.mp hfd']
    exact .inr ⟨hge, hlt⟩

/-- What was closed has been opened before. -/
theorem sound (h : s.Later s') (hs : s.Sound) : s'.Sound := by
  intro fd hfd
  rcases h.closed fd hfd with hfd | ⟨-, hlt⟩
  · exact (hs fd hfd).trans_le h.nextFd
  · exact hlt

/-- What was open stays open. -/
theorem not_closed (h : s.Later s') {fd : Fd} (hlt : fd.num < s.nextFd) (hopen : fd ∉ s.closed) :
    fd ∉ s'.closed := by
  intro hfd
  rcases h.closed fd hfd with hfd | ⟨hge, -⟩
  · exact hopen hfd
  · omega

end Later

/-- A system that has closed nothing. -/
theorem sound_obliging : Sys.obliging.Sound := nofun

/-- Every call goes on from the state before. -/
theorem of_ask_eq {s s' : Sys} {r : Except Errno ℕ} (h : s.ask = (r, s')) : s' = s.ask.2 := by
  rw [h]

end Sys

/-! ## Allocating buffers -/

/-- **A buffer allocated on the way from `s` to `s'`**: its shared FD is new and open, and refers to a file
of its own. -/
structure PoolBuffer.AllocatedIn (s s' : Sys) (b : PoolBuffer) : Prop where
  opened : s.nextFd ≤ b.shareFd.num
  below : b.shareFd.num < s'.nextFd
  file : b.shareFd.file.id = b.shareFd.num
  not_closed : b.shareFd ∉ s'.closed
  backing : ∀ fd, b.backingFd = some fd → s.nextFd ≤ fd.num ∧ fd.num < s'.nextFd

namespace PoolBuffer.AllocatedIn

variable {s₀ s s' s'' : Sys} {b : PoolBuffer}

/-- A buffer stays allocated while other FDs are opened and closed. -/
theorem later (h : b.AllocatedIn s s') (h' : s'.Later s'') : b.AllocatedIn s s'' where
  opened := h.opened
  below := h.below.trans_le h'.nextFd
  file := h.file
  not_closed := h'.not_closed h.below h.not_closed
  backing fd hfd := ⟨(h.backing fd hfd).1, (h.backing fd hfd).2.trans_le h'.nextFd⟩

/-- It was allocated since any earlier state, too. -/
theorem earlier (h : b.AllocatedIn s s') (h₀ : s₀.Later s) : b.AllocatedIn s₀ s' where
  opened := h₀.nextFd.trans h.opened
  below := h.below
  file := h.file
  not_closed := h.not_closed
  backing fd hfd := ⟨h₀.nextFd.trans (h.backing fd hfd).1, (h.backing fd hfd).2⟩

/-- An older FD may be closed. -/
theorem close (h : b.AllocatedIn s s') {fd : Fd} (hlt : fd.num < s.nextFd) :
    b.AllocatedIn s (s'.close fd) where
  opened := h.opened
  below := h.below
  file := h.file
  not_closed hmem := by
    rcases List.mem_append.mp hmem with hmem | hmem
    · exact h.not_closed hmem
    · have hopened := h.opened
      rw [List.mem_singleton.mp hmem] at hopened
      omega
  backing := h.backing

end PoolBuffer.AllocatedIn

/-- **An allocation is sound** when the buffer it returns is a new one. -/
def BufferAlloc.Sound (alloc : BufferAlloc) : Prop := ∀ s : Sys, s.Sound → s.Later (alloc s).2 ∧
  ∀ b size, (alloc s).1 = some (b, size) → b.AllocatedIn s (alloc s).2

/-- A sealed memfd is a new FD; one that cannot be sealed is closed again. -/
theorem makeSealedMemfd_spec (s : Sys) (size : UInt64) (hs : s.Sound) :
    s.Later (makeSealedMemfd s size).2 ∧ ∀ fd, (makeSealedMemfd s size).1 = some fd →
      s.nextFd ≤ fd.num ∧ fd.num < (makeSealedMemfd s size).2.nextFd ∧ fd.file.id = fd.num ∧
        fd ∉ (makeSealedMemfd s size).2.closed := by
  have hopened : s.Later (s.ask.2.openFd size.toNat).2 := (Sys.Later.ask s).trans (.openFd _ _)
  have hnew : (s.ask.2.openFd size.toNat).1 ∉ s.closed := fun hmem => (hs _ hmem).false
  unfold makeSealedMemfd
  -- three calls can fail: creating the file, sizing it and sealing it
  split
  · rename_i e sys heq
    obtain rfl := Sys.of_ask_eq heq
    exact ⟨.ask s, nofun⟩
  · rename_i n sys heq
    obtain rfl := Sys.of_ask_eq heq
    dsimp only
    split
    · rename_i e sys heq
      obtain rfl := Sys.of_ask_eq heq
      exact ⟨(hopened.trans (.ask _)).close le_rfl (Nat.lt_succ_self _), nofun⟩
    · rename_i n sys heq
      obtain rfl := Sys.of_ask_eq heq
      have hasked := hopened.trans (.ask _)
      split
      · rename_i e sys heq
        obtain rfl := Sys.of_ask_eq heq
        exact ⟨(hasked.trans (.ask _)).close le_rfl (Nat.lt_succ_self _), nofun⟩
      · rename_i n sys heq
        obtain rfl := Sys.of_ask_eq heq
        refine ⟨hasked.trans (.ask _), fun fd hfd => ?_⟩
        obtain rfl := Option.some.inj hfd
        exact ⟨le_rfl, Nat.lt_succ_self _, rfl, hnew⟩

/-- **Custom** allocates a buffer or closes what it opened. -/
theorem allocCustom_sound (size : UInt64) : (allocCustom size).Sound := by
  intro s hs
  obtain ⟨hlater, hfd⟩ := makeSealedMemfd_spec s size hs
  unfold allocCustom
  split
  · rename_i sys heq
    rw [heq] at hlater
    exact ⟨hlater, nofun⟩
  · rename_i fd sys heq
    rw [heq] at hlater hfd
    refine ⟨hlater, fun b size' hb => ?_⟩
    obtain ⟨rfl, -⟩ := Prod.mk.inj (Option.some.inj hb)
    obtain ⟨hge, hlt, hfile, hopen⟩ := hfd fd rfl
    exact ⟨hge, hlt, hfile, hopen, nofun⟩

/-- **UDMABUF** allocates a buffer or closes what it opened. -/
theorem allocUdmabuf_sound (size : UInt64) : (allocUdmabuf size).Sound := by
  intro s hs
  obtain ⟨hlater, hfd⟩ := makeSealedMemfd_spec s size hs
  unfold allocUdmabuf
  split
  -- the memfd is the first FD opened here
  · rename_i sys heq
    rw [heq] at hlater
    exact ⟨hlater, nofun⟩
  · rename_i memfd sys heq
    rw [heq] at hlater hfd
    obtain ⟨hge, hlt, -, -⟩ := hfd memfd rfl
    dsimp only at hlater hlt
    -- it is closed again when the DMA-buf cannot be made
    split
    · rename_i e sys' heq'
      obtain rfl := Sys.of_ask_eq heq'
      exact ⟨(hlater.trans (.ask sys)).close hge hlt, nofun⟩
    · rename_i n sys' heq'
      obtain rfl := Sys.of_ask_eq heq'
      have hsound := hlater.sound hs
      -- otherwise the buffer has both FDs, neither of them closed
      refine ⟨(hlater.trans (.ask sys)).trans (.openFd _ _), fun b size' hb => ?_⟩
      obtain ⟨rfl, -⟩ := Prod.mk.inj (Option.some.inj hb)
      refine ⟨hlater.nextFd, Nat.lt_succ_self _, rfl, fun hmem => (hsound _ hmem).false, ?_⟩
      intro fd hbacking
      obtain rfl := Option.some.inj hbacking
      exact ⟨hge, hlt.trans (Nat.lt_succ_self _)⟩

/-- **V4L2** allocates a buffer or opens nothing. -/
theorem allocV4l2_sound (size : UInt64) : (allocV4l2 size).Sound := by
  intro s hs
  unfold allocV4l2
  split
  · rename_i e sys heq
    obtain rfl := Sys.of_ask_eq heq
    exact ⟨.ask s, nofun⟩
  · rename_i bytes sys heq
    obtain rfl := Sys.of_ask_eq heq
    refine ⟨(Sys.Later.ask s).trans (.openFd _ _), fun b size' hb => ?_⟩
    obtain ⟨rfl, -⟩ := Prod.mk.inj (Option.some.inj hb)
    exact ⟨le_rfl, Nat.lt_succ_self _, rfl, fun hmem => (hs _ hmem).false, nofun⟩

/-- **Accelerator** allocates a buffer or opens nothing. -/
theorem allocAccelerator_sound (size : UInt64) : (allocAccelerator size).Sound := by
  intro s hs
  unfold allocAccelerator
  -- no FD is opened before the last call has succeeded
  split_ifs
  · exact ⟨.refl s, nofun⟩
  · split
    · rename_i e sys heq
      obtain rfl := Sys.of_ask_eq heq
      exact ⟨.ask s, nofun⟩
    · rename_i gran sys heq
      obtain rfl := Sys.of_ask_eq heq
      dsimp only
      split_ifs
      · exact ⟨.ask s, nofun⟩
      · have hasked : s.Later s.ask.2.ask.2 := (Sys.Later.ask s).trans (.ask _)
        split
        · rename_i e sys heq
          obtain rfl := Sys.of_ask_eq heq
          exact ⟨hasked, nofun⟩
        · rename_i ptr sys heq
          obtain rfl := Sys.of_ask_eq heq
          refine ⟨hasked.trans (.openFd _ _), fun b size' hb => ?_⟩
          obtain ⟨rfl, -⟩ := Prod.mk.inj (Option.some.inj hb)
          exact ⟨le_rfl, Nat.lt_succ_self _, rfl, fun hmem => (hs _ hmem).false, nofun⟩

/-- **NvBufSurface** allocates a buffer or opens nothing. -/
theorem allocNvbufsurface_sound : BufferAlloc.Sound allocNvbufsurface := by
  intro s hs
  unfold allocNvbufsurface
  split
  · rename_i e sys heq
    obtain rfl := Sys.of_ask_eq heq
    exact ⟨.ask s, nofun⟩
  · rename_i bytes sys heq
    obtain rfl := Sys.of_ask_eq heq
    have hasked : s.Later s.ask.2.ask.2 := (Sys.Later.ask s).trans (.ask _)
    refine ⟨hasked.trans (.openFd _ bytes), fun b size' hb => ?_⟩
    obtain ⟨rfl, -⟩ := Prod.mk.inj (Option.some.inj hb)
    exact ⟨le_rfl, Nat.lt_succ_self _, rfl, fun hmem => (hs _ hmem).false, nofun⟩

/-- **Buffers allocated on the way from `s` to `s'`**, each with a file of its own. -/
structure AllocatedAll (s s' : Sys) (bs : List PoolBuffer) : Prop where
  each : ∀ b ∈ bs, b.AllocatedIn s s'
  ordered : bs.Pairwise fun b b' => b.shareFd.num < b'.shareFd.num

/-- **The allocation loop** allocates new buffers; as many as asked for, when nothing fails. -/
theorem allocLoop_spec {alloc : BufferAlloc} (halloc : alloc.Sound) (n : ℕ) (bs : List PoolBuffer)
    (maxSize : UInt64) (s : Sys) (hs : s.Sound) :
    s.Later (allocLoop alloc n bs maxSize s).2.2.2 ∧
      ∃ new, (allocLoop alloc n bs maxSize s).2.1 = bs ++ new ∧
        AllocatedAll s (allocLoop alloc n bs maxSize s).2.2.2 new ∧
        ((allocLoop alloc n bs maxSize s).1 = true → new.length = n) := by
  induction n generalizing bs maxSize s with
  | zero => exact ⟨.refl s, [], (List.append_nil bs).symm, ⟨by simp, .nil⟩, fun _ => rfl⟩
  | succ n ih =>
      obtain ⟨hlater, hnew⟩ := halloc s hs
      unfold allocLoop
      split
      · rename_i sys heq
        rw [heq] at hlater
        exact ⟨hlater, [], (List.append_nil bs).symm, ⟨by simp, .nil⟩, nofun⟩
      · rename_i b size sys heq
        rw [heq] at hlater hnew
        have hb := hnew b size rfl
        dsimp only at hlater hb
        obtain ⟨hrest, new, hbs, ⟨heach, hordered⟩, hlen⟩ :=
          ih (bs ++ [b]) (if maxSize < size then size else maxSize) sys (hlater.sound hs)
        refine ⟨hlater.trans hrest, b :: new, ?_, ⟨?_, ?_⟩, fun hok => ?_⟩
        · rw [hbs, List.append_assoc, List.singleton_append]
        · refine List.forall_mem_cons.mpr ⟨hb.later hrest, fun b' hb' => ?_⟩
          exact (heach b' hb').earlier hlater
        · -- later buffers have larger numbers
          exact List.pairwise_cons.mpr
            ⟨fun b' hb' => hb.below.trans_le (heach b' hb').opened, hordered⟩
        · rw [List.length_cons, hlen hok]

namespace AllocatedAll

variable {s₀ s s' s'' : Sys} {bs : List PoolBuffer}

/-- No buffers are allocated trivially. -/
theorem nil (s s' : Sys) : AllocatedAll s s' [] := ⟨by simp, .nil⟩

/-- They stay allocated while other FDs are opened and closed. -/
theorem later (h : AllocatedAll s s' bs) (h' : s'.Later s'') : AllocatedAll s s'' bs :=
  ⟨fun b hb => (h.each b hb).later h', h.ordered⟩

/-- They were allocated since any earlier state, too. -/
theorem earlier (h : AllocatedAll s s' bs) (h₀ : s₀.Later s) : AllocatedAll s₀ s' bs :=
  ⟨fun b hb => (h.each b hb).earlier h₀, h.ordered⟩

/-- Closing an older FD leaves them. -/
theorem close (h : AllocatedAll s s' bs) {fd : Fd} (hlt : fd.num < s.nextFd) :
    AllocatedAll s (s'.close fd) bs :=
  ⟨fun b hb => (h.each b hb).close hlt, h.ordered⟩

end AllocatedAll

namespace TensorPool

/-- **A pool allocated on the way from `s` to `s'`**, with all its buffers if the allocation succeeded. -/
structure AllocatedIn (p : TensorPool) (s : Sys) (r : Bool × TensorPool × Sys) : Prop where
  later : s.Later r.2.2
  buffers : AllocatedAll s r.2.2 r.2.1.buffers
  device : ∀ fd, r.2.1.v4l2Fd = some fd → s.nextFd ≤ fd.num ∧ fd.num < r.2.2.nextFd
  length : r.1 = true → r.2.1.buffers.length = p.cfg.nBuffers

/-- An attempt that fails before it allocates a buffer. -/
theorem AllocatedIn.of_no_buffers {p q : TensorPool} {s s' : Sys} (hlater : s.Later s')
    (hbuffers : q.buffers = []) (hdevice : ∀ fd, q.v4l2Fd = some fd →
      s.nextFd ≤ fd.num ∧ fd.num < s'.nextFd) : p.AllocatedIn s (false, q, s') := by
  refine ⟨hlater, ?_, hdevice, nofun⟩
  rw [hbuffers]
  exact .nil s s'

/-- **A loop of allocations** leaves what it allocated, and all the buffers asked for when it succeeds. -/
theorem allocateWith_spec (p : TensorPool) {s : Sys} (hs : s.Sound) {alloc : BufferAlloc}
    (halloc : alloc.Sound) (hbuffers : p.buffers = []) :
    s.Later (p.allocateWith s alloc).2.2 ∧
      AllocatedAll s (p.allocateWith s alloc).2.2 (p.allocateWith s alloc).2.1.buffers ∧
      ((p.allocateWith s alloc).1 = true →
        (p.allocateWith s alloc).2.1.buffers.length = p.cfg.nBuffers) := by
  obtain ⟨hlater, new, hnew, hall, hlen⟩ := allocLoop_spec halloc p.cfg.nBuffers p.buffers 0 s hs
  have hbs : (p.allocateWith s alloc).2.1.buffers = new := by
    show (allocLoop alloc p.cfg.nBuffers p.buffers 0 s).2.1 = new
    rw [hnew, hbuffers, List.nil_append]
  rw [hbs]
  exact ⟨hlater, hall, hlen⟩

/-- An attempt without a capture device. -/
theorem AllocatedIn.of_allocateWith {p : TensorPool} {s : Sys} (hs : s.Sound) {alloc : BufferAlloc}
    (halloc : alloc.Sound) (hbuffers : p.buffers = []) (hdevice : p.v4l2Fd = none) :
    p.AllocatedIn s (p.allocateWith s alloc) := by
  obtain ⟨hlater, hall, hlen⟩ := p.allocateWith_spec hs halloc hbuffers
  exact ⟨hlater, hall, fun fd hfd => absurd (hdevice.symm.trans hfd) nofun, hlen⟩

/-- **UDMABUF**: the device's FD is closed behind the loop. -/
theorem allocateUdmabuf_spec {p : TensorPool} {s : Sys} (hs : s.Sound) (hbuffers : p.buffers = [])
    (hdevice : p.v4l2Fd = none) : p.AllocatedIn s (p.allocateUdmabuf s) := by
  unfold allocateUdmabuf
  split
  · rename_i e sys heq
    obtain rfl := Sys.of_ask_eq heq
    exact .of_no_buffers (.ask s) hbuffers fun fd hfd => absurd (hdevice.symm.trans hfd) nofun
  · rename_i n sys heq
    obtain rfl := Sys.of_ask_eq heq
    have hopened : s.Later (s.ask.2.openFd 0).2 := (Sys.Later.ask s).trans (.openFd _ _)
    obtain ⟨hlater, hall, hlen⟩ := p.allocateWith_spec (hopened.sound hs)
      (allocUdmabuf_sound p.bufferSize) hbuffers
    -- the device was opened before the buffers
    exact ⟨(hopened.trans hlater).close le_rfl ((Nat.lt_succ_self _).trans_le hlater.nextFd),
      (hall.close (Nat.lt_succ_self _)).earlier hopened, fun fd hfd => absurd (hdevice.symm.trans hfd) nofun, hlen⟩

/-- **V4L2**: the device's FD is the pool's from then on. -/
theorem allocateV4l2_spec {p : TensorPool} {s : Sys} (hs : s.Sound) (hbuffers : p.buffers = [])
    (hdevice : p.v4l2Fd = none) : p.AllocatedIn s (p.allocateV4l2 s) := by
  unfold allocateV4l2
  split_ifs
  · exact .of_no_buffers (.refl s) hbuffers fun fd hfd => absurd (hdevice.symm.trans hfd) nofun
  · split
    · rename_i e sys heq
      obtain rfl := Sys.of_ask_eq heq
      exact .of_no_buffers (.ask s) hbuffers fun fd hfd => absurd (hdevice.symm.trans hfd) nofun
    · rename_i n sys heq
      obtain rfl := Sys.of_ask_eq heq
      have hopened : s.Later (s.ask.2.openFd 0).2 := (Sys.Later.ask s).trans (.openFd _ _)
      -- the device stays open, for the buffers it exports
      have hfresh : ∀ s' : Sys, (s.ask.2.openFd 0).2.Later s' →
          ∀ fd, some (s.ask.2.openFd 0).1 = some fd → s.nextFd ≤ fd.num ∧ fd.num < s'.nextFd := by
        rintro s' h' fd ⟨⟩
        exact ⟨le_rfl, (Nat.lt_succ_self _).trans_le h'.nextFd⟩
      dsimp only
      split
      · rename_i e sys heq
        obtain rfl := Sys.of_ask_eq heq
        exact .of_no_buffers (hopened.trans (.ask _)) hbuffers (hfresh _ (.ask _))
      · rename_i count sys heq
        obtain rfl := Sys.of_ask_eq heq
        have hasked := hopened.trans (.ask _)
        split_ifs
        · exact .of_no_buffers hasked hbuffers (hfresh _ (.ask _))
        · -- the driver grants enough buffers
          obtain ⟨hlater, hall, hlen⟩ := TensorPool.allocateWith_spec
            { p with v4l2Fd := some (s.ask.2.openFd 0).1 } (hasked.sound hs)
            (allocV4l2_sound p.bufferSize) hbuffers
          exact ⟨hasked.trans hlater, hall.earlier hasked, hfresh _ ((Sys.Later.ask _).trans hlater), hlen⟩

/-- Asking for the import parameters opens and closes nothing. -/
theorem nvbufImportBlob_later (bs : List PoolBuffer) (s : Sys) : s.Later (nvbufImportBlob bs s).2 := by
  induction bs generalizing s with
  | nil => exact .refl s
  -- the parameters of each surface in turn; no FD is opened
  | cons b bs ih =>
      unfold nvbufImportBlob
      split
      · rename_i e sys heq
        obtain rfl := Sys.of_ask_eq heq
        exact .ask s
      · rename_i n sys heq
        obtain rfl := Sys.of_ask_eq heq
        have hrest := (Sys.Later.ask s).trans (ih s.ask.2)
        split
        · rename_i sys heq
          rw [heq] at hrest
          exact hrest
        · rename_i blob sys heq
          rw [heq] at hrest
          exact hrest

/-- **NvBufSurface**: the import parameters are read once all surfaces are there. -/
theorem allocateNvbufsurface_spec {p : TensorPool} {s : Sys} (hs : s.Sound) (hbuffers : p.buffers = [])
    (hdevice : p.v4l2Fd = none) : p.AllocatedIn s (p.allocateNvbufsurface s) := by
  obtain ⟨hlater, new, hnew, hall, hlen⟩ :=
    allocLoop_spec allocNvbufsurface_sound p.cfg.nBuffers p.buffers 0 s hs
  rw [hbuffers, List.nil_append] at hnew
  have hnone : ∀ {s' : Sys} (fd : Fd), p.v4l2Fd = some fd → s.nextFd ≤ fd.num ∧ fd.num < s'.nextFd :=
    fun fd hfd => absurd (hdevice.symm.trans hfd) nofun
  unfold allocateNvbufsurface
  rw [hbuffers] at hlater hall hlen ⊢
  split_ifs
  · split
    · rename_i bs maxSize sys heq
      rw [heq] at hlater hall hnew
      obtain rfl : bs = new := hnew
      exact ⟨hlater, hall, hnone, nofun⟩
    · rename_i bs maxSize sys heq
      rw [heq] at hlater hall hnew hlen
      obtain rfl : bs = new := hnew
      -- the import parameters are asked for after the surfaces have been allocated
      have hasked := nvbufImportBlob_later bs sys
      dsimp only
      split
      · rename_i sys' heq
        rw [heq] at hasked
        exact ⟨hlater.trans hasked, hall.later hasked, hnone, nofun⟩
      · rename_i blob sys' heq
        rw [heq] at hasked
        exact ⟨hlater.trans hasked, hall.later hasked, hnone, fun _ => hlen rfl⟩
  · exact .of_no_buffers (.refl s) hbuffers hnone

/-- **Every backend allocates new buffers.** -/
theorem allocateBackend_spec {p : TensorPool} {s : Sys} (hs : s.Sound) (hbuffers : p.buffers = [])
    (hdevice : p.v4l2Fd = none) : p.AllocatedIn s (p.allocateBackend s) := by
  unfold allocateBackend
  split
  · exact .of_allocateWith hs (allocCustom_sound _) hbuffers hdevice
  · exact allocateUdmabuf_spec hs hbuffers hdevice
  · exact allocateV4l2_spec hs hbuffers hdevice
  · unfold allocateAccelerator
    split_ifs
    · exact .of_allocateWith hs (allocAccelerator_sound _) hbuffers hdevice
    · exact .of_no_buffers (.refl s) hbuffers fun fd hfd => absurd (hdevice.symm.trans hfd) nofun
  · exact allocateNvbufsurface_spec hs hbuffers hdevice

/-! ## Freeing and allocating anew -/

/-- An FD the pool would close when it is freed. -/
def Owns (p : TensorPool) (fd : Fd) : Prop :=
  (∃ b ∈ p.buffers, fd = b.shareFd ∨ b.backingFd = some fd) ∨ p.v4l2Fd = some fd

/-- Freeing a buffer closes its own FDs alone. -/
theorem freeBuffer_spec (s : Sys) (b : PoolBuffer) : (freeBuffer s b).nextFd = s.nextFd ∧
    (freeBuffer s b).mapParams = s.mapParams ∧ ∀ fd ∈ (freeBuffer s b).closed,
      fd ∈ s.closed ∨ fd = b.shareFd ∨ b.backingFd = some fd := by
  unfold freeBuffer
  dsimp only
  -- the share FD is closed, and the backing one if there is one
  split
  · rename_i backing hbacking
    refine ⟨rfl, rfl, fun fd hfd => ?_⟩
    rcases List.mem_append.mp hfd with hfd | hfd
    · rcases List.mem_append.mp hfd with hfd | hfd
      · exact .inl hfd
      · exact .inr (.inl (List.mem_singleton.mp hfd))
    · rw [List.mem_singleton.mp hfd]
      exact .inr (.inr hbacking)
  · refine ⟨rfl, rfl, fun fd hfd => ?_⟩
    rcases List.mem_append.mp hfd with hfd | hfd
    · exact .inl hfd
    · exact .inr (.inl (List.mem_singleton.mp hfd))

/-- **Freeing a pool** closes what it owns, and nothing else. -/
theorem freeAll_spec (p : TensorPool) (s : Sys) : (p.freeAll s).2.nextFd = s.nextFd ∧
    (p.freeAll s).2.mapParams = s.mapParams ∧
    ∀ fd ∈ (p.freeAll s).2.closed, fd ∈ s.closed ∨ p.Owns fd := by
  -- one buffer after the other
  have hfold : ∀ (bs : List PoolBuffer) (s : Sys), (bs.foldl freeBuffer s).nextFd = s.nextFd ∧
      (bs.foldl freeBuffer s).mapParams = s.mapParams ∧ ∀ fd ∈ (bs.foldl freeBuffer s).closed,
        fd ∈ s.closed ∨ ∃ b ∈ bs, fd = b.shareFd ∨ b.backingFd = some fd := by
    intro bs
    induction bs with
    | nil => exact fun s => ⟨rfl, rfl, fun fd hfd => .inl hfd⟩
    | cons b bs ih =>
        intro s
        obtain ⟨hnext, hparams, hclosed⟩ := ih (freeBuffer s b)
        obtain ⟨hnext', hparams', hclosed'⟩ := freeBuffer_spec s b
        refine ⟨hnext.trans hnext', hparams.trans hparams', fun fd hfd => ?_⟩
        rcases hclosed fd hfd with hfd | ⟨b', hb', hfd⟩
        · exact (hclosed' fd hfd).imp_right fun hfd => ⟨b, List.mem_cons_self, hfd⟩
        · exact .inr ⟨b', List.mem_cons_of_mem b hb', hfd⟩
  obtain ⟨hnext, hparams, hclosed⟩ := hfold p.buffers s
  unfold freeAll
  dsimp only
  split
  · rename_i device hdevice
    refine ⟨hnext, hparams, fun fd hfd => ?_⟩
    rcases List.mem_append.mp hfd with hfd | hfd
    · exact (hclosed fd hfd).imp_right .inl
    · rw [List.mem_singleton.mp hfd]
      exact .inr (.inr hdevice)
  · exact ⟨hnext, hparams, fun fd hfd => (hclosed fd hfd).imp_right .inl⟩

/-- **The FDs of a pool in use**: whatever it owns has been opened, and its shared FDs are open, in the
order in which they were opened, each of a file of its own. -/
structure Holds (p : TensorPool) (s : Sys) : Prop where
  sound : s.Sound
  owned : ∀ fd, p.Owns fd → fd.num < s.nextFd
  shared : ∀ fd ∈ p.dmaBufFds, p.Owns fd
  open_fds : ∀ fd ∈ p.dmaBufFds, fd ∉ s.closed
  own_file : ∀ fd ∈ p.dmaBufFds, fd.file.id = fd.num
  ordered : p.dmaBufFds.Pairwise fun fd fd' => fd.num < fd'.num

/-- What an allocation has opened. -/
theorem AllocatedIn.owned {p q : TensorPool} {s s' : Sys} {ok : Bool} (h : p.AllocatedIn s (ok, q, s')) {fd : Fd}
    (hfd : q.Owns fd) : s.nextFd ≤ fd.num ∧ fd.num < s'.nextFd := by
  obtain ⟨-, hall, hdev, -⟩ := h
  rcases hfd with ⟨b, hb, rfl | hbacking⟩ | hfd
  · exact ⟨(hall.each b hb).opened, (hall.each b hb).below⟩
  · exact (hall.each b hb).backing fd hbacking
  · exact hdev fd hfd

/-- A failed allocation is freed again, with whatever it had opened. -/
theorem AllocatedIn.freed {p q : TensorPool} {s s' : Sys} {ok : Bool} (h : p.AllocatedIn s (ok, q, s')) :
    s.Later (q.freeAll s').2 := by
  obtain ⟨hnext, hparams, hclosed⟩ := q.freeAll_spec s'
  refine ⟨h.later.nextFd.trans hnext.ge, hparams.trans h.later.mapParams,
    (q.page_freeAll s').trans h.later.page, fun fd hfd => ?_⟩
  rw [hnext]
  rcases hclosed fd hfd with hfd | hfd
  · exact h.later.closed fd hfd
  · exact .inr (h.owned hfd)

/-- A pool that has been freed holds nothing. -/
theorem Holds.of_freed (p : TensorPool) {s s' : Sys} (hs : s'.Sound) : (p.freeAll s).1.Holds s' := by
  refine ⟨hs, ?_, ?_, ?_, ?_, .nil⟩
  · rintro fd (⟨b, hb, -⟩ | hfd)
    · cases hb
    · cases hfd
  · exact fun fd hfd => absurd hfd List.not_mem_nil
  · exact fun fd hfd => absurd hfd List.not_mem_nil
  · exact fun fd hfd => absurd hfd List.not_mem_nil

/-- A pool that shares the FDs of its new buffers. -/
theorem AllocatedIn.holds {p q : TensorPool} {s s' : Sys} {ok : Bool} (h : p.AllocatedIn s (ok, q, s'))
    (hs : s.Sound) (inUse : List Bool) (ringHead : ℕ) :
    Holds { q with inUse := inUse, ringHead := ringHead, shareFds := q.buffers.map (·.shareFd) } s' := by
  obtain ⟨hlater, hall, -, -⟩ := id h
  refine ⟨hlater.sound hs, fun fd hfd => (h.owned hfd).2, ?_, ?_, ?_, List.pairwise_map.mpr hall.ordered⟩
  · intro fd hfd
    obtain ⟨b, hb, rfl⟩ := List.mem_map.mp hfd
    exact .inl ⟨b, hb, .inl rfl⟩
  · intro fd hfd
    obtain ⟨b, hb, rfl⟩ := List.mem_map.mp hfd
    exact (hall.each b hb).not_closed
  · intro fd hfd
    obtain ⟨b, hb, rfl⟩ := List.mem_map.mp hfd
    exact (hall.each b hb).file

/-- **What an allocation leaves** is a pool in use, with all its buffers or with none. -/
theorem allocate_spec {p : TensorPool} {s : Sys} (hs : s.Sound) (hbuffers : p.buffers = [])
    (hdevice : p.v4l2Fd = none) : s.Later (p.allocate s).2.2 ∧ (p.allocate s).2.1.Holds (p.allocate s).2.2 ∧
      ((p.allocate s).1 = true → (p.allocate s).2.1.dmaBufFds.length = p.cfg.nBuffers) ∧
      (∀ fd ∈ (p.allocate s).2.1.dmaBufFds, s.nextFd ≤ fd.num) := by
  have hmade := allocateBackend_spec hs hbuffers hdevice
  unfold allocate
  -- a failure has freed all it opened
  split
  · rename_i q sys heq
    rw [heq] at hmade
    refine ⟨hmade.freed, .of_freed q (hmade.freed.sound hs), nofun, ?_⟩
    exact fun fd hfd => absurd hfd List.not_mem_nil
  · rename_i q sys heq
    rw [heq] at hmade
    refine ⟨hmade.later, hmade.holds hs _ _, fun _ => ?_, ?_⟩
    · exact (List.length_map _).trans (hmade.length rfl)
    · intro fd hfd
      obtain ⟨b, hb, rfl⟩ := List.mem_map.mp hfd
      exact (hmade.buffers.each b hb).opened

/-- The buffers of a pool in use are files of their own. -/
theorem Holds.nodup_files {p : TensorPool} {s : Sys} (h : p.Holds s) :
    (p.dmaBufFds.map (·.file)).Nodup := by
  refine List.pairwise_map.mpr (h.ordered.imp_of_mem ?_)
  intro fd fd' hfd hfd' hlt heq
  rw [← h.own_file fd hfd, ← h.own_file fd' hfd', heq] at hlt
  exact lt_irrefl _ hlt

/-- A pool in use, after calls that close nothing of it. -/
theorem Holds.later {p : TensorPool} {s s' : Sys} (h : p.Holds s) (h' : s.Later s') : p.Holds s' where
  sound := h'.sound h.sound
  owned fd hfd := (h.owned fd hfd).trans_le h'.nextFd
  shared := h.shared
  open_fds fd hfd := h'.not_closed (h.owned fd (h.shared fd hfd)) (h.open_fds fd hfd)
  own_file := h.own_file
  ordered := h.ordered

/-- Freeing closes what has been opened. -/
theorem sound_freeAll {p : TensorPool} {s : Sys} (hs : s.Sound) (howned : ∀ fd, p.Owns fd → fd.num < s.nextFd) :
    (p.freeAll s).2.Sound ∧ (p.freeAll s).2.nextFd = s.nextFd := by
  obtain ⟨hnext, -, hclosed⟩ := p.freeAll_spec s
  refine ⟨fun fd hfd => ?_, hnext⟩
  rw [hnext]
  rcases hclosed fd hfd with hfd | hfd
  · exact hs fd hfd
  · exact howned fd hfd

/-- Freeing a pool closes what was opened. -/
theorem freeAll_sound {p : TensorPool} {s : Sys} (h : p.Holds s) : (p.freeAll s).2.Sound :=
  (sound_freeAll h.sound h.owned).1

/-- A reallocation makes calls, and leaves a pool in use. -/
theorem retireAndReallocate_spec {p : TensorPool} {s : Sys} (h : p.Holds s) (n : UInt64) :
    (p.freeAll s).2.Later (p.retireAndReallocate n s).2 ∧
      (p.retireAndReallocate n s).1.Holds (p.retireAndReallocate n s).2 ∧
      (∀ fd ∈ (p.retireAndReallocate n s).1.dmaBufFds, (p.freeAll s).2.nextFd ≤ fd.num) := by
  obtain ⟨hlater, hholds, -, hfresh⟩ := allocate_spec (p := p.retired n s) (freeAll_sound h) rfl rfl
  exact ⟨hlater, hholds, hfresh⟩

/-- **A reallocation** leaves a pool whose FDs are open. -/
theorem retireAndReallocate_holds {p : TensorPool} {s : Sys} (h : p.Holds s) (n : UInt64) :
    (p.retireAndReallocate n s).1.Holds (p.retireAndReallocate n s).2 :=
  (retireAndReallocate_spec h n).2.1

/-- **A new pool** is made of new files, and creating one closes only what it has opened itself. -/
theorem create_fresh {s : Sys} (hs : s.Sound) (build : BuildConfig) (cfg : TensorPoolConfig) :
    s.Later (create build cfg s).2 ∧ ∀ p, (create build cfg s).1 = some p →
      p.Holds (create build cfg s).2 ∧ ∀ fd ∈ p.dmaBufFds, s.nextFd ≤ fd.num := by
  obtain ⟨hlater, hholds, -, hnew⟩ := allocate_spec (p := unallocated build cfg s) hs rfl rfl
  -- refused before anything is opened, or allocated
  unfold create
  split_ifs
  · exact ⟨.refl s, nofun⟩
  · exact ⟨.refl s, nofun⟩
  · dsimp only
    split
    · rename_i p sys heq
      have hfailed : (unallocated build cfg s).allocate s = (false, p, sys) := heq
      rw [hfailed] at hlater
      exact ⟨hlater, nofun⟩
    · rename_i p sys heq
      have hdone : (unallocated build cfg s).allocate s = (true, p, sys) := heq
      rw [hdone] at hlater hholds hnew
      refine ⟨hlater, fun q hq => ?_⟩
      cases hq
      exact ⟨hholds, hnew⟩

/-- **A new pool** holds FDs that are open. -/
theorem create_holds {build : BuildConfig} {cfg : TensorPoolConfig} {s s' : Sys} {p : TensorPool}
    (hs : s.Sound) (h : create build cfg s = (some p, s')) : p.Holds s' := by
  have hmade := (create_fresh hs build cfg).2
  rw [h] at hmade
  exact (hmade p rfl).1

/-- A pool that has been created has as many buffers as it was asked for, and at least one. -/
theorem length_of_create {build : BuildConfig} {cfg : TensorPoolConfig} {s s' : Sys}
    {p : TensorPool} (hs : s.Sound) (h : create build cfg s = (some p, s')) :
    p.dmaBufFds.length = cfg.nBuffers ∧ 0 < p.dmaBufFds.length := by
  obtain ⟨hn, heq⟩ := allocate_of_create h
  obtain ⟨-, -, hlen, -⟩ := allocate_spec (p := unallocated build cfg s) hs rfl rfl
  rw [heq] at hlen
  have hlength : p.dmaBufFds.length = cfg.nBuffers := hlen rfl
  exact ⟨hlength, hlength ▸ hn⟩

end TensorPool

/-! ## The producer -/

namespace TensorPublisher

/-- Mapping buffers closes nothing. -/
theorem mapBuffers_later (length : UInt64) (fds : List Fd) (s : Sys) :
    s.Later (mapBuffers length fds s).2 := by
  induction fds generalizing s with
  | nil => exact .refl s
  | cons fd fds ih => exact (Sys.Later.ask s).trans (ih s.ask.2)

/-- Nor does asking for the size of a file. -/
theorem initialBufferSize_later (pool : TensorPool) (s : Sys) : s.Later (initialBufferSize pool s).2 := by
  unfold initialBufferSize
  split_ifs
  · exact .refl s
  · exact .refl s
  · split
    · rename_i e sys heq
      obtain rfl := Sys.of_ask_eq heq
      exact .ask s
    · rename_i sz sys heq
      obtain rfl := Sys.of_ask_eq heq
      exact .ask s

/-- Creating a publisher closes nothing of the pool. -/
theorem create_later (pool : TensorPool) (s : Sys) : s.Later (create pool s).2 := by
  have hsize := initialBufferSize_later pool s
  unfold create
  dsimp only
  -- the server and the slot are not FDs of the pool
  split_ifs
  · exact hsize
  · exact hsize
  · split
    · rename_i e sys heq
      obtain rfl := Sys.of_ask_eq heq
      exact hsize.trans (.ask _)
    · rename_i n sys heq
      obtain rfl := Sys.of_ask_eq heq
      have hasked := hsize.trans (.ask _)
      split
      · rename_i e sys heq
        obtain rfl := Sys.of_ask_eq heq
        exact hasked.trans (.ask _)
      · rename_i n sys heq
        obtain rfl := Sys.of_ask_eq heq
        exact (hasked.trans (.ask _)).trans (mapBuffers_later _ _ _)

end TensorPublisher

namespace Producer

/-- A producer begins with a pool whose FDs are open. -/
theorem holds_of_create {build : BuildConfig} {cfg : TensorPoolConfig} {sys : Sys} {s : Producer}
    (hsys : sys.Sound) (h : create build cfg sys = some s) : s.pool.Holds s.sys := by
  obtain ⟨sys₁, hpool, hpub⟩ := create_parts h
  have hlater := TensorPublisher.create_later s.pool sys₁
  rw [hpub] at hlater
  exact (TensorPool.create_holds hsys hpool).later hlater

/-- **Everything a producer does keeps the FDs of its pool in order.** -/
theorem holds_of_step {s s' : Producer} {e : ProducerEv} (h : s.pool.Holds s.sys)
    (hs : s.step e = some s') : s'.pool.Holds s'.sys := by
  cases e with
  | handshake =>
      obtain ⟨r, -, rfl⟩ := Option.map_eq_some_iff.mp hs
      exact h
  | publish now d syncFd =>
      obtain ⟨r, -, rfl⟩ := Option.map_eq_some_iff.mp hs
      exact h
  | reallocate n =>
      cases hs
      exact TensorPool.retireAndReallocate_holds h n
  | reannounce =>
      obtain ⟨r, hr, rfl⟩ := Option.map_eq_some_iff.mp hs
      have hlater := TensorPublisher.mapBuffers_later s.pub.bufferSize s.pool.dmaBufFds s.sys
      obtain ⟨rb, ra, -, -, heq⟩ := TensorPublisher.reannounce_cases hr
      rw [heq]
      exact h.later hlater
  -- the other operations leave the pool and the system alone
  | acquire | connect | acceptFails | read | hangup =>
      cases hs
      exact h

end Producer

end Axon
