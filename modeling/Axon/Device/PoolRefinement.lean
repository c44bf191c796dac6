import Axon.Device.PoolResources
import Axon.PoolReallocation
import Mathlib.Data.List.Forall2

/-! # The pool with its resources refines the pool of the message level

`TensorPool` makes its calls on a system that gives the answers of a list; `PoolImpl` makes the calls of the kernel, of
the CUDA driver and of NvBufSurface one by one, and any of them may fail. Whatever they answer, there are a page size
and a list of answers with which `TensorPool` does the same, so that what holds of it for every system holds of
`PoolImpl`.

* **`Follows`**: a function of the message level does what a program does, for some answers; one lemma for each kind of
  buffer, and **`allocLoop_follows`** for all buffers of a pool.
* **`FillsRounded`**: the same of a backend's part of `allocate`, with the size asked for.
* **`pool_refines`**: `create` and `retire_and_reallocate`. -/

namespace Axon

open Foundation

/-! ## Systems with answers of our choice -/

/-- **A system that gives these answers next**, and import parameters of `psz` bytes. -/
structure Sys.Offers (psz : ℕ) (answers : List (Except Errno ℕ)) (sys : Sys) : Prop where
  mapParams : ∀ surf, (sys.mapParams surf).length = psz
  next : ∀ i (hi : i < answers.length), sys.upcoming i = answers[i]

/-- **`n` calls later**, with the same library below. -/
structure Sys.After (sys sys' : Sys) (n : ℕ) : Prop extends sys.CallsOn sys' n where
  mapParams : sys'.mapParams = sys.mapParams

namespace Sys

variable {psz n m : ℕ} {answers answers' : List (Except Errno ℕ)} {sys sys' sys'' : Sys}

/-- Nothing has been called. -/
theorem After.refl (sys : Sys) : sys.After sys 0 := ⟨.refl sys, rfl⟩

/-- A call that can fail takes one answer. -/
theorem After.ask (sys : Sys) : sys.After sys.ask.2 1 := ⟨.ask sys, rfl⟩

/-- Opening an FD takes none. -/
theorem After.openFd (sys : Sys) (bytes : ℕ) : sys.After (sys.openFd bytes).2 0 := ⟨.openFd sys bytes, rfl⟩

/-- Calls one after the other take their answers together. -/
theorem After.trans (h : sys.After sys' n) (h' : sys'.After sys'' m) : sys.After sys'' (n + m) :=
  ⟨h.toCallsOn.trans h'.toCallsOn, h'.mapParams.trans h.mapParams⟩

/-- Closing an FD takes none. -/
theorem After.close (h : sys.After sys' n) (fd : Fd) : sys.After (sys'.close fd) n :=
  ⟨h.toCallsOn.close fd, h.mapParams⟩

/-- The first of the answers. -/
theorem Offers.left (h : sys.Offers psz (answers ++ answers')) : sys.Offers psz answers := by
  refine ⟨h.mapParams, fun i hi => ?_⟩
  rw [h.next i (by rw [List.length_append]; omega), List.getElem_append_left hi]

/-- What is left of the answers once the first have been given. -/
theorem Offers.right (h : sys.Offers psz (answers ++ answers')) (hafter : sys.After sys' answers.length) :
    sys'.Offers psz answers' := by
  refine ⟨fun surf => hafter.mapParams ▸ h.mapParams surf, fun i hi => ?_⟩
  rw [hafter.upcoming, h.next _ (by rw [List.length_append]; omega), List.getElem_append_right (Nat.le_add_right _ _)]
  simp

/-- **The next call** takes the first answer. -/
theorem Offers.ask {a : Except Errno ℕ} (h : sys.Offers psz (a :: answers)) :
    sys.ask = (a, sys.ask.2) ∧ sys.ask.2.Offers psz answers := by
  have hrest : sys.Offers psz ([a] ++ answers) := h
  exact ⟨Prod.ext (h.next 0 (Nat.succ_pos _)) rfl, hrest.right (.ask sys)⟩

/-- What takes no answer leaves all of them. -/
theorem Offers.after (h : sys.Offers psz answers) (hafter : sys.After sys' 0) : sys'.Offers psz answers :=
  Offers.right (show sys.Offers psz ([] ++ answers) from h) hafter

end Sys

/-- A memfd that cannot be made. -/
theorem makeSealedMemfd_refused {psz : ℕ} {sys : Sys} (h : sys.Offers psz [.error .other]) (size : UInt64) :
    makeSealedMemfd sys size = (none, sys.ask.2) := by
  unfold makeSealedMemfd
  rw [h.ask.1]

/-- A memfd that is made. -/
theorem makeSealedMemfd_made {psz : ℕ} {answers : List (Except Errno ℕ)} {sys : Sys}
    (h : sys.Offers psz (.ok 0 :: .ok 0 :: .ok 0 :: answers)) (size : UInt64) : ∃ fd sys',
      makeSealedMemfd sys size = (some fd, sys') ∧ fd.file.bytes = size.toNat ∧ sys.After sys' 3 ∧
        sys'.Offers psz answers := by
  obtain ⟨hcreate, h₁⟩ := h.ask
  have h₁ := h₁.after (.openFd _ size.toNat)
  obtain ⟨hsize, h₂⟩ := h₁.ask
  obtain ⟨hseal, h₃⟩ := h₂.ask
  refine ⟨(sys.ask.2.openFd size.toNat).1, (sys.ask.2.openFd size.toNat).2.ask.2.ask.2, ?_, rfl, ?_, h₃⟩
  · unfold makeSealedMemfd
    rw [hcreate]
    dsimp only
    rw [hsize]
    dsimp only
    rw [hseal]
  · exact (((Sys.After.ask sys).trans (.openFd _ size.toNat)).trans (.ask _)).trans (.ask _)

end Axon

namespace Axon.Device

open Foundation Prog

/-- **A function of the message level follows a program**: whatever the program returns, there are answers with which
the function returns what is related to it. -/
def Follows {β γ : Type} (psz : ℕ) (prog : Call β) (f : Sys → γ × Sys) (related : β → γ → Prop) : Prop :=
  Returns prog fun b => ∃ answers, ∀ sys : Sys, sys.Offers psz answers →
    related b (f sys).1 ∧ sys.After (f sys).2 answers.length

section

variable (psz : ℕ)

/-! ## Allocating one buffer -/

/-- One FD on both levels, of files of one size. -/
def SameFile (fd : Option Fd) (fd' : Fd) : Prop := fd.map (·.file.bytes) = some fd'.file.bytes

/-- **What the message level sees of a buffer**: how large the file behind its FD is, which FDs and surfaces there are,
and its device pointer and pitch. -/
structure Buffer.Shows (b : Buffer) (b' : PoolBuffer) : Prop where
  shareFd : SameFile b.shareFd b'.shareFd
  backingFd : b.backingFd.isSome = b'.backingFd.isSome
  devicePtr : b.devicePtr = b'.devicePtr
  nvbufSurf : b.nvbufSurf.isSome = b'.nvbufSurf.isSome
  pitch : b.pitch = b'.pitch

/-- A memfd is as large as was asked for. -/
theorem makeSealedMemfd_returns (size : UInt64) :
    Returns (makeSealedMemfd size) fun r => ∀ fd, r = some fd → fd.file.bytes = size.toNat := by
  refine (Returns.trivial _).bind fun r _ => ?_
  cases r with
  | none => exact .pure (by simp)
  | some n =>
      refine (Returns.trivial _).bind fun ok _ => .ite (fun _ => .pure fun fd hfd => ?_) fun _ => ?_
      · obtain rfl := Option.some.inj hfd
        rfl
      · exact (Returns.trivial _).bind fun _ _ => .pure (by simp)

/-- **Custom** on both levels. -/
theorem allocCustom_follows (size : UInt64) :
    Follows psz (allocCustom size) (Axon.allocCustom size) (Option.Rel fun b x => b.Shows x.1) := by
  refine (makeSealedMemfd_returns size).bind fun r hr => ?_
  cases r with
  | none =>
      refine .pure ⟨[.error .other], fun sys h => ?_⟩
      unfold Axon.allocCustom
      rw [makeSealedMemfd_refused h]
      exact ⟨.none, .ask sys⟩
  | some fd =>
      refine .pure ⟨[.ok 0, .ok 0, .ok 0], fun sys h => ?_⟩
      obtain ⟨fd', sys', hmade, hbytes, hafter, -⟩ := makeSealedMemfd_made h size
      unfold Axon.allocCustom
      rw [hmade]
      exact ⟨.some ⟨congrArg some ((hr fd rfl).trans hbytes.symm), rfl, rfl, rfl, rfl⟩, hafter⟩

/-- **UDMABUF** on both levels. -/
theorem allocUdmabuf_follows (size : UInt64) :
    Follows psz (allocUdmabuf size) (Axon.allocUdmabuf size) (Option.Rel fun b x => b.Shows x.1) := by
  refine (Returns.trivial _).bind fun r _ => ?_
  cases r with
  -- `memfd_create` failed
  | none =>
      refine .pure ⟨[.error .other], fun sys h => ?_⟩
      unfold Axon.allocUdmabuf
      rw [makeSealedMemfd_refused h]
      exact ⟨.none, .ask sys⟩
  | some memfd =>
      refine (Returns.trivial _).bind fun r _ => ?_
      cases r with
      | none =>
          -- the memfd was made, and `UDMABUF_CREATE` failed: the memfd is closed again
          refine (Returns.trivial _).bind fun _ _ => .pure ⟨[.ok 0, .ok 0, .ok 0, .error .other], fun sys h => ?_⟩
          obtain ⟨fd, sys', hmade, -, hafter, h'⟩ := makeSealedMemfd_made h size
          unfold Axon.allocUdmabuf
          rw [hmade]
          dsimp only
          rw [h'.ask.1]
          exact ⟨.none, (hafter.trans (.ask sys')).close fd⟩
      | some n =>
          -- the DMA-buf is opened beside the memfd
          refine .pure ⟨[.ok 0, .ok 0, .ok 0, .ok 0], fun sys h => ?_⟩
          obtain ⟨fd, sys', hmade, -, hafter, h'⟩ := makeSealedMemfd_made h size
          unfold Axon.allocUdmabuf
          rw [hmade]
          dsimp only
          rw [h'.ask.1]
          exact ⟨.some ⟨rfl, rfl, rfl, rfl, rfl⟩, (hafter.trans (.ask sys')).trans (.openFd _ _)⟩

/-- **V4L2** on both levels. -/
theorem allocV4l2_follows (device : Fd) (size : UInt64) :
    Follows psz (allocV4l2 device size) (Axon.allocV4l2 size) (Option.Rel fun b x => b.Shows x.1) := by
  refine (Returns.trivial _).bind fun _ _ => (Returns.trivial _).bind fun r _ => ?_
  cases r with
  | none =>
      refine .pure ⟨[.error .other], fun sys h => ?_⟩
      unfold Axon.allocV4l2
      rw [h.ask.1]
      exact ⟨.none, .ask sys⟩
  | some n =>
      refine .pure ⟨[.ok size.toNat], fun sys h => ?_⟩
      unfold Axon.allocV4l2
      rw [h.ask.1]
      exact ⟨.some ⟨rfl, rfl, rfl, rfl, rfl⟩, (Sys.After.ask sys).trans (.openFd _ _)⟩

/-- The FD exported is of a file as large as the memory. -/
theorem cuMemExport_returns (handle : ℕ) (size : UInt64) : Returns (cuMemExportToShareableHandle handle size)
    fun r => ∀ fd, r = some fd → ∃ n, fd = newFd n size.toNat := by
  refine (Returns.trivial _).bind fun _ _ => (Returns.trivial _).bind fun a _ => ?_
  cases a with
  | none => exact .pure (by simp)
  | some n => exact (Returns.trivial _).bind fun _ _ => .pure fun fd hfd => ⟨n, (Option.some.inj hfd).symm⟩

/-- A device buffer that is allocated is exported, all of it. -/
theorem accelAlloc_exports (size : UInt64) :
    Returns (accelAlloc size) fun r => ∀ b, r = some b → ∃ n, b.exportFd = some (newFd n b.aligned.toNat) := by
  refine .ite (fun _ => .pure (by simp)) fun _ => ?_
  refine (Returns.trivial _).bind fun ok _ => .ite (fun _ => ?_) fun _ => .pure (by simp)
  refine (Returns.trivial _).bind fun sz _ => .ite (fun _ => .pure (by simp)) fun _ => ?_
  refine (Returns.trivial _).bind fun r _ => ?_
  cases r with
  | none => exact .pure (by simp)
  | some h =>
      refine (Returns.trivial _).bind fun r _ => ?_
      cases r with
      | none => exact (Returns.trivial _).bind fun _ _ => .pure (by simp)
      | some ptr =>
          -- the FD is the one `cuMemExport` has opened, of as many bytes as were asked for
          refine (cuMemExport_returns h sz).bind fun r hr => ?_
          cases r with
          | none =>
              refine (Returns.trivial _).bind fun _ _ => (Returns.trivial _).bind fun _ _ => ?_
              exact (Returns.trivial _).bind fun _ _ => .pure (by simp)
          | some fd =>
              refine .pure fun b hb => ?_
              obtain rfl := Option.some.inj hb
              obtain ⟨n, hn⟩ := hr fd rfl
              exact ⟨n, congrArg some hn⟩

/-- **Accelerator** on both levels. -/
theorem allocAccelerator_follows (size : UInt64) :
    Follows psz (allocAccelerator size) (Axon.allocAccelerator size) (Option.Rel fun b x => b.Shows x.1) := by
  refine ((accelAlloc_returns size).and (accelAlloc_exports size)).bind fun r hr => ?_
  cases r with
  -- an empty buffer is refused before any call
  | none =>
      by_cases hsize : size = 0
      · refine .pure ⟨[], fun sys _ => ?_⟩
        unfold Axon.allocAccelerator
        rw [if_pos hsize]
        exact ⟨.none, .refl sys⟩
      · refine .pure ⟨[.error .other], fun sys h => ?_⟩
        unfold Axon.allocAccelerator
        rw [if_neg hsize, h.ask.1]
        exact ⟨.none, .ask sys⟩
  | some ab =>
      have hcovers := hr.1 ab rfl
      obtain ⟨gran, hgran⟩ := hcovers.aligned
      obtain ⟨n, hexport⟩ := hr.2 ab rfl
      obtain ⟨ptr, hptr⟩ := Option.isSome_iff_exists.mp hcovers.devicePtr
      -- two answers stand for all the calls of the driver: the granularity and the address
      refine .pure ⟨[.ok gran.toNat, .ok ptr], fun sys h => ?_⟩
      unfold Axon.allocAccelerator
      rw [if_neg hcovers.size_ne_zero, h.ask.1]
      dsimp only
      rw [UInt64.ofNat_toNat, ← hgran, if_neg hcovers.aligned_ne_zero, h.ask.2.ask.1]
      refine ⟨.some ⟨?_, rfl, hptr, rfl, rfl⟩, ((Sys.After.ask sys).trans (.ask _)).trans (.openFd _ _)⟩
      show ab.exportFd.map _ = _
      rw [hexport]
      rfl

/-- The FD of a surface is of a file as large as the surface says. -/
theorem surfaceList0_answer (surf : ℕ) : Returns (surfaceList0 surf) fun b => ∃ n bytes pitch,
    b = ⟨some surf, some (newFd n bytes), .ofNat bytes, .ofNat pitch⟩ :=
  (Returns.trivial _).bind fun _ _ => (Returns.trivial _).bind fun _ _ => (Returns.trivial _).bind fun _ _ =>
    .pure ⟨_, _, _, rfl⟩

/-- What an allocated surface says of itself. -/
theorem nvbufAlloc_answer (width height fourcc : UInt32) : Returns (nvbufAlloc width height fourcc) fun r =>
    ∀ b, r = some b → ∃ surf n bytes pitch,
      b = ⟨some surf, some (newFd n bytes), .ofNat bytes, .ofNat pitch⟩ := by
  refine .ite (fun _ => .pure (by simp)) fun _ => ?_
  cases colorFormat fourcc with
  | none => exact .pure (by simp)
  | some color =>
      refine (Returns.trivial _).bind fun r _ => ?_
      cases r with
      | none => exact .pure (by simp)
      | some surf =>
          refine (surfaceList0_answer surf).bind fun b hb => (Returns.trivial _).bind fun _ _ => .pure fun b' hb' => ?_
          obtain rfl := Option.some.inj hb'
          exact ⟨surf, hb⟩

/-- **NvBufSurface** on both levels, which decides on the size too. -/
theorem allocNvbufsurface_follows (width height fourcc : UInt32) :
    Follows psz (allocNvbufsurface width height fourcc) Axon.allocNvbufsurface
      (Option.Rel fun b x => b.1.Shows x.1 ∧ b.2 = x.2) := by
  refine (nvbufAlloc_answer width height fourcc).bind fun r hr => ?_
  cases r with
  | none =>
      refine .pure ⟨[.error .other], fun sys h => ?_⟩
      unfold Axon.allocNvbufsurface
      rw [h.ask.1]
      exact ⟨.none, .ask sys⟩
  | some nb =>
      obtain ⟨surf, n, bytes, pitch, rfl⟩ := hr nb rfl
      -- the size and the pitch of the surface are all that the message level asks for
      refine .pure ⟨[.ok bytes, .ok pitch], fun sys h => ?_⟩
      unfold Axon.allocNvbufsurface
      rw [h.ask.1]
      dsimp only
      rw [h.ask.2.ask.1]
      exact ⟨.some ⟨⟨rfl, rfl, rfl, rfl, rfl⟩, rfl⟩, ((Sys.After.ask sys).trans (.ask _)).trans (.openFd _ _)⟩

end

variable {psz : ℕ}

/-! ## Allocating all of them -/

/-- **The loop of allocations** on both levels: it ends at the same buffer, and the sizes reported are the same. -/
theorem allocLoop_follows {β : Type} {alloc : Call (Option β)} {f : BufferAlloc}
    {related : β → PoolBuffer × UInt64 → Prop} (h : Follows psz alloc f (Option.Rel related)) (n : ℕ) (bs : List β) :
    Returns (allocLoop alloc n bs) fun r => ∃ answers made, r.2 = bs ++ made ∧
      ∀ (bs' : List PoolBuffer) (maxSize : UInt64) (sys : Sys), sys.Offers psz answers → ∃ made' sys',
        Axon.allocLoop f n bs' maxSize sys = (r.1, bs' ++ made'.map Prod.fst,
          made'.foldl (fun maxSize x => if maxSize < x.2 then x.2 else maxSize) maxSize, sys') ∧
        List.Forall₂ related made made' ∧ sys.After sys' answers.length := by
  -- on the number of buffers still to be made; the answers of one pass come before those of the rest
  induction n generalizing bs with
  | zero =>
      refine .pure ⟨[], [], (List.append_nil bs).symm, fun bs' maxSize sys _ => ⟨[], sys, ?_, .nil, .refl sys⟩⟩
      rw [List.map_nil, List.append_nil]
      rfl
  | succ n ih =>
      refine h.bind fun r hr => ?_
      obtain ⟨answers, hr⟩ := hr
      cases r with
      -- a pass that fails ends both loops, with the buffers made so far
      | none =>
          refine .pure ⟨answers, [], (List.append_nil bs).symm, fun bs' maxSize sys hsys => ?_⟩
          obtain ⟨hrel, hafter⟩ := hr sys hsys
          refine ⟨[], (f sys).2, ?_, .nil, hafter⟩
          rw [Axon.allocLoop]
          rcases hf : f sys with ⟨r', sys'⟩
          rw [hf] at hrel
          cases hrel
          rw [List.map_nil, List.append_nil]
          rfl
      | some b =>
          refine (ih (bs ++ [b])).mono fun r hrest => ?_
          obtain ⟨answers', made, hmade, hrest⟩ := hrest
          have hbs : r.2 = bs ++ b :: made := hmade.trans (List.append_assoc _ _ _)
          refine ⟨answers ++ answers', b :: made, hbs, fun bs' maxSize sys hsys => ?_⟩
          obtain ⟨hrel, hafter⟩ := hr sys hsys.left
          rw [Axon.allocLoop]
          rcases hf : f sys with ⟨r', sys'⟩
          rw [hf] at hrel hafter
          -- the other loop's allocation succeeds as this one's has
          obtain ⟨x, rfl, hb⟩ : ∃ x, r' = some x ∧ related b x := by
            cases hrel with
            | some hb => exact ⟨_, rfl, hb⟩
          obtain ⟨made', sys'', hloop, hall, hafter'⟩ :=
            hrest (bs' ++ [x.1]) (if maxSize < x.2 then x.2 else maxSize) sys' (hsys.right hafter)
          refine ⟨x :: made', sys'', hloop.trans ?_, .cons hb hall, ?_⟩
          · rw [List.append_assoc]
            rfl
          · rw [List.length_append]
            exact hafter.trans hafter'

/-- **The import parameters** on both levels: as many, of `psz` bytes each. -/
theorem importParams_follows (psz : ℕ) (bs : List Buffer) : Returns (importParams bs) fun r => ∃ answers,
    ∀ (bs' : List PoolBuffer) (sys : Sys), bs'.length = bs.length → sys.Offers psz answers →
      (nvbufImportBlob bs' sys).1.map List.length = r.map (·.length * psz) ∧
        sys.After (nvbufImportBlob bs' sys).2 answers.length := by
  induction bs with
  | nil =>
      refine .pure ⟨[], fun bs' sys hlen _ => ?_⟩
      obtain rfl := List.length_eq_zero_iff.mp hlen
      exact ⟨by simp [nvbufImportBlob], .refl sys⟩
  | cons b bs ih =>
      refine (Returns.trivial _).bind fun r _ => ?_
      cases r with
      | none =>
          refine .pure ⟨[.error .other], fun bs' sys hlen hsys => ?_⟩
          obtain ⟨b', bs', rfl⟩ := List.exists_cons_of_length_eq_add_one hlen
          rw [nvbufImportBlob, hsys.ask.1]
          exact ⟨rfl, .ask sys⟩
      | some params =>
          refine ih.bind fun r hr => ?_
          obtain ⟨answers, hr⟩ := hr
          -- one more call, and the rest of the parameters
          have hstep : ∀ (bs' : List PoolBuffer) (sys : Sys), bs'.length = bs.length + 1 →
              sys.Offers psz (.ok 0 :: answers) → (nvbufImportBlob bs' sys).1.map List.length =
                  (r.map (params :: ·)).map (·.length * psz) ∧
                sys.After (nvbufImportBlob bs' sys).2 (answers.length + 1) := by
            intro bs' sys hlen hsys
            obtain ⟨b', bs', rfl⟩ := List.exists_cons_of_length_eq_add_one hlen
            obtain ⟨hask, hsys'⟩ := hsys.ask
            obtain ⟨hblob, hafter⟩ := hr bs' sys.ask.2 (Nat.succ.inj hlen) hsys'
            rw [nvbufImportBlob, hask]
            dsimp only
            rcases hrec : nvbufImportBlob bs' sys.ask.2 with ⟨r', sys'⟩
            rw [hrec] at hblob hafter
            have hafter' := (Sys.After.ask sys).trans hafter
            rw [Nat.add_comm] at hafter'
            cases r with
            | none =>
                obtain rfl := Option.map_eq_none_iff.mp hblob
                exact ⟨rfl, hafter'⟩
            | some blob =>
                obtain ⟨bytes, rfl, hbytes⟩ := Option.map_eq_some_iff.mp hblob
                refine ⟨congrArg some ?_, hafter'⟩
                show _ = (blob.length + 1) * psz
                rw [List.length_append, hbytes, hafter.mapParams, hsys'.mapParams, Nat.succ_mul, Nat.add_comm]
          cases r with
          | none => exact .pure ⟨.ok 0 :: answers, hstep⟩
          | some blob => exact .pure ⟨.ok 0 :: answers, hstep⟩

/-! ## The pool -/

/-- One configuration on both levels. -/
structure PoolConfig.Shows (cfg : PoolConfig) (cfg' : TensorPoolConfig) : Prop where
  nBuffers : cfg.nBuffers = cfg'.nBuffers
  bufferSize : cfg.bufferSize = cfg'.bufferSize
  backend : cfg.backend = cfg'.backend
  v4l2Device : cfg.v4l2Device = cfg'.v4l2Device.isSome

namespace PoolImpl

/-- **What the message level sees of a pool**, but for its buffer size. -/
structure Resembles (build : BuildConfig) (psz : ℕ) (p : PoolImpl) (q : TensorPool) : Prop where
  build : q.build = build
  cfg : p.cfg.Shows q.cfg
  gen : p.gen = q.gen
  buffers : List.Forall₂ Buffer.Shows p.buffers q.buffers
  shareFds : List.Forall₂ SameFile p.shareFds q.shareFds
  inUse : p.inUse = q.inUse
  ringHead : p.ringHead = q.ringHead
  importBlob : q.importBlob.length = p.importBlob.length * psz
  v4l2Fd : p.v4l2Fd.isSome = q.v4l2Fd.isSome

/-- **What the message level sees of a pool**. -/
structure Shows (build : BuildConfig) (psz : ℕ) (p : PoolImpl) (q : TensorPool) : Prop
    extends p.Resembles build psz q where
  bufferSize : p.bufferSize = q.bufferSize

/-- **A function that fills the pool** on both levels, or fails on both. -/
def Fills (build : BuildConfig) (psz : ℕ) (p : PoolImpl) (prog : Call (Bool × PoolImpl))
    (f : TensorPool → Sys → Bool × TensorPool × Sys) : Prop :=
  Returns prog fun r => ∃ answers, ∀ q, p.Shows build psz q → ∀ sys : Sys, sys.Offers psz answers →
    (f q sys).1 = r.1 ∧ r.2.Shows build psz (f q sys).2.1

variable {build : BuildConfig} {p : PoolImpl}

/-- More buffers on both levels. -/
theorem Resembles.addBuffers {q : TensorPool} (h : p.Resembles build psz q) {bs : List Buffer} {bs' : List PoolBuffer}
    (hbs : List.Forall₂ Buffer.Shows bs bs') :
    Resembles build psz { p with buffers := bs } { q with buffers := bs' } :=
  ⟨h.build, h.cfg, h.gen, hbs, h.shareFds, h.inUse, h.ringHead, h.importBlob, h.v4l2Fd⟩

/-- **`allocateWith`** on both levels. -/
theorem allocateWith_fills {alloc : Call (Option Buffer)} {f : UInt64 → BufferAlloc}
    (h : Follows psz alloc (f p.bufferSize) (Option.Rel fun b x => b.Shows x.1)) :
    p.Fills build psz (p.allocateWith alloc) fun q sys => q.allocateWith sys (f q.bufferSize) := by
  refine (allocLoop_follows h p.cfg.nBuffers p.buffers).bind fun r hr => .pure ?_
  obtain ⟨answers, made, hmade, hloop⟩ := hr
  refine ⟨answers, fun q hq sys hsys => ?_⟩
  obtain ⟨made', sys', heq, hall, -⟩ := hloop q.buffers 0 sys hsys
  have hbuffers : List.Forall₂ Buffer.Shows r.2 (q.buffers ++ made'.map Prod.fst) := by
    rw [hmade]
    exact List.rel_append hq.buffers (List.forall₂_map_right_iff.mpr hall)
  rw [hq.cfg.nBuffers, hq.bufferSize] at heq
  show (q.allocateWith sys (f q.bufferSize)).1 = r.1 ∧ Shows build psz _ (q.allocateWith sys (f q.bufferSize)).2.1
  unfold TensorPool.allocateWith
  rw [heq]
  exact ⟨rfl, hq.toResembles.addBuffers hbuffers, hq.bufferSize⟩

/-- **`allocate_udmabuf`** on both levels. -/
theorem allocateUdmabuf_fills :
    p.Fills build psz p.allocateUdmabuf TensorPool.allocateUdmabuf := by
  refine (Returns.trivial _).bind fun r _ => ?_
  cases r with
  | none =>
      refine .pure ⟨[.error .other], fun q hq sys hsys => ?_⟩
      unfold TensorPool.allocateUdmabuf
      rw [hsys.ask.1]
      exact ⟨rfl, hq⟩
  | some udma =>
      -- the FD of `/dev/udmabuf` is closed behind the loop, which no answer depends on
      have hall : p.Fills build psz (p.allocateWith (allocUdmabuf p.bufferSize)) fun q sys =>
          q.allocateWith sys (Axon.allocUdmabuf q.bufferSize) := allocateWith_fills (allocUdmabuf_follows psz _)
      refine hall.bind fun r hr => ?_
      obtain ⟨answers, hr⟩ := hr
      refine (Returns.trivial _).bind fun _ _ => .pure ⟨.ok 0 :: answers, fun q hq sys hsys => ?_⟩
      unfold TensorPool.allocateUdmabuf
      rw [hsys.ask.1]
      exact hr q hq _ (hsys.ask.2.after (.openFd _ 0))

/-- The capture device is open on both levels. -/
theorem Shows.openDevice {q : TensorPool} (h : p.Shows build psz q) (fd fd' : Fd) :
    Shows build psz { p with v4l2Fd := some fd } { q with v4l2Fd := some fd' } :=
  ⟨⟨h.build, h.cfg, h.gen, h.buffers, h.shareFds, h.inUse, h.ringHead, h.importBlob, rfl⟩, h.bufferSize⟩

/-- **`allocate_v4l2`** on both levels. -/
theorem allocateV4l2_fills : p.Fills build psz p.allocateV4l2 TensorPool.allocateV4l2 := by
  refine .ite (fun hdevice => .pure ⟨[], fun q hq sys _ => ?_⟩) fun hdevice => ?_
  · have hnone : q.cfg.v4l2Device = none := by
      rw [hq.cfg.v4l2Device] at hdevice
      exact Option.isSome_eq_false_iff.mp hdevice |> Option.isNone_iff_eq_none.mp
    unfold TensorPool.allocateV4l2
    rw [if_pos hnone]
    exact ⟨rfl, hq⟩
  have hsome : ∀ q, p.Shows build psz q → q.cfg.v4l2Device ≠ none := by
    intro q hq hnone
    rw [hq.cfg.v4l2Device, hnone] at hdevice
    exact hdevice rfl
  refine (Returns.trivial _).bind fun r _ => ?_
  cases r with
  | none =>
      refine .pure ⟨[.error .other], fun q hq sys hsys => ?_⟩
      unfold TensorPool.allocateV4l2
      rw [if_neg (hsome q hq), hsys.ask.1]
      exact ⟨rfl, hq⟩
  | some n =>
      refine (Returns.trivial _).bind fun a _ => ?_
      cases a with
      | none =>
          refine .pure ⟨[.ok 0, .error .other], fun q hq sys hsys => ?_⟩
          obtain ⟨hopen, hsys'⟩ := hsys.ask
          unfold TensorPool.allocateV4l2
          rw [if_neg (hsome q hq), hopen]
          dsimp only
          rw [(hsys'.after (.openFd _ 0)).ask.1]
          exact ⟨rfl, hq.openDevice _ _⟩
      | some count =>
          -- the driver grants as many buffers on both levels
          refine .ite (fun hlt => .pure ⟨[.ok 0, .ok count], fun q hq sys hsys => ?_⟩) fun hge => ?_
          · obtain ⟨hopen, hsys'⟩ := hsys.ask
            unfold TensorPool.allocateV4l2
            rw [if_neg (hsome q hq), hopen]
            dsimp only
            rw [(hsys'.after (.openFd _ 0)).ask.1]
            dsimp only
            rw [if_pos (hq.cfg.nBuffers ▸ hlt)]
            exact ⟨rfl, hq.openDevice _ _⟩
          · have hall : Fills build psz { p with v4l2Fd := some (newFd n 0) }
                (allocateWith { p with v4l2Fd := some (newFd n 0) } (allocV4l2 (newFd n 0) p.bufferSize))
                fun q sys => q.allocateWith sys (Axon.allocV4l2 q.bufferSize) :=
              allocateWith_fills (allocV4l2_follows psz (newFd n 0) p.bufferSize)
            refine hall.mono fun r hr => ?_
            obtain ⟨answers, hr⟩ := hr
            refine ⟨.ok 0 :: .ok count :: answers, fun q hq sys hsys => ?_⟩
            obtain ⟨hopen, hsys'⟩ := hsys.ask
            obtain ⟨hgrant, hsys''⟩ := (hsys'.after (.openFd _ 0)).ask
            unfold TensorPool.allocateV4l2
            rw [if_neg (hsome q hq), hopen]
            dsimp only
            rw [hgrant]
            dsimp only
            rw [if_neg (hq.cfg.nBuffers ▸ hge)]
            exact hr _ (hq.openDevice _ _) _ hsys''

/-- **`allocate_accelerator`** on both levels. -/
theorem allocateAccelerator_fills : p.Fills build psz
    (if build.cuda then p.allocateWith (allocAccelerator p.bufferSize) else return (false, p))
    TensorPool.allocateAccelerator := by
  refine .ite (fun hcuda => ?_) fun hcuda => .pure ⟨[], fun q hq sys _ => ?_⟩
  · have hall : p.Fills build psz (p.allocateWith (allocAccelerator p.bufferSize)) fun q sys =>
        q.allocateWith sys (Axon.allocAccelerator q.bufferSize) :=
      allocateWith_fills (allocAccelerator_follows psz _)
    refine hall.mono fun r hr => ?_
    obtain ⟨answers, hr⟩ := hr
    refine ⟨answers, fun q hq sys hsys => ?_⟩
    unfold TensorPool.allocateAccelerator
    rw [if_pos (hq.build.symm ▸ hcuda)]
    exact hr q hq sys hsys
  · unfold TensorPool.allocateAccelerator
    rw [if_neg (hq.build.symm ▸ hcuda)]
    exact ⟨rfl, hq⟩

/-- A size is what another one is rounded up to, on pages of this size. -/
def RoundedTo (page n size : UInt64) : Prop := ∀ sys : Sys, sys.page = page → Axon.pageRoundUp sys n = size

/-- A size is rounded up to whole pages of some size. -/
theorem pageRoundUp_returns (n : UInt64) : Returns (pageRoundUp n) fun size => ∃ page, RoundedTo page n size := by
  refine (Returns.trivial _).bind fun answer _ => .pure ⟨.ofNat (answer.getD 0), fun sys hpage => ?_⟩
  unfold Axon.pageRoundUp pageSize
  rw [hpage]

/-- **A function that fills the pool** on both levels, where that of the message level is asked for `n` bytes a buffer
and the size is either the one rounded up or decided here. -/
def FillsRounded (build : BuildConfig) (psz : ℕ) (p : PoolImpl) (n : UInt64) (prog : Call (Bool × PoolImpl))
    (f : TensorPool → Sys → Bool × TensorPool × Sys) : Prop :=
  Returns prog fun r => ∃ page answers, ∀ q, p.Resembles build psz q → ∀ sys : Sys, sys.page = page →
    sys.Offers psz answers → q.bufferSize = Axon.pageRoundUp sys n →
      (f q sys).1 = r.1 ∧ r.2.Shows build psz (f q sys).2.1

/-- A pool that is filled keeps the size that was rounded up for it. -/
theorem Fills.rounded {prog : Call (Bool × PoolImpl)} {f : TensorPool → Sys → Bool × TensorPool × Sys}
    (h : p.Fills build psz prog f) {n : UInt64} (hn : ∃ page, RoundedTo page n p.bufferSize) :
    p.FillsRounded build psz n prog f := by
  obtain ⟨page, hround⟩ := hn
  refine h.mono fun r hr => ?_
  obtain ⟨answers, hr⟩ := hr
  refine ⟨page, answers, fun q hq sys hpage hsys hsize => hr q ⟨hq, ?_⟩ sys hsys⟩
  rw [hsize, hround sys hpage]

/-- The largest of the sizes is the same on both levels. -/
theorem foldl_max_eq {xs : List (Buffer × UInt64)} {xs' : List (PoolBuffer × UInt64)}
    (h : List.Forall₂ (fun x x' => x.2 = x'.2) xs xs') (maxSize : UInt64) :
    xs.foldl (fun maxSize x => if maxSize < x.2 then x.2 else maxSize) maxSize =
      xs'.foldl (fun maxSize x => if maxSize < x.2 then x.2 else maxSize) maxSize := by
  induction h generalizing maxSize with
  | nil => rfl
  | cons hx _ ih =>
      rw [List.foldl_cons, List.foldl_cons, hx]
      exact ih _

/-- **`allocate_nvbufsurface`** on both levels: the surfaces decide on the size. -/
theorem allocateNvbufsurface_fills {n : UInt64} (hn : ∃ page, RoundedTo page n p.bufferSize)
    (hjetson : build.jetson = true) :
    p.FillsRounded build psz n p.allocateNvbufsurface TensorPool.allocateNvbufsurface := by
  refine (allocLoop_follows (allocNvbufsurface_follows psz p.cfg.width p.cfg.height p.cfg.fourcc) p.cfg.nBuffers
    []).bind fun r hr => ?_
  obtain ⟨answers, made, hmade, hloop⟩ := hr
  rw [List.nil_append] at hmade
  -- the buffers made by the two loops correspond one by one
  have hbuffers : ∀ {q : TensorPool}, p.Resembles build psz q → ∀ {made' : List (PoolBuffer × UInt64)},
      List.Forall₂ (fun (b : Buffer × UInt64) (x : PoolBuffer × UInt64) => b.1.Shows x.1 ∧ b.2 = x.2) made made' →
        List.Forall₂ Buffer.Shows (p.buffers ++ r.2.map Prod.fst) (q.buffers ++ made'.map Prod.fst) := by
    intro q hq made' hall
    rw [hmade]
    refine List.rel_append hq.buffers ?_
    rw [List.forall₂_map_left_iff, List.forall₂_map_right_iff]
    exact hall.imp fun _ _ h => h.1
  refine .ite (fun hok => ?_) fun hfail => .pure ?_
  · refine (pageRoundUp_returns _).bind fun size hsize => ?_
    obtain ⟨page, hround⟩ := hsize
    refine (importParams_follows psz (p.buffers ++ r.2.map Prod.fst)).bind fun blob hblob => .pure ?_
    obtain ⟨answers', hblob⟩ := hblob
    refine ⟨page, answers ++ answers', fun q hq sys hpage hsys _ => ?_⟩
    -- all surfaces were made: the size is that of the largest one, rounded up
    obtain ⟨made', sys', heq, hall, hafter⟩ := hloop q.buffers 0 sys hsys.left
    rw [hq.cfg.nBuffers, hok] at heq
    have hshown := hbuffers hq hall
    obtain ⟨hlen, -⟩ := hblob (q.buffers ++ made'.map Prod.fst) sys' hshown.length_eq.symm (hsys.right hafter)
    have hsize := (hround sys' (hafter.page.trans hpage)).symm
    rw [hmade, foldl_max_eq (hall.imp fun _ _ h => h.2)] at hsize
    unfold TensorPool.allocateNvbufsurface
    rw [if_pos (hq.build.symm ▸ hjetson), heq]
    dsimp only
    rcases hread : nvbufImportBlob (q.buffers ++ made'.map Prod.fst) sys' with ⟨blob', sys''⟩
    rw [hread] at hlen
    -- without the parameters of one surface there is no blob
    cases blob with
    | none =>
        obtain rfl := Option.map_eq_none_iff.mp hlen
        exact ⟨rfl, ⟨hq.build, hq.cfg, hq.gen, hshown, hq.shareFds, hq.inUse, hq.ringHead, (Nat.zero_mul _).symm,
          hq.v4l2Fd⟩, hsize⟩
    | some blob =>
        obtain ⟨bytes, rfl, hbytes⟩ := Option.map_eq_some_iff.mp hlen
        exact ⟨rfl, ⟨hq.build, hq.cfg, hq.gen, hshown, hq.shareFds, hq.inUse, hq.ringHead, hbytes, hq.v4l2Fd⟩,
          hsize⟩
  -- a surface could not be made, so the size stays as configured
  · obtain ⟨page, hround⟩ := hn
    refine ⟨page, answers, fun q hq sys hpage hsys hsize => ?_⟩
    obtain ⟨made', sys', heq, hall, -⟩ := hloop q.buffers 0 sys hsys
    rw [hq.cfg.nBuffers, Bool.eq_false_iff.mpr hfail] at heq
    unfold TensorPool.allocateNvbufsurface
    rw [if_pos (hq.build.symm ▸ hjetson), heq]
    refine ⟨rfl, hq.addBuffers (hbuffers hq hall), ?_⟩
    rw [hsize, hround sys hpage]

/-- The function of the pool's backend is the one that both levels call. -/
theorem FillsRounded.of_backend {n : UInt64} {prog : Call (Bool × PoolImpl)}
    {f : TensorPool → Sys → Bool × TensorPool × Sys} {backend : PoolBackend} (hbackend : p.cfg.backend = backend)
    (h : p.FillsRounded build psz n prog f)
    (hf : ∀ q : TensorPool, q.build = build → q.cfg.backend = backend → q.allocateBackend = f q) :
    p.FillsRounded build psz n prog TensorPool.allocateBackend := by
  refine h.mono fun r hr => ?_
  obtain ⟨page, answers, hr⟩ := hr
  refine ⟨page, answers, fun q hq => ?_⟩
  rw [hf q hq.build (hq.cfg.backend.symm.trans hbackend)]
  exact hr q hq

/-- **The backend's part of `allocate`** on both levels. -/
theorem allocateBackend_fills (psz : ℕ) {n : UInt64} (hn : ∃ page, RoundedTo page n p.bufferSize) :
    p.FillsRounded build psz n (p.allocateBackend build) TensorPool.allocateBackend := by
  unfold allocateBackend
  cases hb : p.cfg.backend with
  | Custom =>
      have hall : p.Fills build psz (p.allocateWith (allocCustom p.bufferSize)) fun q sys =>
          q.allocateWith sys (Axon.allocCustom q.bufferSize) := allocateWith_fills (allocCustom_follows psz _)
      refine (hall.rounded hn).of_backend hb fun q _ hq => ?_
      unfold TensorPool.allocateBackend
      rw [hq]
      rfl
  | UDMABUF =>
      refine (allocateUdmabuf_fills.rounded hn).of_backend hb fun q _ hq => ?_
      unfold TensorPool.allocateBackend
      rw [hq]
  | V4L2 =>
      refine (allocateV4l2_fills.rounded hn).of_backend hb fun q _ hq => ?_
      unfold TensorPool.allocateBackend
      rw [hq]
  | Accelerator =>
      refine (allocateAccelerator_fills.rounded hn).of_backend hb fun q _ hq => ?_
      unfold TensorPool.allocateBackend
      rw [hq]
  -- a build without Jetson support refuses this backend
  | NvBufSurface =>
      have hf : ∀ q : TensorPool, q.cfg.backend = .NvBufSurface → q.allocateBackend = q.allocateNvbufsurface := by
        intro q hq
        unfold TensorPool.allocateBackend
        rw [hq]
      by_cases hjetson : build.jetson = true
      · dsimp only
        rw [if_pos hjetson]
        exact (allocateNvbufsurface_fills hn hjetson).of_backend hb fun q _ => hf q
      · dsimp only
        rw [if_neg hjetson]
        have hfail : p.Fills build psz (pure (false, p)) fun q sys => (false, q, sys) :=
          .pure ⟨[], fun q hq _ _ => ⟨rfl, hq⟩⟩
        refine (hfail.rounded hn).of_backend hb fun q hbuild hq => ?_
        rw [hf q hq]
        funext sys
        unfold TensorPool.allocateNvbufsurface
        rw [if_neg (hbuild ▸ hjetson)]

/-- A pool without buffers, on both levels. -/
theorem Shows.freed {q : TensorPool} (h : p.Shows build psz q) (sys : Sys) :
    p.freed.Shows build psz (q.freeAll sys).1 :=
  ⟨⟨h.build, h.cfg, h.gen, .nil, .nil, rfl, h.ringHead, (Nat.zero_mul _).symm, rfl⟩, h.bufferSize⟩

/-- A pool that has been filled, on both levels. -/
theorem Shows.filled {q : TensorPool} (h : p.Shows build psz q) : Shows build psz
    { p with inUse := .replicate p.buffers.length false, ringHead := 0, shareFds := p.buffers.map (·.shareFd) }
    { q with inUse := q.buffers.map fun _ => false, ringHead := 0, shareFds := q.buffers.map (·.shareFd) } := by
  refine ⟨⟨h.build, h.cfg, h.gen, h.buffers, ?_, ?_, rfl, h.importBlob, h.v4l2Fd⟩, h.bufferSize⟩
  · rw [List.forall₂_map_left_iff, List.forall₂_map_right_iff]
    exact h.buffers.imp fun _ _ hb => hb.shareFd
  · rw [List.map_const', h.buffers.length_eq]

/-- **`allocate`** on both levels. -/
theorem allocate_fills (build : BuildConfig) (psz : ℕ) {n : UInt64} (hn : ∃ page, RoundedTo page n p.bufferSize) :
    p.FillsRounded build psz n (p.allocate build) TensorPool.allocate := by
  refine (allocateBackend_fills psz hn).bind fun r hr => ?_
  obtain ⟨page, answers, hr⟩ := hr
  refine .ite (fun hok => .pure ⟨page, answers, fun q hq sys hpage hsys hsize => ?_⟩) fun hfail => ?_
  · obtain ⟨hflag, hshows⟩ := hr q hq sys hpage hsys hsize
    unfold TensorPool.allocate
    rcases heq : q.allocateBackend sys with ⟨flag, q', sys'⟩
    rw [heq] at hflag hshows
    obtain rfl : flag = true := hflag.trans hok
    exact ⟨rfl, hshows.filled⟩
  -- what was allocated before the failure is freed again
  · refine (freeAll_returns build r.2).bind fun p' hp' => .pure ⟨page, answers, fun q hq sys hpage hsys hsize => ?_⟩
    subst hp'
    obtain ⟨hflag, hshows⟩ := hr q hq sys hpage hsys hsize
    unfold TensorPool.allocate
    rcases heq : q.allocateBackend sys with ⟨flag, q', sys'⟩
    rw [heq] at hflag hshows
    obtain rfl : flag = false := hflag.trans (Bool.eq_false_iff.mpr hfail)
    exact ⟨rfl, hshows.freed sys'⟩

/-- What `create` makes of the message level's allocation. -/
theorem create_of_allocate {build : BuildConfig} {cfg : TensorPoolConfig} {sys : Sys} (hbuffers : cfg.nBuffers ≠ 0)
    (hsized : ¬(cfg.bufferSize = 0 ∧ cfg.backend ≠ .NvBufSurface)) : (TensorPool.create build cfg sys).1 =
      if ((TensorPool.unallocated build cfg sys).allocate sys).1 then
        some ((TensorPool.unallocated build cfg sys).allocate sys).2.1
      else none := by
  unfold TensorPool.create
  rw [if_neg hbuffers, if_neg hsized]
  rcases heq : (TensorPool.unallocated build cfg sys).allocate sys with ⟨flag, q, sys'⟩
  unfold TensorPool.unallocated at heq
  dsimp only
  rw [heq]
  cases flag with
  | true => rfl
  | false => rfl

/-- **`create`** on both levels. -/
theorem create_refines (build : BuildConfig) (psz : ℕ) {cfg : PoolConfig} {cfg' : TensorPoolConfig}
    (hcfg : cfg.Shows cfg') : Returns (create build cfg) fun r => ∃ page answers, ∀ sys : Sys, sys.page = page →
      sys.Offers psz answers → Option.Rel (Shows build psz) r (TensorPool.create build cfg' sys).1 := by
  refine .ite (fun hnone => .pure ⟨0, [], fun sys _ _ => ?_⟩) fun hsome =>
    .ite (fun hempty => .pure ⟨0, [], fun sys _ _ => ?_⟩) fun hsized => ?_
  -- no buffers, or an empty size where the backend needs one
  · unfold TensorPool.create
    rw [if_pos (hcfg.nBuffers ▸ hnone)]
    exact .none
  · unfold TensorPool.create
    rw [if_neg (hcfg.nBuffers ▸ hsome), if_pos (hcfg.bufferSize ▸ hcfg.backend ▸ hempty)]
    exact .none
  rw [hcfg.nBuffers] at hsome
  rw [hcfg.bufferSize, hcfg.backend] at hsized
  refine (pageRoundUp_returns cfg.bufferSize).bind fun size hsize => ?_
  -- both levels begin with an empty pool of the rounded size
  have hempty : ∀ sys, (unallocated cfg size).Resembles build psz (TensorPool.unallocated build cfg' sys) := fun sys =>
    ⟨rfl, hcfg, rfl, .nil, .nil, rfl, rfl, (Nat.zero_mul _).symm, rfl⟩
  refine (allocate_fills build psz (p := unallocated cfg size) hsize).bind fun r hr => ?_
  obtain ⟨page, answers, hr⟩ := hr
  rw [hcfg.bufferSize] at hr
  refine .ite (fun hok => .pure ⟨page, answers, fun sys hpage hsys => ?_⟩) fun hfail =>
    (Returns.trivial _).bind fun _ _ => .pure ⟨page, answers, fun sys hpage hsys => ?_⟩
  · obtain ⟨hflag, hshows⟩ := hr _ (hempty sys) sys hpage hsys rfl
    rw [create_of_allocate hsome hsized, if_pos (hflag.trans hok)]
    exact .some hshows
  · obtain ⟨hflag, -⟩ := hr _ (hempty sys) sys hpage hsys rfl
    rw [create_of_allocate hsome hsized, if_neg (hflag ▸ hfail)]
    exact .none

/-- **`retire_and_reallocate`** on both levels. -/
theorem retireAndReallocate_refines {q : TensorPool} (hq : p.Shows build psz q) (n : UInt64) :
    Returns (p.retireAndReallocate build n) fun p' => ∃ page answers, ∀ sys : Sys, sys.page = page →
      sys.Offers psz answers → p'.Shows build psz (q.retireAndReallocate n sys).1 := by
  refine (freeAll_returns build p).bind fun p' hp' => (pageRoundUp_returns n).bind fun size hsize => ?_
  subst hp'
  have hfills := allocate_fills build psz (p := { p.freed with bufferSize := size, gen := p.gen + 1 }) hsize
  refine hfills.bind fun r hr => .pure ?_
  obtain ⟨page, answers, hr⟩ := hr
  refine ⟨page, answers, fun sys hpage hsys => ?_⟩
  have hfreed : sys.After (q.freeAll sys).2 0 := ⟨q.freeAll_callsOn sys, (q.freeAll_spec sys).2.1⟩
  have hempty := (hq.freed sys).toResembles
  have hretired : Resembles build psz { p.freed with bufferSize := size, gen := p.gen + 1 } (q.retired n sys) :=
    ⟨hempty.build, hempty.cfg, congrArg (· + 1) hq.gen, .nil, .nil, rfl, hempty.ringHead, hempty.importBlob, rfl⟩
  exact (hr _ hretired _ (hfreed.page.trans hpage) (hsys.after hfreed) rfl).2

end PoolImpl

/-- **The pool with its resources refines the message level's.** Whatever the calls below answer, there are a page size
and answers with which the message level's pool does the same: `create` fails on both levels or makes the same pool,
and `retire_and_reallocate` leaves the same pool, filled or empty. -/
theorem pool_refines (build : BuildConfig) (psz : ℕ) :
    (∀ (cfg : PoolConfig) (cfg' : TensorPoolConfig), cfg.Shows cfg' → ∀ k : Process, ∃ page answers,
      ∀ sys : Sys, sys.page = page → sys.Offers psz answers →
        Option.Rel (PoolImpl.Shows build psz) (PoolImpl.create build cfg k).1 (TensorPool.create build cfg' sys).1) ∧
    ∀ (p : PoolImpl) (q : TensorPool), p.Shows build psz q → ∀ (newBufferSize : UInt64) (k : Process),
      ∃ page answers, ∀ sys : Sys, sys.page = page → sys.Offers psz answers →
        (p.retireAndReallocate build newBufferSize k).1.Shows build psz
          (q.retireAndReallocate newBufferSize sys).1 :=
  ⟨fun _ _ hcfg => PoolImpl.create_refines build psz hcfg, fun _ _ hq n => PoolImpl.retireAndReallocate_refines hq n⟩

end Axon.Device
