import Axon.Device.SubscriberResources
import Axon.Sidecar.FdLedger

/-! # The subscriber with its resources refines the subscriber of the message level

`TensorSubscriber` says what a subscriber does with the bundle it receives when some of its mappings succeed; `Impl`
makes the mappings, call by call. `Impl.Shows` relates the two, and every call keeps it: the answers that
`TensorSubscriber` takes as a parameter are those that the system gives to the calls of `Impl`.

* **`attachAnswers`** and **`handshakeAnswers`**: what the system answers, call by call, read off the state in which
  each call is made.
* **`attach_shows`**: one record for every FD on either side, and a mapping in the same places.
* **`subscriber_refines`**: the calls of `Impl` are those of `TensorSubscriber`, with these answers. -/

namespace Axon.Device

open Foundation Prog

/-! ## What the system answers -/

/-- The granularity that the driver tells `accel_import`, called in this state: the answer that follows those to
`accel_init`. -/
def granularityAsked (k : Process) : UInt64 :=
  ((accelInit k).2.answer (accelInit k).2.asked).elim 0 .ofNat

/-- The size of whole granules, by the driver's answer. -/
theorem alignedSize_eq (size : UInt64) (k : Process) : (alignedSize size k).1 =
    (k.answer k.asked).elim 0 fun gran => Axon.alignedSize (.ofNat gran) size := by
  unfold alignedSize
  rw [bind_apply]
  unfold ask
  dsimp only
  cases k.answer k.asked <;> rfl

/-- **An import that succeeds has been told a granularity**, at which the buffer has a size. -/
theorem accelImport_granularity {exportFd : Fd} {size : UInt64} {k : Process}
    (h : (accelImport exportFd size k).1.isSome = true) :
    size ≠ 0 ∧ Axon.alignedSize (granularityAsked k) size ≠ 0 := by
  obtain ⟨b, hb⟩ := Option.isSome_iff_exists.mp h
  have hsize := (accelImport_returns exportFd size k b hb).size_ne_zero
  unfold accelImport at h
  rw [if_neg hsize, bind_apply] at h
  -- without a driver nothing is imported
  cases hinit : (accelInit k).1 with
  | false =>
      rw [hinit] at h
      cases h
  | true =>
      rw [hinit, if_pos rfl, bind_apply] at h
      -- a failed query counts as a granularity of zero at both levels
      have hsz : (alignedSize size (accelInit k).2).1 = Axon.alignedSize (granularityAsked k) size := by
        rw [alignedSize_eq, granularityAsked]
        cases (accelInit k).2.answer (accelInit k).2.asked with
        | none => rfl
        | some gran => rfl
      rw [hsz] at h
      refine ⟨hsize, fun hzero => ?_⟩
      rw [if_pos hzero] at h
      cases h

/-- A call that opens something returns the system's answer. -/
theorem opening_eq (res : ℕ → Resource) (k : Process) : (opening res k).1 = k.answer k.asked := by
  unfold opening
  rw [bind_apply]
  unfold ask
  dsimp only
  cases k.answer k.asked <;> rfl

/-- `mmap` returns an address exactly when the system answers with one. -/
theorem mmap_isSome (fd : Fd) (length : UInt64) (k : Process) :
    (mmap fd length k).1.isSome = (k.answer k.asked).isSome := by
  have hask : (useFd fd k).2.answer (useFd fd k).2.asked = k.answer k.asked := by
    unfold useFd accessWhere
    split_ifs <;> rfl
  unfold mmap
  rw [bind_apply, opening_eq, hask]

/-- The channel of a slot that has been mapped: the notify fields are there when all of it is. -/
def SlotMapping.channel (m : SlotMapping) : MetadataChannel := ⟨decide (m.mapLen = .ofNat MetadataSlot.size)⟩

/-- It is the channel that the size of the slot's file makes. -/
theorem SlotMapping.channel_mapLen (slot : ℕ) (stSize : Option ℕ) :
    SlotMapping.channel ⟨slot, Device.mapLen stSize⟩ = .createSubscriber stSize := by
  have hsize : MetadataSlot.size < 2 ^ 64 := by decide +kernel
  unfold channel Device.mapLen MetadataChannel.createSubscriber
  cases stSize with
  | none => simp
  | some n =>
      by_cases hn : n < MetadataSlot.size
      · have hne : UInt64.ofNat n ≠ .ofNat MetadataSlot.size := fun h => by
          have := congrArg UInt64.toNat h
          rw [UInt64.toNat_ofNat_of_lt' (by show n < 2 ^ 64; omega), UInt64.toNat_ofNat_of_lt' hsize] at this
          omega
        simp [hn, hne]
      · simp [hn]

namespace Impl

/-- The part of the blob that belongs to a surface. -/
def paramsOf (psz : ℕ) (ext : List UInt8) (i : ℕ) : List UInt8 := (ext.drop (i * psz)).take psz

/-- Bytes of the CUDA view of a surface, if it has one. -/
def viewBytes (x : NvBuf × NvBufCuda) : Option UInt64 := x.2.devicePtr.map fun _ => x.1.size

/-- `accel_import`, called in this state, imports the buffer. -/
def imported (f : Impl) (pass : Fd × Process) : Bool := (accelImport pass.1 f.bufferSize pass.2).1.isSome

/-- **What the system answers to the calls that attach a bundle's buffers**, of which the first is made in state `k`:
the answers to the `i`-th buffer are those given in the `i`-th pass of the loop over the buffers. -/
def attachAnswers (build : BuildConfig) (psz : ℕ) (f : Impl) (ext : List UInt8) (k : Process) : HandshakeAnswers where
  connect := none
  mmap i := ((passes (fun fd => mmap fd f.bufferSize) f.fds k)[i]?).any fun x => (x.2.answer x.2.asked).isSome
  -- as the driver tells it when it imports the first of the buffers it does import
  granularity := ((passes (importBuffer f.bufferSize) f.fds k).find? f.imported).elim 0 fun x => granularityAsked x.2
  accelImport i := ((passes (importBuffer f.bufferSize) f.fds k)[i]?).any f.imported
  -- the surfaces come after the host mappings
  nvbufMap i :=
    ((passes (fun x : Fd × ℕ => importSurface build x.1 (paramsOf psz ext x.2)) f.fds.zipIdx (f.mapHost k).2)[i]?).bind
      fun x => viewBytes (importSurface build x.1.1 (paramsOf psz ext x.1.2) x.2).1
  nvbufImportParamsSize := psz
  metadata := none

/-- The same from the version check on: the buffers are attached after `detach`, and the metadata slot is opened
last. -/
def adoptAnswers (build : BuildConfig) (psz : ℕ) (f : Impl) (timeoutMs : ℤ) (hdr : PoolHandshakeHeader)
    (received : List Fd) (ext : List UInt8) (k : Process) : HandshakeAnswers :=
  let detached := f.detach build k
  let f := detached.1.withBundle hdr received
  let attached := f.attach build psz hdr ext detached.2
  let closed := closeMetadata attached.1.metadata attached.2
  { f.attachAnswers build psz ext detached.2 with
    metadata := (createSubscriber timeoutMs closed.2).1.map SlotMapping.channel }

/-- **What the system answers in the course of one `wait_handshake`** that begins in state `k`, on whose connection
`stream` arrives. -/
def handshakeAnswers (build : BuildConfig) (psz : ℕ) (f : Impl) (timeoutMs : ℤ) (stream : List Segment)
    (recv : Except Errno (PoolHandshakeHeader × List Fd × List UInt8)) (k : Process) : HandshakeAnswers :=
  let connected := connect f.sock timeoutMs k
  let f := { f with sock := connected.1 }
  let answers :=
    match recv with
    -- nothing else is called
    | .error _ => attachAnswers build psz f [] connected.2
    | .ok (hdr, received, ext) =>
        adoptAnswers build psz f timeoutMs hdr received ext
          ((received.forM fun fd => acquire (.fd fd) : Call Unit) connected.2).2
  { answers with connect := connected.1.map fun _ => stream }

/-! ## The relation -/

/-- **What the message level sees of a subscriber**: the same FDs and fences, the same channel, and a mapping in the
same places. -/
structure Shows (f : Impl) (s : TensorSubscriber) : Prop where
  fds : f.fds = s.fds
  fences : f.fences = s.fences.ring
  bufferSize : f.bufferSize = s.bufferSize
  poolGeneration : f.poolGeneration = s.poolGeneration
  deviceBacked : f.deviceBacked = s.deviceBacked
  views : f.views.map Option.isSome = s.views.map Option.isSome
  devicePtrs : f.devicePtrs.map Option.isSome = s.devicePtrs.map Option.isSome
  metadata : f.metadata.map SlotMapping.channel = s.metadata

/-- Mappings in the places where there are pointers. -/
theorem map_isSome_mapFds {ptrs : List (Option ℕ)} {fds : List Fd} {length : ℕ → Option UInt64} (base : ℕ)
    (hlen : ptrs.length = fds.length) (h : ∀ i (hi : i < ptrs.length), (length i).isSome = ptrs[i].isSome) :
    ptrs.map Option.isSome = (TensorSubscriber.mapFds base fds length).map Option.isSome := by
  refine List.ext_getElem ?_ fun i h₁ h₂ => ?_
  · simp [TensorSubscriber.mapFds, hlen]
  · rw [List.length_map] at h₁
    simp [TensorSubscriber.mapFds, h i h₁]

variable {build : BuildConfig} {psz : ℕ} {f : Impl} {s : TensorSubscriber}

/-- A mapping that is made when the answer is yes. -/
theorem isSome_of_answer {α : Type} (answer : Bool) (a : α) : (if answer then some a else none).isSome = answer := by
  cases answer <;> rfl

/-- **Mapping the buffers** on both levels. -/
theorem mapHost_shows (build : BuildConfig) (psz : ℕ) (h : f.Shows s) (ext : List UInt8) (k : Process) :
    (f.mapHost k).1.Shows (s.mapHost (f.attachAnswers build psz ext k)) := by
  refine ⟨h.fds, h.fences, h.bufferSize, h.poolGeneration, h.deviceBacked, ?_, h.devicePtrs, h.metadata⟩
  show (f.fds.mapM (fun fd => mmap fd f.bufferSize) k).1.map Option.isSome = _
  rw [mapM_apply_fst]
  refine map_isSome_mapFds _ (by simp [h.fds]) fun i hi => (isSome_of_answer _ _).trans ?_
  rw [List.length_map] at hi
  show Option.any _ (passes _ f.fds k)[i]? = _
  rw [List.getElem?_eq_getElem hi, Option.any_some, List.getElem_map]
  exact (mmap_isSome _ _ _).symm

/-- A buffer is imported exactly when it gets a device pointer. -/
theorem importBuffer_isSome (pass : Fd × Process) :
    (importBuffer f.bufferSize pass.1 pass.2).1.devicePtr.isSome = f.imported pass := by
  show ((accelImport pass.1 f.bufferSize pass.2).1.getD .zeroed).devicePtr.isSome = _
  unfold imported
  cases himport : (accelImport pass.1 f.bufferSize pass.2).1 with
  | none => rfl
  | some b => exact (accelImport_returns pass.1 f.bufferSize pass.2 b himport).devicePtr

/-- **Once a buffer has been imported**, the buffers have a size at the granularity answered. -/
theorem attachAnswers_granularity {ext : List UInt8} {k : Process} {pass : Fd × Process}
    (hmem : pass ∈ passes (importBuffer f.bufferSize) f.fds k) (himport : f.imported pass = true) :
    f.bufferSize ≠ 0 ∧
      Axon.alignedSize (f.attachAnswers build psz ext k).granularity f.bufferSize ≠ 0 := by
  unfold attachAnswers
  cases hfirst : (passes (importBuffer f.bufferSize) f.fds k).find? f.imported with
  | none => exact absurd himport (List.find?_eq_none.mp hfirst pass hmem)
  | some first =>
      have hsome : f.imported first = true := List.find?_some hfirst
      exact accelImport_granularity hsome

/-- **Importing the buffers** on both levels. -/
theorem importDevice_shows (h : f.Shows s) (ext : List UInt8) (k : Process) :
    (f.importDevice k).1.Shows (s.importDevice (f.attachAnswers build psz ext k)) := by
  refine ⟨h.fds, h.fences, h.bufferSize, h.poolGeneration, h.deviceBacked, h.views, ?_, h.metadata⟩
  show ((f.fds.mapM (importBuffer f.bufferSize) k).1.map (·.devicePtr)).map Option.isSome = _
  rw [mapM_apply_fst]
  refine map_isSome_mapFds _ (by simp [h.fds]) fun i hi => ?_
  rw [List.length_map, List.length_map] at hi
  -- whether the buffer is imported is asked in the state in which its pass begins
  have hanswer : (f.attachAnswers build psz ext k).accelImport i =
      f.imported (passes (importBuffer f.bufferSize) f.fds k)[i] := by
    show Option.any _ (passes _ f.fds k)[i]? = _
    rw [List.getElem?_eq_getElem hi, Option.any_some]
  rw [List.getElem_map, List.getElem_map]
  refine Eq.trans ?_ (importBuffer_isSome _).symm
  rw [Bool.eq_iff_iff, Option.isSome_ite, hanswer, ← h.bufferSize]
  refine ⟨fun hok => hok.2.2, fun himport => ?_⟩
  obtain ⟨hsize, halign⟩ := attachAnswers_granularity (List.getElem_mem hi) himport
  exact ⟨hsize, halign, himport⟩

/-- **Importing the surfaces** on both levels, after the buffers have been mapped. -/
theorem importSurfaces_shows (h : f.Shows s) {ext : List UInt8} (hext : ext.length = f.fds.length * psz)
    (k : Process) : ((f.mapHost k).1.importSurfaces build psz ext (f.mapHost k).2).1.Shows
      ((s.mapHost (f.attachAnswers build psz ext k)).importSurfaces ext (f.attachAnswers build psz ext k)) := by
  have hmapped := mapHost_shows build psz h ext k
  have hlen : ext.length = s.fds.length * psz := h.fds ▸ hext
  -- the blob has the right length, so the surfaces are imported at the message level too
  have himport : (s.mapHost (f.attachAnswers build psz ext k)).importSurfaces ext (f.attachAnswers build psz ext k) =
      { s.mapHost (f.attachAnswers build psz ext k) with
        devicePtrs := TensorSubscriber.mapFds (s.nextBase + s.fds.length) s.fds
          (f.attachAnswers build psz ext k).nvbufMap
        nextBase := s.nextBase + s.fds.length + s.fds.length } := if_pos hlen
  rw [himport]
  refine ⟨hmapped.fds, hmapped.fences, hmapped.bufferSize, hmapped.poolGeneration, hmapped.deviceBacked,
    hmapped.views, ?_, hmapped.metadata⟩
  show ((f.fds.zipIdx.mapM (fun x : Fd × ℕ => importSurface build x.1 (paramsOf psz ext x.2))
    (f.mapHost k).2).1.map (·.2.devicePtr)).map Option.isSome = _
  rw [mapM_apply_fst]
  refine map_isSome_mapFds _ (by simp [h.fds]) fun i hi => ?_
  rw [List.length_map, List.length_map] at hi
  rw [List.getElem_map, List.getElem_map]
  show Option.isSome (Option.bind (passes _ f.fds.zipIdx (f.mapHost k).2)[i]? _) = _
  rw [List.getElem?_eq_getElem hi, Option.bind_some]
  exact Option.isSome_map

/-- **Attaching the buffers** on both levels. -/
theorem attach_shows (build : BuildConfig) (psz : ℕ) (h : f.Shows s) (hdr : PoolHandshakeHeader) (ext : List UInt8) (k : Process) :
    (f.attach build psz hdr ext k).1.Shows (s.attach build hdr ext (f.attachAnswers build psz ext k)) := by
  unfold attach TensorSubscriber.attach
  rw [h.deviceBacked]
  -- by backend, as `wait_handshake` does: device memory, surfaces, host memory
  split_ifs with hdev hsurf
  · exact importDevice_shows h ext k
  · by_cases hext : ext.length = f.fds.length * psz
    · rw [bind_apply, if_pos ⟨hsurf.1, hsurf.2, hext⟩]
      exact importSurfaces_shows h hext k
    -- a blob of another length is passed over at both levels
    · have himport : (s.mapHost (f.attachAnswers build psz ext k)).importSurfaces ext
          (f.attachAnswers build psz ext k) = s.mapHost (f.attachAnswers build psz ext k) :=
        if_neg (h.fds ▸ hext)
      rw [bind_apply, if_neg fun hbundle => hext hbundle.2.2]
      dsimp only
      rw [himport]
      exact mapHost_shows build psz h ext k
  · rw [bind_apply, if_neg fun hbundle => hsurf ⟨hbundle.1, hbundle.2.1⟩]
    exact mapHost_shows build psz h ext k

/-- The link and the stream do not matter. -/
theorem Shows.relink (h : f.Shows s) (sock : Option Fd) (stream : List Segment) (client : SidecarClient) :
    Shows { f with sock := sock } { s.reconnect stream with client := client } :=
  ⟨h.fds, h.fences, h.bufferSize, h.poolGeneration, h.deviceBacked, h.views, h.devicePtrs, h.metadata⟩

/-- Closing FDs that were never adopted does not matter either. -/
theorem Shows.close (h : f.Shows s) (fds : List Fd) : f.Shows (s.close fds) :=
  ⟨h.fds, h.fences, h.bufferSize, h.poolGeneration, h.deviceBacked, h.views, h.devicePtrs, h.metadata⟩

/-- **Adopting a bundle** on both levels. -/
theorem Shows.adopt (h : f.Shows s) (hdr : PoolHandshakeHeader) (received : List Fd) :
    Shows (f.detached.withBundle hdr received) (s.adopt hdr received) := by
  refine ⟨rfl, ?_, rfl, rfl, rfl, rfl, rfl, h.metadata⟩
  show clearedFences f.fences = (s.fences.closeFences).ring
  rw [h.fences]
  rfl

/-- The part of the message level's `wait_handshake` that follows the version check. -/
def adoptBundle (build : BuildConfig) (s : TensorSubscriber) (hdr : PoolHandshakeHeader) (received : List Fd)
    (ext : List UInt8) (ans : HandshakeAnswers) : Except Errno Unit × TensorSubscriber :=
  let s := s.adopt hdr received
  if s.deviceBacked = true ∧ build.cuda = false then (.error .ENOTSUP, s)
  else (s.attach build hdr ext ans).openMetadata ans

/-- The results of a call on both levels. -/
structure Agree (r : Bool × Impl) (r' : Except Errno Unit × TensorSubscriber) : Prop where
  shows : r.2.Shows r'.2
  ok : r.1 = true ↔ r'.1 = .ok ()

/-- **Opening the metadata slot** on both levels. -/
theorem Shows.openMetadata (h : f.Shows s) (m : Option SlotMapping) {ans : HandshakeAnswers}
    (hans : ans.metadata = m.map SlotMapping.channel) :
    Agree (m.isSome, { f with metadata := m }) (s.openMetadata ans) := by
  unfold TensorSubscriber.openMetadata
  rw [hans]
  cases m with
  | none => exact ⟨⟨h.fds, h.fences, h.bufferSize, h.poolGeneration, h.deviceBacked, h.views, h.devicePtrs, rfl⟩,
      by simp⟩
  | some m => exact ⟨⟨h.fds, h.fences, h.bufferSize, h.poolGeneration, h.deviceBacked, h.views, h.devicePtrs, rfl⟩,
      by simp⟩

/-- **A handshake that gets a bundle of this wire version** on both levels. -/
theorem adopt_refines (h : f.Shows s) (timeoutMs : ℤ) (hdr : PoolHandshakeHeader) (received : List Fd)
    (ext : List UInt8) (k : Process) : Agree (f.adopt build psz timeoutMs hdr received ext k).1
      (adoptBundle build s hdr received ext (f.adoptAnswers build psz timeoutMs hdr received ext k)) := by
  have hdetach : (f.detach build k).1 = f.detached := detach_returns build f k
  have hadopt := h.adopt hdr received
  unfold adopt adoptBundle adoptAnswers
  rw [bind_apply]
  dsimp only
  rw [hdetach, hadopt.deviceBacked]
  split_ifs with hoff
  · exact ⟨hadopt, by simp⟩
  · have hattached := attach_shows build psz hadopt hdr ext (f.detach build k).2
    rw [bind_apply]
    exact hattached.openMetadata _ rfl

/-- **`wait_handshake`** on both levels, on a connection on which `stream` arrives. -/
theorem waitHandshake_refines (build : BuildConfig) (psz : ℕ) (h : f.Shows s) (timeoutMs : ℤ)
    (stream : List Segment) (k : Process) : Agree
      (f.waitHandshake build psz timeoutMs (s.reconnect stream).client.recvPoolHandshake.1 k).1
      (s.waitHandshake build (f.handshakeAnswers build psz timeoutMs stream
        (s.reconnect stream).client.recvPoolHandshake.1 k)) := by
  rcases hrecv : (s.reconnect stream).client.recvPoolHandshake with ⟨recv, client⟩
  unfold waitHandshake
  rw [bind_apply]
  -- no server, a broken bundle, another version: the attachment stays
  cases hsock : (connect f.sock timeoutMs k).1 with
  | none =>
      have hans : (f.handshakeAnswers build psz timeoutMs stream recv k).connect = none := by
        show (connect f.sock timeoutMs k).1.map _ = none
        rw [hsock, Option.map_none]
      unfold TensorSubscriber.waitHandshake
      rw [hans]
      exact ⟨h, by simp⟩
  | some sock =>
      have hans : (f.handshakeAnswers build psz timeoutMs stream recv k).connect = some stream := by
        show (connect f.sock timeoutMs k).1.map _ = some stream
        rw [hsock, Option.map_some]
      have hrelink := h.relink (some sock) stream client
      cases recv with
      | error e =>
          rw [TensorSubscriber.waitHandshake_of_error hans hrecv]
          exact ⟨hrelink, by simp⟩
      | ok bundle =>
          obtain ⟨hdr, received, ext⟩ := bundle
          dsimp only
          rw [bind_apply]
          split_ifs with hversion
          · rw [TensorSubscriber.waitHandshake_of_ne hans hrecv hversion]
            exact ⟨hrelink.close received, by simp⟩
          -- the FDs of the bundle have been installed before the attachment is replaced
          · let k' := ((received.forM fun fd => acquire (.fd fd) : Call Unit) (connect f.sock timeoutMs k).2).2
            have hanswers : f.handshakeAnswers build psz timeoutMs stream (.ok (hdr, received, ext)) k =
                { adoptAnswers build psz { f with sock := some sock } timeoutMs hdr received ext k' with
                  connect := some stream } := by
              unfold handshakeAnswers
              dsimp only
              rw [hsock]
              rfl
            rw [TensorSubscriber.waitHandshake_of_eq hans hrecv (not_not.mp hversion), hanswers]
            exact adopt_refines hrelink timeoutMs hdr received ext k'

/-! ## Draining fences -/

/-- What a poll of the sidecar hands over, in this order. -/
def delivered (c : SidecarClient) (ready : ℕ) : List (UInt64 × Fd) :=
  (c.pollSyncFences (some fun handed token fd => handed ++ [(token, fd)]) ready []).ctx

section

variable {σ : Type} (sink : σ → UInt64 → Fd → σ) (ctx : σ)

/-- A poll with any sink, beside one that writes down what it is handed. -/
structure WrittenDown (st : SidecarClient.PollState σ) (written : SidecarClient.PollState (List (UInt64 × Fd))) :
    Prop where
  client : st.client = written.client
  ctx : st.ctx = written.ctx.foldl (fun ctx x => sink ctx x.1 x.2) ctx

variable {sink ctx} {st : SidecarClient.PollState σ} {written : SidecarClient.PollState (List (UInt64 × Fd))}

/-- **A round of `poll_sync_fences`** does the same with either sink. -/
theorem WrittenDown.pollRound (h : WrittenDown sink ctx st written) :
    (SidecarClient.pollRound (some sink) st).1 =
        (SidecarClient.pollRound (some fun handed token fd => handed ++ [(token, fd)]) written).1 ∧
      WrittenDown sink ctx (SidecarClient.pollRound (some sink) st).2
        (SidecarClient.pollRound (some fun handed token fd => handed ++ [(token, fd)]) written).2 := by
  have hkeep : ∀ c, WrittenDown sink ctx { st with client := c } { written with client := c } :=
    fun c => ⟨rfl, h.ctx⟩
  unfold SidecarClient.pollRound
  rw [h.client]
  cases written.client.peek with
  | none => exact ⟨rfl, h⟩
  | some tag =>
      dsimp only
      rcases written.client.recvFds _ with ⟨read, c⟩
      cases read with
      | error e => exact ⟨rfl, hkeep c⟩
      | ok read =>
          dsimp only
          split_ifs
          · -- a fence goes to the sink when its message carries one FD
            split
            · refine ⟨rfl, rfl, ?_⟩
              show sink st.ctx _ _ = (written.ctx ++ [_]).foldl _ ctx
              rw [List.foldl_append, ← h.ctx]
              rfl
            · exact ⟨rfl, hkeep _⟩
          · split <;> exact ⟨rfl, hkeep _⟩
          · exact ⟨rfl, hkeep _⟩

/-- **The loop of `poll_sync_fences`** does the same with either sink. -/
theorem WrittenDown.pollLoop (h : WrittenDown sink ctx st written) (ready : ℕ) :
    WrittenDown sink ctx (SidecarClient.pollLoop (some sink) ready st)
      (SidecarClient.pollLoop (some fun handed token fd => handed ++ [(token, fd)]) ready written) := by
  induction ready generalizing st written with
  | zero => exact h
  | succ ready ih =>
      obtain ⟨hflag, hround⟩ := h.pollRound
      unfold SidecarClient.pollLoop
      revert hflag hround
      rcases SidecarClient.pollRound (some sink) st with ⟨flag, st'⟩
      rcases SidecarClient.pollRound (some fun handed token fd => handed ++ [(token, fd)]) written
        with ⟨flag', written'⟩
      rintro rfl hround
      cases flag with
      | true => exact ih hround
      | false => exact hround

end

/-- **`drain_fences`** stores the fences delivered and does nothing else. -/
theorem drainFences_returns (f : Impl) (delivered : List (UInt64 × Fd)) : Returns (f.drainFences delivered)
    fun f' => f' = { f with
      fences := delivered.foldl (fun ring x => ring.store ⟨x.1, some x.2⟩) f.fences } := by
  induction delivered generalizing f with
  | nil => exact .pure rfl
  | cons x delivered ih =>
      refine (Returns.trivial _).bind fun _ _ => ?_
      have hstore : Returns (storeFence f.fences x.1 x.2) fun ring => ring = f.fences.store ⟨x.1, some x.2⟩ :=
        (Returns.trivial _).bind fun _ _ => .pure rfl
      refine hstore.bind fun ring hring => ?_
      subst hring
      exact ih _

/-- Storing fences on both levels. -/
theorem foldl_storeFence (delivered : List (UInt64 × Fd)) (cache : FenceCache) :
    (delivered.foldl (fun cache x => cache.storeFence x.1 x.2) cache).ring =
      delivered.foldl (fun ring x => ring.store ⟨x.1, some x.2⟩) cache.ring := by
  induction delivered generalizing cache with
  | nil => rfl
  | cons x delivered ih => exact ih _

/-- **`drain_fences`** on both levels: the fences are those that the poll hands over. -/
theorem drainFences_refines (h : f.Shows s) (ready : ℕ) (k : Process) :
    (f.drainFences (delivered s.client ready) k).1.Shows (s.drainFences ready).2 := by
  rw [drainFences_returns f (delivered s.client ready) k]
  have hstart : WrittenDown FenceCache.storeFence s.fences ⟨0, s.fences, s.client⟩ ⟨0, [], s.client⟩ := ⟨rfl, rfl⟩
  have hring : (s.drainFences ready).2.fences.ring =
      (delivered s.client ready).foldl (fun ring x => ring.store ⟨x.1, some x.2⟩) s.fences.ring := by
    rw [← foldl_storeFence]
    exact congrArg FenceCache.ring (hstart.pollLoop ready).ctx
  refine ⟨h.fds, ?_, h.bufferSize, h.poolGeneration, h.deviceBacked, h.views, h.devicePtrs, h.metadata⟩
  rw [hring, h.fences]

end Impl

/-- **The subscriber with its resources refines the message level's.** A new one shows a new one, and every call keeps
this in every state `k` of the process: a handshake on a connection on which `stream` arrives does what
`TensorSubscriber.waitHandshake` does for the answers that the system gives to its calls, and succeeds with it; and
a drained subscriber shows a drained one. -/
theorem subscriber_refines (build : BuildConfig) (psz : ℕ) :
    Impl.create.Shows .create ∧ ∀ (f : Impl) (s : TensorSubscriber), f.Shows s → ∀ k : Process,
      (∀ (timeoutMs : ℤ) (stream : List Segment), Impl.Agree
        (f.waitHandshake build psz timeoutMs (s.reconnect stream).client.recvPoolHandshake.1 k).1
        (s.waitHandshake build (f.handshakeAnswers build psz timeoutMs stream
          (s.reconnect stream).client.recvPoolHandshake.1 k))) ∧
      ∀ ready : ℕ, (f.drainFences (Impl.delivered s.client ready) k).1.Shows (s.drainFences ready).2 :=
  ⟨⟨rfl, rfl, rfl, rfl, rfl, rfl, rfl, rfl⟩, fun _ _ h k =>
    ⟨fun timeoutMs stream => Impl.waitHandshake_refines build psz h timeoutMs stream k,
      fun ready => Impl.drainFences_refines h ready k⟩⟩

/-- A bundle of two buffers arrives on the first connection, and the call of number 3 fails: the second `mmap`. On both
levels the first buffer has a view and the second has none. -/
theorem subscriber_refines_secondUnmapped :
    ∃ ans : HandshakeAnswers, ans.mmap 0 = true ∧ ans.mmap 1 = false ∧
      let stream := [⟨twoBufferHeader.encode, [⟨1, 4096⟩, ⟨2, 4096⟩]⟩]
      let recv := (TensorSubscriber.create.reconnect stream).client.recvPoolHandshake.1
      let r := (Impl.create.waitHandshake ⟨false, false⟩ 0 40 recv (refusing 3)).1
      r.2.views.map Option.isSome = [true, false] ∧
        Impl.Agree r (TensorSubscriber.create.waitHandshake ⟨false, false⟩ ans) := by
  obtain ⟨hcreate, hcalls⟩ := subscriber_refines ⟨false, false⟩ 0
  refine ⟨_, ?_, ?_, ?_, (hcalls _ _ hcreate (refusing 3)).1 40 _⟩
  · decide +kernel
  · decide +kernel
  · decide +kernel

end Axon.Device
