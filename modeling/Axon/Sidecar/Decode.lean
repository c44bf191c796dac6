import Axon.Sidecar.Client
import Mathlib.Algebra.Order.Group.Nat

/-! # The client on a stream of messages

What the client's byte-level functions do on a stream that carries well-formed messages. One round of
`poll_sync_fences` consumes exactly the first message (`pollRound_arrives`), whichever way its bytes
were cut, so the client works through the messages in order and always stands at the start of one
(`pollLoop_arriveAll`, `pollCalls_arriveAll`). -/

namespace Axon

/-! ## Reading a blob -/

/-- A read of `n` bytes from a blob cut into pieces takes the first `n` bytes of the blob and leaves the
others, again as pieces. -/
theorem SidecarClient.readSegments_pieces (ended : Bool) (n : ℕ) (pieces : List (List UInt8))
    (rest : List Segment) (hne : [] ∉ pieces) (hn : n ≤ pieces.flatten.length) :
    ∃ pieces' : List (List UInt8), [] ∉ pieces' ∧ pieces'.flatten = pieces.flatten.drop n ∧
      readSegments ended n (pieces.map Segment.plain ++ rest) =
        (.ok (pieces.flatten.take n), pieces'.map Segment.plain ++ rest) := by
  induction pieces generalizing n with
  | nil =>
      obtain rfl : n = 0 := by simpa using hn
      exact ⟨[], hne, rfl, by simp [readSegments]⟩
  | cons p ps ih =>
      simp only [List.mem_cons, not_or] at hne
      obtain _ | n := n
      · exact ⟨p :: ps, by simp [hne], rfl, by simp [readSegments]⟩
      simp only [List.flatten_cons, List.length_append] at hn
      by_cases hlt : n + 1 < p.length
      · -- the read ends inside the first piece
        refine ⟨p.drop (n + 1) :: ps, ?_, ?_, ?_⟩
        · simp [hne.2, hlt]
        · simp [List.drop_append, Nat.sub_eq_zero_of_le hlt.le]
        · simp [readSegments, Segment.plain, hlt, List.take_append, Nat.sub_eq_zero_of_le hlt.le]
      · obtain ⟨ps', hne', hflat, hread⟩ := ih (n + 1 - p.length) hne.2 (by omega)
        refine ⟨ps', hne', ?_, ?_⟩
        · rw [hflat, List.flatten_cons, List.drop_append,
            List.drop_of_length_le (not_lt.mp hlt), List.nil_append]
        · have hp : (Segment.plain p).payload = p := rfl
          rw [List.map_cons, List.cons_append, readSegments, hp, if_neg hlt, hread,
            List.flatten_cons, List.take_append, List.take_of_length_le (not_lt.mp hlt)]

/-- The same for the client's `read_exact`. -/
theorem SidecarClient.readExact_pieces {c : SidecarClient} {n : ℕ} {pieces : List (List UInt8)}
    {rest : List Segment} (hc : c.stream = pieces.map Segment.plain ++ rest) (hne : [] ∉ pieces)
    (hn : n ≤ pieces.flatten.length) :
    ∃ pieces' : List (List UInt8), [] ∉ pieces' ∧ pieces'.flatten = pieces.flatten.drop n ∧
      c.readExact n =
        (.ok (pieces.flatten.take n), { c with stream := pieces'.map Segment.plain ++ rest }) := by
  obtain ⟨pieces', hne', hflat, hread⟩ := readSegments_pieces c.ended n pieces rest hne hn
  exact ⟨pieces', hne', hflat, by rw [readExact, hc, hread]⟩

/-- Pieces that hold no byte are no pieces. -/
theorem eq_nil_of_flatten_eq_nil {pieces : List (List UInt8)} (hne : [] ∉ pieces)
    (h : pieces.flatten = []) : pieces = [] := by
  cases pieces with
  | nil => rfl
  | cons p ps =>
      obtain ⟨rfl, -⟩ := List.append_eq_nil_iff.mp (List.flatten_cons ▸ h)
      simp at hne

/-- Reading a whole blob leaves what comes behind it. -/
theorem SidecarClient.readExact_blob {c : SidecarClient} {pieces : List (List UInt8)}
    {rest : List Segment} (hc : c.stream = pieces.map Segment.plain ++ rest) (hne : [] ∉ pieces) :
    c.readExact pieces.flatten.length = (.ok pieces.flatten, { c with stream := rest }) := by
  obtain ⟨pieces', hne', hflat, hread⟩ := readExact_pieces hc hne le_rfl
  obtain rfl := eq_nil_of_flatten_eq_nil hne' (by rw [hflat, List.drop_length])
  rw [hread, List.take_length]
  rfl

/-- Skipping a whole blob in steps of 512 bytes leaves what comes behind it. -/
theorem SidecarClient.skipBlob_blob {c : SidecarClient} {pieces : List (List UInt8)}
    {rest : List Segment} (hc : c.stream = pieces.map Segment.plain ++ rest) (hne : [] ∉ pieces) :
    skipBlob pieces.flatten.length c = (true, { c with stream := rest }) := by
  -- on what is left of the blob, which each read makes shorter
  induction hleft : pieces.flatten.length using Nat.strongRecOn generalizing c pieces with
  | ind left ih =>
      rw [skipBlob]
      by_cases hpos : 0 < left
      · rw [dif_pos hpos]
        obtain ⟨pieces', hne', hflat, hread⟩ :=
          readExact_pieces (n := min left 512) hc hne (by omega)
        have hlen : pieces'.flatten.length = left - min left 512 := by
          rw [hflat, List.length_drop, hleft]
        have := ih (left - min left 512) (by omega) rfl hne' hlen
          (c := { c with stream := pieces'.map Segment.plain ++ rest })
        simp only [hread, this]
      · rw [dif_neg hpos]
        obtain rfl := eq_nil_of_flatten_eq_nil hne (List.length_eq_zero_iff.mp (by omega))
        rw [List.map_nil, List.nil_append] at hc
        rw [← hc]

/-! ## One message -/

/-- The fences among messages whose FDs are installed from number `n` on. -/
def fencesOf : ℕ → List Message → List (UInt64 × Fd)
  | _, [] => []
  | n, .pool _ files _ :: ms => fencesOf (n + files.length) ms
  | n, .fence header file :: ms => (header.syncFenceToken, ⟨n, file⟩) :: fencesOf (n + 1) ms

/-- The FDs of the pool bundles among messages whose FDs are installed from number `n` on. -/
def poolFdsOf : ℕ → List Message → List Fd
  | _, [] => []
  | n, .pool _ files _ :: ms => installFds n files ++ poolFdsOf (n + files.length) ms
  | n, .fence _ _ :: ms => poolFdsOf (n + 1) ms

/-- How many FDs messages carry. -/
def fdCount (ms : List Message) : ℕ := (ms.map fun m => m.files.length).sum

namespace SidecarClient

/-- A header that arrived in one piece is received with its FDs. -/
theorem recvFds_header {c : SidecarClient} {n : ℕ} {payload : List UInt8} {files : List File}
    {rest : List Segment} (hc : c.stream = ⟨payload, files⟩ :: rest) (hlen : payload.length = n)
    (hfiles : files.length ≤ kMaxSidecarFds) :
    c.recvFds n = (.ok (payload, installFds c.nextFd files),
      { c with stream := rest, nextFd := c.nextFd + files.length }) := by
  have hrecv : recvmsg n c.stream = ⟨payload, files, rest⟩ := by
    rw [hc]
    exact recvmsg_whole hlen rest
  unfold recvFds
  simp only [hrecv, hlen, ne_eq, not_true_eq_false, if_false, length_installFds, if_neg (not_lt.mpr hfiles)]

/-- More FDs than a message may carry are an error. -/
theorem recvFds_many {c : SidecarClient} {n : ℕ} {payload : List UInt8} {files : List File}
    {rest : List Segment} (hc : c.stream = ⟨payload, files⟩ :: rest) (hlen : payload.length = n)
    (hfiles : kMaxSidecarFds < files.length) : ∃ c', c.recvFds n = (.error .EOVERFLOW, c') := by
  have hrecv : recvmsg n c.stream = ⟨payload, files, rest⟩ := by
    rw [hc]
    exact recvmsg_whole hlen rest
  unfold recvFds
  simp only [hrecv, hlen, ne_eq, not_true_eq_false, if_false, length_installFds, if_pos hfiles]
  exact ⟨_, rfl⟩

/-- What consuming a message does to the state of `poll_sync_fences`: a pool bundle's FDs are closed, a
fence goes to the sink. -/
def consume {σ : Type} (sink : σ → UInt64 → Fd → σ) (s : PollState σ) (m : Message)
    (rest : List Segment) : PollState σ :=
  let c := { s.client with stream := rest, nextFd := s.client.nextFd + m.files.length }
  match m with
  | .pool _ files _ => { s with client := c.close (installFds s.client.nextFd files) }
  | .fence header file =>
      { count := s.count + 1
        ctx := sink s.ctx header.syncFenceToken ⟨s.client.nextFd, file⟩
        client := c }

/-- The first byte of a header is its tag. -/
theorem peek_header {c : SidecarClient} {tag : UInt8} {bs : List UInt8} {files : List File}
    {rest : List Segment} (hc : c.stream = ⟨Foundation.leBytes 1 tag.toNat ++ bs, files⟩ :: rest) :
    c.peek = some tag := by
  simp [peek, hc, Foundation.leBytes]

/-- **One round consumes the first message**, however its bytes were cut. -/
theorem pollRound_arrives {σ : Type} (sink : σ → UInt64 → Fd → σ) {s : PollState σ} {m : Message}
    {segs rest : List Segment} (hm : m.Deliverable) (ha : m.Arrives segs)
    (hs : s.client.stream = segs ++ rest) :
    pollRound (some sink) s = (true, consume sink s m rest) := by
  cases ha with
  | pool header files pieces hne =>
      obtain ⟨⟨hmsg, hext⟩, hfiles⟩ := hm
      rw [List.cons_append] at hs
      have hpeek : s.client.peek = some SidecarMsg.PoolHandshake := by
        rw [← hmsg]
        exact peek_header hs
      have hrecv := recvFds_header hs header.length_encode hfiles
      have htag : SidecarMsg.PoolHandshake ≠ SidecarMsg.SyncFence := by decide
      -- the extension is read away piece by piece
      have hskip : ∀ c : SidecarClient, c.stream = pieces.map Segment.plain ++ rest →
          skipBlob pieces.flatten.length c = (true, { c with stream := rest }) :=
        fun c hc => skipBlob_blob hc hne
      simp only [pollRound, hpeek, if_neg htag, hrecv, PoolHandshakeHeader.decode_encode, hext,
        hskip, if_true]
      rfl
  | fence header file =>
      -- a fence is one segment
      obtain ⟨hmsg, hfiles⟩ := hm
      have hmsg : header.msg = SidecarMsg.SyncFence := hmsg
      have hpeek : s.client.peek = some SidecarMsg.SyncFence := by
        rw [← hmsg]
        exact peek_header hs
      have hrecv := recvFds_header hs header.length_encode hfiles
      simp only [pollRound, hpeek, if_true, hrecv, SyncFenceHeader.decode_encode]
      rfl

/-- At the end of the stream the loop ends. -/
theorem pollRound_nil {σ : Type} (sink : Option (σ → UInt64 → Fd → σ)) {s : PollState σ}
    (hs : s.client.stream = []) : pollRound sink s = (false, s) := by
  have hpeek : s.client.peek = none := by simp [peek, hs]
  simp only [pollRound, hpeek]

end SidecarClient

/-! ## Many messages -/

/-- The fences of later messages come behind. -/
theorem fencesOf_append (n : ℕ) (ms ms' : List Message) :
    fencesOf n (ms ++ ms') = fencesOf n ms ++ fencesOf (n + fdCount ms) ms' := by
  induction ms generalizing n with
  | nil => simp [fencesOf, fdCount]
  | cons m ms ih =>
      cases m with
      | pool header files ext => simp [fencesOf, ih, fdCount, Message.files, Nat.add_assoc]
      | fence header file => simp [fencesOf, ih, fdCount, Message.files, Nat.add_assoc]

/-- The pool FDs of later messages come behind. -/
theorem poolFdsOf_append (n : ℕ) (ms ms' : List Message) :
    poolFdsOf n (ms ++ ms') = poolFdsOf n ms ++ poolFdsOf (n + fdCount ms) ms' := by
  induction ms generalizing n with
  | nil => simp [poolFdsOf, fdCount]
  | cons m ms ih =>
      cases m with
      | pool header files ext => simp [poolFdsOf, ih, fdCount, Message.files, Nat.add_assoc]
      | fence header file => simp [poolFdsOf, ih, fdCount, Message.files, Nat.add_assoc]

/-- The FDs of all messages add up. -/
theorem fdCount_append (ms ms' : List Message) : fdCount (ms ++ ms') = fdCount ms + fdCount ms' := by
  simp [fdCount]

/-- FDs are numbered from `n` on. -/
theorem le_num_of_mem_fencesOf {n : ℕ} {ms : List Message} {p : UInt64 × Fd}
    (h : p ∈ fencesOf n ms) : n ≤ p.2.num := by
  induction ms generalizing n with
  | nil => cases h
  | cons m ms ih =>
      cases m with
      | pool header files ext => exact (Nat.le_add_right _ _).trans (ih h)
      | fence header file =>
          rcases List.mem_cons.mp h with rfl | h
          · exact le_rfl
          · exact (Nat.le_succ _).trans (ih h)

/-- FDs are numbered from `n` on. -/
theorem le_num_of_mem_poolFdsOf {n : ℕ} {ms : List Message} {fd : Fd} (h : fd ∈ poolFdsOf n ms) :
    n ≤ fd.num := by
  induction ms generalizing n with
  | nil => cases h
  | cons m ms ih =>
      cases m with
      | pool header files ext =>
          rcases List.mem_append.mp h with h | h
          · exact (num_of_mem_installFds h).1
          · exact (Nat.le_add_right _ _).trans (ih h)
      | fence header file => exact (Nat.le_succ _).trans (ih h)

/-- The FD of a fence is not one of a pool bundle. -/
theorem fencesOf_disjoint_poolFdsOf {n : ℕ} {ms : List Message} {p : UInt64 × Fd}
    (h : p ∈ fencesOf n ms) : p.2 ∉ poolFdsOf n ms := by
  induction ms generalizing n with
  | nil => cases h
  | cons m ms ih =>
      cases m with
      | pool header files ext =>
          intro hmem
          rcases List.mem_append.mp hmem with hmem | hmem
          -- fences that come later have higher numbers, those of a pool come before
          · have h1 := (num_of_mem_installFds hmem).2
            have h2 := le_num_of_mem_fencesOf (n := n + files.length) h
            omega
          · exact ih h hmem
      | fence header file =>
          rcases List.mem_cons.mp h with rfl | h
          · intro hmem
            have := le_num_of_mem_poolFdsOf (n := n + 1) hmem
            simp only at this
            omega
          · exact ih h

namespace SidecarClient

/-- **What consuming the messages `ms` does** to the sink's context and to the client: the fences among
them went to the sink in order, the FDs of the bundles among them were closed, and the rest of the
stream holds the messages `left`. -/
structure Consumed {σ : Type} (sink : σ → UInt64 → Fd → σ) (ctx : σ) (c : SidecarClient)
    (ms left : List Message) (ctx' : σ) (c' : SidecarClient) : Prop where
  ctx_eq : ctx' = (fencesOf c.nextFd ms).foldl (fun ctx p => sink ctx p.1 p.2) ctx
  nextFd : c'.nextFd = c.nextFd + fdCount ms
  closed : c'.closed = c.closed ++ poolFdsOf c.nextFd ms
  left_arrive : Message.ArriveAll left c'.stream

namespace Consumed

variable {σ : Type} {sink : σ → UInt64 → Fd → σ} {ctx ctx' ctx'' : σ} {c c' c'' : SidecarClient}
  {ms ms' left left' : List Message}

/-- Nothing has been consumed. -/
theorem nil (h : Message.ArriveAll left c.stream) : Consumed sink ctx c [] left ctx c :=
  ⟨rfl, rfl, by simp [poolFdsOf], h⟩

/-- Consuming one message. -/
theorem one {s : PollState σ} {m : Message} {rest : List Segment} (h : Message.ArriveAll left rest) :
    Consumed sink s.ctx s.client [m] left (consume sink s m rest).ctx
      (consume sink s m rest).client := by
  cases m with
  | pool header files ext =>
      exact ⟨rfl, by simp [consume, close, fdCount, Message.files],
        by simp [consume, close, poolFdsOf], h⟩
  | fence header file =>
      exact ⟨rfl, by simp [consume, fdCount, Message.files], by simp [consume, poolFdsOf], h⟩

/-- Consuming messages and then others. -/
theorem trans (h : Consumed sink ctx c ms left ctx' c') (h' : Consumed sink ctx' c' ms' left' ctx'' c'') :
    Consumed sink ctx c (ms ++ ms') left' ctx'' c'' where
  ctx_eq := by rw [h'.ctx_eq, h.ctx_eq, h.nextFd, fencesOf_append, List.foldl_append]
  nextFd := by rw [h'.nextFd, h.nextFd, fdCount_append, Nat.add_assoc]
  closed := by rw [h'.closed, h.closed, h.nextFd, poolFdsOf_append, List.append_assoc]
  left_arrive := h'.left_arrive

end Consumed

/-- **The loop consumes the messages in order** and stops at the start of the first one it has not
consumed. -/
theorem pollLoop_arriveAll {σ : Type} (sink : σ → UInt64 → Fd → σ) (ready : ℕ) {s : PollState σ}
    {ms : List Message} (hms : ∀ m ∈ ms, m.Deliverable) (ha : Message.ArriveAll ms s.client.stream) :
    Consumed sink s.ctx s.client (ms.take ready) (ms.drop ready) (pollLoop (some sink) ready s).ctx
      (pollLoop (some sink) ready s).client := by
  induction ready generalizing s ms with
  | zero => exact .nil ha
  | succ ready ih =>
      -- one round reads one message, if one has arrived
      generalize hs : s.client.stream = segs at ha
      cases ha with
      | nil =>
          rw [pollLoop, pollRound_nil _ hs]
          exact .nil (hs ▸ .nil)
      | @cons m ms segs rest hm hrest =>
          rw [pollLoop, pollRound_arrives sink (hms m List.mem_cons_self) hm hs]
          have hstream : (consume sink s m rest).client.stream = rest := by cases m <;> rfl
          have hcons := ih (s := consume sink s m rest)
            (fun m' hm' => hms m' (List.mem_cons_of_mem m hm')) (by rwa [hstream])
          exact (Consumed.one hrest).trans hcons

/-- Calls of `poll_sync_fences` one after the other, each with the number of rounds for which `poll`
finds the socket readable. -/
def pollCalls {σ : Type} (sink : Option (σ → UInt64 → Fd → σ)) :
    List ℕ → σ → SidecarClient → σ × SidecarClient
  | [], ctx, c => (ctx, c)
  | ready :: calls, ctx, c =>
      let r := pollSyncFences sink ready ctx c
      pollCalls sink calls r.ctx r.client

/-- **Any number of calls** consume the messages in order. -/
theorem pollCalls_arriveAll {σ : Type} (sink : σ → UInt64 → Fd → σ) (calls : List ℕ) (ctx : σ)
    {c : SidecarClient} {ms : List Message} (hms : ∀ m ∈ ms, m.Deliverable)
    (ha : Message.ArriveAll ms c.stream) :
    Consumed sink ctx c (ms.take calls.sum) (ms.drop calls.sum) (pollCalls (some sink) calls ctx c).1
      (pollCalls (some sink) calls ctx c).2 := by
  induction calls generalizing ctx c ms with
  | nil => exact .nil ha
  | cons ready calls ih =>
      have hfirst := pollLoop_arriveAll sink ready (s := ⟨0, ctx, c⟩) hms ha
      have hrest := ih (pollSyncFences (some sink) ready ctx c).ctx
        (fun m hm => hms m (List.mem_of_mem_drop hm)) hfirst.left_arrive
      have := hfirst.trans hrest
      rwa [List.drop_drop, ← List.take_add, ← List.sum_cons] at this

/-- The pool handshake decodes a bundle, however its bytes were cut. -/
theorem recvPoolHandshake_arrives {c : SidecarClient} {header : PoolHandshakeHeader}
    {files : List File} {ext : List UInt8} {segs rest : List Segment}
    (hm : (Message.pool header files ext).Deliverable) (ha : (Message.pool header files ext).Arrives segs)
    (hs : c.stream = segs ++ rest) :
    c.recvPoolHandshake = (.ok (header, installFds c.nextFd files, ext),
      { c with stream := rest, nextFd := c.nextFd + files.length }) := by
  cases ha with
  | pool header files pieces hne =>
      obtain ⟨⟨hmsg, hext⟩, hfiles⟩ := hm
      rw [List.cons_append] at hs
      have hrecv := recvFds_header hs header.length_encode hfiles
      have hread : ∀ c : SidecarClient, c.stream = pieces.map Segment.plain ++ rest →
          c.readExact pieces.flatten.length = (.ok pieces.flatten, { c with stream := rest }) :=
        fun c hc => readExact_blob hc hne
      simp only [recvPoolHandshake, hs, reduceCtorEq, false_and, if_false, hrecv,
        PoolHandshakeHeader.decode_encode, hmsg, ne_eq, not_true_eq_false, hext, hread]
      split_ifs with hlen
      · rfl
      · -- an empty blob
        have hzero : pieces.flatten = [] := by
          rw [← List.length_eq_zero_iff, ← hext]
          simpa [UInt16.lt_iff_toNat_lt] using hlen
        rw [eq_nil_of_flatten_eq_nil hne hzero]
        rfl

/-- When nothing has arrived, a handshake fails. -/
theorem recvPoolHandshake_nil {c : SidecarClient} (hs : c.stream = []) :
    ∃ e, c.recvPoolHandshake = (.error e, c) := by
  unfold recvPoolHandshake
  split_ifs
  · exact ⟨_, rfl⟩
  · refine ⟨.EPROTO, ?_⟩
    obtain ⟨stream, eof, shut, nextFd, closed⟩ := c
    obtain rfl : stream = [] := hs
    rfl

/-- A fence is no handshake: it is too short. It is read away all the same. -/
theorem recvPoolHandshake_fence {c : SidecarClient} {header : SyncFenceHeader} {file : File}
    {rest : List Segment} (hs : c.stream = ⟨header.encode, [file]⟩ :: rest) :
    ∃ e c', c.recvPoolHandshake = (.error e, c') ∧ c'.stream = rest := by
  -- the read stops behind the fence, whose FD it has taken
  have hshort : header.encode.length ≤ PoolHandshakeHeader.size := by
    rw [SyncFenceHeader.length_encode]
    decide
  have hrecv : recvmsg PoolHandshakeHeader.size c.stream = ⟨header.encode, [file], rest⟩ := by
    rw [hs]
    exact recvmsg_short hshort (List.cons_ne_nil _ _) rest
  have hlen : header.encode.length ≠ PoolHandshakeHeader.size := by
    rw [SyncFenceHeader.length_encode]
    decide
  unfold recvPoolHandshake
  rw [if_neg (by simp [hs])]
  simp only [recvFds, hrecv, if_pos hlen]
  exact ⟨.EPROTO, _, rfl, rfl⟩

/-- Whatever has arrived behind a bundle's header, a handshake that succeeds returns this header and the
FDs that came with it. -/
theorem recvPoolHandshake_ok {c c' : SidecarClient} {header hdr : PoolHandshakeHeader}
    {files : List File} {rest : List Segment} {received : List Fd} {ext : List UInt8}
    (hs : c.stream = ⟨header.encode, files⟩ :: rest)
    (h : c.recvPoolHandshake = (.ok (hdr, received, ext), c')) :
    hdr = header ∧ received = installFds c.nextFd files := by
  unfold recvPoolHandshake at h
  rw [if_neg (by simp [hs])] at h
  -- too many FDs would have been refused
  rcases Nat.lt_or_ge kMaxSidecarFds files.length with hmany | hfew
  · obtain ⟨c₁, hmany⟩ := recvFds_many hs header.length_encode hmany
    rw [hmany] at h
    cases h
  · simp only [recvFds_header hs header.length_encode hfew, PoolHandshakeHeader.decode_encode] at h
    split_ifs at h
    · cases h
    · split at h
      · cases h
      · cases h
        exact ⟨rfl, rfl⟩
    · cases h
      exact ⟨rfl, rfl⟩

end SidecarClient

end Axon
