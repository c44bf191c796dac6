import Axon.Sidecar.Decode
import Axon.Sidecar.FdLedger

/-! # Message boundaries

Where a client stands in the stream of a connection is told by what it has left to read: it stands **at a message
boundary** when that is a number of whole messages (`AtBoundary`). Reading is followed here also over messages
of which only a part has arrived: `pollLoop_framed` says that a client at a boundary reads headers at boundaries
only, and ends at one or shuts its socket down. -/

namespace Axon

/-! ## Bytes in a stream -/

/-- The bytes of messages. -/
def sizeOfAll (ms : List Message) : ℕ := (ms.map Message.size).sum

/-- The sizes of all messages add up. -/
@[simp] theorem sizeOfAll_cons (m : Message) (ms : List Message) : sizeOfAll (m :: ms) = m.size + sizeOfAll ms := rfl

/-- The sizes of all messages add up. -/
@[simp] theorem sizeOfAll_append (ms ms' : List Message) : sizeOfAll (ms ++ ms') = sizeOfAll ms + sizeOfAll ms' := by
  rw [sizeOfAll, List.map_append, List.sum_append, sizeOfAll, sizeOfAll]

/-- A message arrives with all its bytes. -/
theorem Message.Arrives.byteCount {m : Message} {segs : List Segment} (h : m.Arrives segs) :
    byteCount segs = m.size := by
  cases h with
  | pool header files pieces hne =>
      rw [byteCount_cons, byteCount_plain, PoolHandshakeHeader.length_encode, Message.size]
  | fence header file => exact SyncFenceHeader.length_encode header

/-- Messages arrive with all their bytes. -/
theorem Message.ArriveAll.byteCount {ms : List Message} {segs : List Segment} (h : Message.ArriveAll ms segs) :
    byteCount segs = sizeOfAll ms := by
  induction h with
  | nil => rfl
  | cons h _ ih => rw [byteCount_append, h.byteCount, ih, sizeOfAll_cons]

/-- One more message arrives. -/
theorem Message.ArriveAll.snoc {ms : List Message} {m : Message} {segs segs' : List Segment}
    (h : Message.ArriveAll ms segs) (hm : m.Arrives segs') : Message.ArriveAll (ms ++ [m]) (segs ++ segs') := by
  induction h with
  | nil =>
      have hone := Message.ArriveAll.cons hm .nil
      rwa [List.append_nil] at hone
  | cons h _ ih =>
      rw [List.cons_append, List.append_assoc]
      exact .cons h ih

/-- **A position in a connection is a boundary** when what is left to read of the messages sent is the bytes of
the last few of them. -/
def AtBoundary (sent : List Message) (unread : ℕ) : Prop :=
  ∃ done left, sent = done ++ left ∧ unread = sizeOfAll left

/-- **Inside the first message** there is no boundary. -/
theorem not_atBoundary_inside {m : Message} {rest : List Message} {n : ℕ} (hpos : 0 < n) (hlt : n < m.size) :
    ¬ AtBoundary (m :: rest) (n + sizeOfAll rest) := by
  rintro ⟨done, left, hsent, hunread⟩
  cases done with
  | nil =>
      rw [List.nil_append] at hsent
      rw [← hsent, sizeOfAll_cons] at hunread
      omega
  | cons m' done =>
      rw [List.cons_append] at hsent
      rw [(List.cons.inj hsent).2, sizeOfAll_append] at hunread
      omega

namespace SidecarClient

/-! ## Reading what is there -/

/-- A read that finds its bytes takes just these. -/
theorem readSegments_enough (ended : Bool) {n : ℕ} {segs : List Segment} (h : n ≤ byteCount segs) :
    ∃ bs left, readSegments ended n segs = (.ok bs, left) ∧ byteCount left + n = byteCount segs := by
  induction segs generalizing n with
  | nil =>
      obtain rfl : n = 0 := Nat.le_zero.mp h
      exact ⟨[], [], rfl, rfl⟩
  | cons seg rest ih =>
      rw [byteCount_cons] at h ⊢
      cases n with
      | zero => exact ⟨[], seg :: rest, rfl, rfl⟩
      | succ n =>
          rw [readSegments]
          -- the bytes end within this segment, or go on in the rest
          split_ifs with hlt
          · refine ⟨_, _, rfl, ?_⟩
            rw [byteCount_cons, Segment.plain, List.length_drop]
            omega
          · obtain ⟨bs, left, hread, hleft⟩ := ih (n := n + 1 - seg.payload.length) (by omega)
            rw [hread]
            exact ⟨_, left, rfl, by omega⟩

/-- A read that does not find its bytes takes all there are, and fails. -/
theorem readSegments_short (ended : Bool) {n : ℕ} {segs : List Segment} (h : byteCount segs < n) :
    ∃ e, readSegments ended n segs = (.error e, []) := by
  induction segs generalizing n with
  | nil =>
      obtain ⟨n, rfl⟩ := Nat.exists_eq_succ_of_ne_zero (Nat.ne_of_gt h)
      exact ⟨_, rfl⟩
  | cons seg rest ih =>
      rw [byteCount_cons] at h
      obtain ⟨n, rfl⟩ := Nat.exists_eq_succ_of_ne_zero (Nat.ne_of_gt (Nat.zero_lt_of_lt h))
      obtain ⟨e, hread⟩ := ih (n := n + 1 - seg.payload.length) (by omega)
      rw [readSegments, if_neg (by omega), hread]
      exact ⟨e, rfl⟩

/-- **A read of bytes that are there** takes exactly these. -/
theorem readExact_enough {c : SidecarClient} {n : ℕ} (h : n ≤ byteCount c.stream) :
    ∃ bs left, c.readExact n = (.ok bs, { c with stream := left }) ∧ byteCount left + n = byteCount c.stream := by
  obtain ⟨bs, left, hread, hleft⟩ := readSegments_enough c.ended h
  exact ⟨bs, left, by rw [readExact, hread], hleft⟩

/-- **A read of more bytes than are there** fails with all of them taken. -/
theorem readExact_short {c : SidecarClient} {n : ℕ} (h : byteCount c.stream < n) :
    ∃ e, c.readExact n = (.error e, { c with stream := [] }) := by
  obtain ⟨e, hread⟩ := readSegments_short c.ended h
  exact ⟨e, by rw [readExact, hread]⟩

/-- A blob that is not all there cannot be skipped, and nothing of it is left. -/
theorem skipBlob_short {left : ℕ} {c : SidecarClient} (h : byteCount c.stream < left) :
    (skipBlob left c).1 = false ∧ (skipBlob left c).2 = { c with stream := [] } := by
  induction left using Nat.strong_induction_on generalizing c with
  | _ left ih =>
      rw [skipBlob, dif_pos (Nat.zero_lt_of_lt h)]
      dsimp only
      by_cases hchunk : byteCount c.stream < min left 512
      · obtain ⟨e, hread⟩ := readExact_short hchunk
        rw [hread]
        exact ⟨rfl, rfl⟩
      · obtain ⟨bs, segs, hread, hleft⟩ := readExact_enough (not_lt.mp hchunk)
        rw [hread]
        exact ih (left - min left 512) (by omega) (c := { c with stream := segs }) (by dsimp only; omega)

/-- **How far the first message has arrived** when something of it has: wholly, or it is a bundle with a part of
its blob still to come. -/
theorem first_message_cases {m : Message} {ms : List Message} {stream coming : List Segment}
    (h : Message.ArriveAll (m :: ms) (stream ++ coming)) (hne : stream ≠ []) :
    (∃ segs rest, m.Arrives segs ∧ stream = segs ++ rest ∧ Message.ArriveAll ms (rest ++ coming)) ∨
    ∃ header files pieces pieces' rest, m = .pool header files (pieces ++ pieces').flatten ∧ [] ∉ pieces' ∧
      pieces' ≠ [] ∧ stream = ⟨header.encode, files⟩ :: pieces.map Segment.plain ∧
      coming = pieces'.map Segment.plain ++ rest ∧ Message.ArriveAll ms rest := by
  generalize hall : stream ++ coming = all at h
  cases h with
  | @cons _ _ segs rest hm hrest =>
      rcases List.append_eq_append_iff.mp hall with ⟨more, hsegs, hcoming⟩ | ⟨more, hstream, rfl⟩
      · by_cases hmore : more = []
        · rw [hmore, List.append_nil] at hsegs
          rw [hmore, List.nil_append] at hcoming
          exact .inl ⟨segs, [], hm, by rw [hsegs, List.append_nil], by rwa [hcoming, List.nil_append]⟩
        · obtain ⟨seg, stream, rfl⟩ := List.exists_cons_of_ne_nil hne
          refine .inr ?_
          cases hm with
          | pool header files pieces hpieces =>
              obtain ⟨rfl, hcut⟩ := List.cons.inj hsegs
              obtain ⟨here, there, rfl, rfl, rfl⟩ := List.map_eq_append_iff.mp hcut
              refine ⟨header, files, here, there, rest, rfl, ?_, ?_, rfl, hcoming, hrest⟩
              · exact fun hnil => hpieces (List.mem_append_right here hnil)
              · rintro rfl
                exact hmore rfl
          | fence header file =>
              -- a fence is one segment
              obtain ⟨-, hcut⟩ := List.cons.inj hsegs
              exact absurd (List.append_eq_nil_iff.mp hcut.symm).2 hmore
      · exact .inl ⟨segs, more, hm, hstream, hrest⟩

/-- The clients with which the loop of `poll_sync_fences` comes to read a header: those that find something to
read at the beginning of a round. -/
def headersRead {σ : Type} (sink : Option (σ → UInt64 → Fd → σ)) : ℕ → PollState σ → List SidecarClient
  | 0, _ => []
  | ready + 1, s =>
      match s.client.peek with
      | none => []
      | some _ =>
          s.client :: match pollRound sink s with
            | (true, s) => headersRead sink ready s
            | (false, _) => []

/-- A client whose connection is over. -/
def Over (c : SidecarClient) : Prop := c.stream = [] ∧ c.ended = true

/-- A client at a boundary of a connection that has carried `sent`, when `coming` is on its way. -/
def Framed (c : SidecarClient) (sent : List Message) (coming : List Segment) : Prop :=
  ∃ done left, sent = done ++ left ∧ Message.ArriveAll left (c.stream ++ coming)

/-- What is still to be read begins at a boundary. -/
theorem Framed.atBoundary {c : SidecarClient} {sent : List Message} {coming : List Segment}
    (h : c.Framed sent coming) : AtBoundary sent (byteCount c.stream + byteCount coming) := by
  obtain ⟨done, left, hsent, harrive⟩ := h
  exact ⟨done, left, hsent, by rw [← byteCount_append, harrive.byteCount]⟩

/-- **A round at a boundary** ends at one, or with the socket shut down. -/
theorem pollRound_framed {σ : Type} (sink : σ → UInt64 → Fd → σ) {s : PollState σ} {sent : List Message}
    {coming : List Segment} (hsent : ∀ m ∈ sent, m.Deliverable) (h : s.client.Framed sent coming) :
    (pollRound (some sink) s).2.client.Framed sent coming ∨
      ((pollRound (some sink) s).1 = false ∧ (pollRound (some sink) s).2.client.Over) := by
  by_cases hnone : s.client.stream = []
  · rw [pollRound_nil _ hnone]
    exact .inl h
  · obtain ⟨done, left, hleft, harrive⟩ := h
    cases left with
    | nil =>
        generalize hall : s.client.stream ++ coming = all at harrive
        cases harrive
        exact absurd (List.append_eq_nil_iff.mp hall).1 hnone
    | cons m left =>
        have hm : m.Deliverable := hsent m (by rw [hleft]; simp)
        rcases first_message_cases harrive hnone with ⟨segs, rest, harr, hstream, hrest⟩ |
          ⟨header, files, pieces, pieces', rest, rfl, hne', hcut, hstream, -, -⟩
        · rw [pollRound_arrives sink hm harr hstream]
          refine .inl ⟨done ++ [m], left, by rw [hleft, List.append_assoc, List.singleton_append], ?_⟩
          have hconsumed : (consume sink s m rest).client.stream = rest := by cases m <;> rfl
          rwa [hconsumed]
        · -- the rest of the blob does not come in time
          obtain ⟨⟨hmsg, hext⟩, hfiles⟩ := hm
          have hpeek : s.client.peek = some SidecarMsg.PoolHandshake := by
            rw [← hmsg]
            exact peek_header hstream
          have hrecv := recvFds_header hstream header.length_encode hfiles
          have hshort : byteCount (pieces.map Segment.plain) < (pieces ++ pieces').flatten.length := by
            have hpos : 0 < pieces'.flatten.length :=
              List.length_pos_of_ne_nil fun hnil => hcut (eq_nil_of_flatten_eq_nil hne' hnil)
            rw [byteCount_plain, List.flatten_append, List.length_append]
            omega
          obtain ⟨hfalse, hskip⟩ := skipBlob_short (c := { s.client with
            stream := pieces.map Segment.plain, nextFd := s.client.nextFd + files.length }) hshort
          have htag : SidecarMsg.PoolHandshake ≠ SidecarMsg.SyncFence := by decide
          simp only [pollRound, hpeek, if_neg htag, hrecv, PoolHandshakeHeader.decode_encode, hext, if_true]
          generalize skipBlob _ _ = r at hfalse hskip
          obtain ⟨ok, c⟩ := r
          cases hfalse
          cases hskip
          exact .inr ⟨rfl, rfl, Bool.or_true _⟩

/-- **The loop at a boundary** reads headers at boundaries only, and ends at one or with the connection over. -/
theorem pollLoop_framed {σ : Type} (sink : σ → UInt64 → Fd → σ) (ready : ℕ) {s : PollState σ}
    {sent : List Message} {coming : List Segment} (hsent : ∀ m ∈ sent, m.Deliverable)
    (h : s.client.Framed sent coming) :
    (∀ c ∈ headersRead (some sink) ready s, AtBoundary sent (byteCount c.stream + byteCount coming)) ∧
      ((pollLoop (some sink) ready s).client.Framed sent coming ∨ (pollLoop (some sink) ready s).client.Over) := by
  induction ready generalizing s with
  | zero => exact ⟨fun c hc => absurd hc List.not_mem_nil, .inl h⟩
  | succ ready ih =>
      have hround := pollRound_framed sink hsent h
      rw [headersRead, pollLoop]
      cases hpeek : s.client.peek with
      | none =>
          have hstop : pollRound (some sink) s = (false, s) := by simp only [pollRound, hpeek]
          rw [hstop]
          exact ⟨fun c hc => absurd hc List.not_mem_nil, .inl h⟩
      | some tag =>
          dsimp only
          generalize pollRound (some sink) s = r at hround
          obtain ⟨goOn, s₁⟩ := r
          -- the last round of this call
          cases goOn with
          | false =>
              refine ⟨?_, hround.imp_right And.right⟩
              intro c hc
              rw [List.mem_singleton.mp hc]
              exact h.atBoundary
          | true =>
              obtain ⟨hrest, hend⟩ := ih (hround.resolve_right fun hover => Bool.false_ne_true hover.1.symm)
              refine ⟨List.forall_mem_cons.mpr ⟨h.atBoundary, hrest⟩, hend⟩

/-- Once the connection is over, no header is read and nothing changes. -/
theorem pollLoop_over {σ : Type} (sink : Option (σ → UInt64 → Fd → σ)) (ready : ℕ) {s : PollState σ}
    (h : s.client.stream = []) : headersRead sink ready s = [] ∧ (pollLoop sink ready s).client = s.client := by
  cases ready with
  | zero => exact ⟨rfl, rfl⟩
  | succ ready =>
      have hpeek : s.client.peek = none := by simp [peek, h]
      rw [headersRead, hpeek, pollLoop, pollRound_nil sink h]
      exact ⟨rfl, rfl⟩

/-- A bundle with some of its blob missing: what there is of it is read away. -/
theorem recvPoolHandshake_torn {c : SidecarClient} {header : PoolHandshakeHeader} {files : List File}
    {ext : List UInt8} {pieces : List (List UInt8)} (hm : (Message.pool header files ext).Deliverable)
    (hstream : c.stream = ⟨header.encode, files⟩ :: pieces.map Segment.plain)
    (hmissing : pieces.flatten.length < ext.length) : c.recvPoolHandshake.2.stream = [] := by
  obtain ⟨⟨hmsg, hext⟩, hfiles⟩ := hm
  have hrecv := recvFds_header hstream header.length_encode hfiles
  -- the header announces a blob, which is longer than what has arrived
  have hblob : 0 < header.extLen := by
    rw [UInt16.lt_iff_toNat_lt, hext]
    show 0 < _
    omega
  obtain ⟨e, hread⟩ := readExact_short (c := { c with
    stream := pieces.map Segment.plain, nextFd := c.nextFd + files.length })
    (show byteCount (pieces.map Segment.plain) < header.extLen.toNat by rwa [byteCount_plain, hext])
  unfold recvPoolHandshake
  rw [if_neg (by simp [hstream])]
  simp only [hrecv, PoolHandshakeHeader.decode_encode, hmsg, ne_eq, not_true_eq_false, if_false, if_pos hblob, hread]
  rfl

/-- **A handshake on a new connection** on which something has arrived: the first message was all there, and it
ends behind it; or it was a bundle with some of its blob missing, and nothing is left of what has arrived. -/
theorem recvPoolHandshake_framed {c : SidecarClient} {m : Message} {ms : List Message} {coming : List Segment}
    (hm : m.Deliverable) (h : Message.ArriveAll (m :: ms) (c.stream ++ coming)) (hne : c.stream ≠ []) :
    (m.size ≤ byteCount c.stream ∧ Message.ArriveAll ms (c.recvPoolHandshake.2.stream ++ coming)) ∨
    (byteCount c.stream < m.size ∧ c.recvPoolHandshake.2.stream = [] ∧
      ∃ pieces' rest, [] ∉ pieces' ∧ pieces' ≠ [] ∧ pieces'.flatten.length < m.size ∧
        coming = pieces'.map Segment.plain ++ rest ∧ Message.ArriveAll ms rest) := by
  -- the whole message is there, or only the beginning of its blob
  rcases first_message_cases h hne with ⟨segs, rest, harr, hstream, hrest⟩ |
    ⟨header, files, pieces, pieces', rest, rfl, hne', hcut, hstream, hcoming, hrest⟩
  · refine .inl ⟨?_, ?_⟩
    · rw [hstream, byteCount_append, harr.byteCount]
      exact Nat.le_add_right _ _
    cases m with
    | pool header files ext =>
        rw [recvPoolHandshake_arrives hm harr hstream]
        exact hrest
    | fence header file =>
        cases harr
        obtain ⟨e, c', herr, hstream'⟩ := recvPoolHandshake_fence hstream
        rw [herr]
        exact hstream' ▸ hrest
  · have hlen : (pieces ++ pieces').flatten.length = pieces.flatten.length + pieces'.flatten.length := by
      rw [List.flatten_append, List.length_append]
    have hpos : 0 < pieces'.flatten.length :=
      List.length_pos_of_ne_nil fun hnil => hcut (eq_nil_of_flatten_eq_nil hne' hnil)
    refine .inr ⟨?_, recvPoolHandshake_torn hm hstream (by omega), pieces', rest, hne', hcut, ?_, hcoming, hrest⟩
    · rw [hstream, byteCount_cons, byteCount_plain, PoolHandshakeHeader.length_encode, Message.size, hlen]
      omega
    · rw [Message.size, hlen]
      unfold PoolHandshakeHeader.size
      omega

end SidecarClient

end Axon
