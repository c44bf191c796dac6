import Axon.Sidecar.Wire

/-! # The sidecar client

`SidecarClient` reads the byte stream of one connection: the pool handshake once
(`recv_pool_handshake`), and later any fences that have queued up (`poll_sync_fences`), skipping pool
bundles announced again in between. The functions are those of the code, on a socket whose arrived data
is a list of segments. `recvmsg` says what one call finds in it; when nothing has arrived a read times out. -/

namespace Axon

/-- The client with its side of the socket, and the FDs it has closed. -/
structure SidecarClient where
  /-- What has arrived and has not been read. -/
  stream : List Segment
  /-- The peer has closed its end, nothing more will arrive. -/
  eof : Bool
  /-- The client has shut the socket down, nothing more will arrive. -/
  shut : Bool
  /-- Number of the next FD installed in the process. -/
  nextFd : ℕ
  /-- The FDs closed so far, oldest first. -/
  closed : List Fd
  deriving DecidableEq

/-- Install received files as FDs of the process, numbered from `n` on. -/
def installFds (n : ℕ) : List File → List Fd
  | [] => []
  | f :: fs => ⟨n, f⟩ :: installFds (n + 1) fs

/-- Every file gets an FD. -/
@[simp] theorem length_installFds (n : ℕ) (fs : List File) : (installFds n fs).length = fs.length := by
  induction fs generalizing n with
  | nil => rfl
  | cons f fs ih => rw [installFds, List.length_cons, List.length_cons, ih]

/-- An installed FD refers to the file that was sent. -/
@[simp] theorem map_file_installFds (n : ℕ) (fs : List File) :
    (installFds n fs).map (·.file) = fs := by
  induction fs generalizing n with
  | nil => rfl
  | cons f fs ih => rw [installFds, List.map_cons, ih]

/-- The numbers of installed FDs. -/
theorem num_of_mem_installFds {n : ℕ} {fs : List File} {fd : Fd} (h : fd ∈ installFds n fs) :
    n ≤ fd.num ∧ fd.num < n + fs.length := by
  induction fs generalizing n with
  | nil => cases h
  | cons f fs ih =>
      rw [List.length_cons]
      rcases List.mem_cons.mp h with rfl | h
      · exact ⟨le_rfl, Nat.lt_add_of_pos_right (Nat.succ_pos _)⟩
      · have := ih h
        omega

/-- What one `recvmsg` finds in a socket. -/
structure Received where
  bytes : List UInt8
  /-- The files whose FDs come with them. -/
  files : List File
  left : List Segment
  deriving DecidableEq

/-- **One `recvmsg` for `n` bytes.** On a stream it runs on from a piece without FDs into the next one, until it has
its bytes or nothing is left; it stops behind the piece whose FDs it has taken. -/
def recvmsg (n : ℕ) : List Segment → Received
  | [] => ⟨[], [], []⟩
  | seg :: rest =>
      if n < seg.payload.length then
        -- the FDs go with the first bytes of their piece
        ⟨seg.payload.take n, seg.files, .plain (seg.payload.drop n) :: rest⟩
      else if seg.files ≠ [] ∨ n = seg.payload.length then ⟨seg.payload, seg.files, rest⟩
      else
        let r := recvmsg (n - seg.payload.length) rest
        { r with bytes := seg.payload ++ r.bytes }

/-- No more than `n` bytes are received. -/
theorem length_recvmsg_le (n : ℕ) (segs : List Segment) : (recvmsg n segs).bytes.length ≤ n := by
  induction segs generalizing n with
  | nil => exact Nat.zero_le n
  | cons seg rest ih =>
      unfold recvmsg
      -- within a segment, at its end, or on into the next one
      by_cases hlt : n < seg.payload.length
      · rw [if_pos hlt]
        exact (List.length_take_le n _)
      rw [if_neg hlt]
      by_cases hstop : seg.files ≠ [] ∨ n = seg.payload.length
      · rw [if_pos hstop]
        exact not_lt.mp hlt
      · rw [if_neg hstop]
        have hrest := ih (n - seg.payload.length)
        dsimp only
        rw [List.length_append]
        omega

/-- A piece as long as what is asked for is received with its FDs. -/
theorem recvmsg_whole {seg : Segment} {n : ℕ} (hlen : seg.payload.length = n) (rest : List Segment) :
    recvmsg n (seg :: rest) = ⟨seg.payload, seg.files, rest⟩ := by
  unfold recvmsg
  rw [if_neg (not_lt.mpr hlen.le), if_pos (.inr hlen.symm)]

/-- A piece with FDs ends what is received. -/
theorem recvmsg_short {seg : Segment} {n : ℕ} (hlen : seg.payload.length ≤ n) (hfiles : seg.files ≠ [])
    (rest : List Segment) : recvmsg n (seg :: rest) = ⟨seg.payload, seg.files, rest⟩ := by
  unfold recvmsg
  rw [if_neg (not_lt.mpr hlen), if_pos (.inl hfiles)]

namespace SidecarClient

/-- A client on a connection on which `stream` has arrived. -/
def onStream (stream : List Segment) (nextFd : ℕ) : SidecarClient where
  stream := stream
  eof := false
  shut := false
  nextFd := nextFd
  closed := []

/-- More data arrives. -/
def arrive (c : SidecarClient) (segs : List Segment) : SidecarClient :=
  { c with stream := c.stream ++ segs }

/-- Reading at the end of what has arrived finds the end of the stream. -/
def ended (c : SidecarClient) : Bool := c.eof || c.shut

/-- FDs are closed. -/
def close (c : SidecarClient) (fds : List Fd) : SidecarClient := { c with closed := c.closed ++ fds }

/-- **`recv_fds`**: one `recvmsg` for a payload of `n` bytes with the FDs that come with it. A payload of
another length is an error. -/
def recvFds (c : SidecarClient) (n : ℕ) : Except Errno (List UInt8 × List Fd) × SidecarClient :=
  let r := recvmsg n c.stream
  let fds := installFds c.nextFd r.files
  let c := { c with stream := r.left, nextFd := c.nextFd + r.files.length }
  if r.bytes.length ≠ n then (.error .EPROTO, c)
  else if kMaxSidecarFds < fds.length then (.error .EOVERFLOW, c.close fds)
  else (.ok (r.bytes, fds), c)

/-- The loop of `read_exact` over the segments: plain reads until `n` bytes are there. -/
def readSegments (ended : Bool) : ℕ → List Segment → Except Errno (List UInt8) × List Segment
  | 0, segs => (.ok [], segs)
  | _ + 1, [] => (.error (if ended then .EPROTO else .ETIMEDOUT), [])
  | n + 1, seg :: rest =>
      if n + 1 < seg.payload.length then
        (.ok (seg.payload.take (n + 1)), .plain (seg.payload.drop (n + 1)) :: rest)
      else
        match readSegments ended (n + 1 - seg.payload.length) rest with
        | (.ok bs, segs) => (.ok (seg.payload ++ bs), segs)
        | (.error e, segs) => (.error e, segs)

/-- **`read_exact`**: read `n` bytes, or fail having read what there was. -/
def readExact (c : SidecarClient) (n : ℕ) : Except Errno (List UInt8) × SidecarClient :=
  let r := readSegments c.ended n c.stream
  (r.1, { c with stream := r.2 })

/-- **`recv_pool_handshake`**: the header, the FDs and the import blob of a pool bundle. -/
def recvPoolHandshake (c : SidecarClient) :
    Except Errno (PoolHandshakeHeader × List Fd × List UInt8) × SidecarClient :=
  if c.stream = [] ∧ c.ended = false then (.error .ETIMEDOUT, c)
  else
    match c.recvFds PoolHandshakeHeader.size with
    | (.error e, c) => (.error e, c)
    | (.ok (raw, fds), c) =>
        let header := PoolHandshakeHeader.decode raw
        if header.msg ≠ SidecarMsg.PoolHandshake then (.error .EPROTO, c.close fds)
        else if 0 < header.extLen then
          match c.readExact header.extLen.toNat with
          | (.error e, c) => (.error e, c.close fds)
          | (.ok ext, c) => (.ok (header, fds, ext), c)
        else (.ok (header, fds, []), c)

/-- The loop that reads and discards `left` bytes of a blob, at most 512 at a time; false when a read
fails. -/
def skipBlob (left : ℕ) (c : SidecarClient) : Bool × SidecarClient :=
  if _h : 0 < left then
    let chunk := min left 512
    match c.readExact chunk with
    | (.ok _, c) => skipBlob (left - chunk) c
    | (.error _, c) => (false, c)
  else (true, c)
termination_by left
decreasing_by omega

section Poll

variable {σ : Type}

/-- The state of `poll_sync_fences` between two rounds of its loop. -/
structure PollState (σ : Type) where
  count : ℕ
  /-- The sink's context. -/
  ctx : σ
  client : SidecarClient

/-- The first byte of the next message, if there is one: `MSG_PEEK`. -/
def peek (c : SidecarClient) : Option UInt8 := c.stream.head?.bind fun seg => seg.payload.head?

/-- Pass a fence to the sink; without a sink the FD is closed. -/
def deliver (sink : Option (σ → UInt64 → Fd → σ)) (s : PollState σ) (token : UInt64) (fd : Fd)
    (c : SidecarClient) : PollState σ :=
  match sink with
  | some f => { count := s.count + 1, ctx := f s.ctx token fd, client := c }
  | none => { count := s.count + 1, ctx := s.ctx, client := c.close [fd] }

variable (sink : Option (σ → UInt64 → Fd → σ))

/-- **One round of the loop of `poll_sync_fences`**, once `poll` has found the socket readable: handle
one message. The flag is false when the loop ends here. -/
def pollRound (s : PollState σ) : Bool × PollState σ :=
  match s.client.peek with
  | none => (false, s)
  | some tag =>
      let hdrSize :=
        if tag = SidecarMsg.SyncFence then SyncFenceHeader.size else PoolHandshakeHeader.size
      match s.client.recvFds hdrSize with
      | (.error _, c) => (false, { s with client := c })
      | (.ok (rawHdr, fds), c) =>
          if tag = SidecarMsg.SyncFence then
            match fds with
            | [fd] => (true, deliver sink s (SyncFenceHeader.decode rawHdr).syncFenceToken fd c)
            | _ => (true, { s with client := c.close fds })
          else if tag = SidecarMsg.PoolHandshake then
            -- a pool announced again: the blob goes first, then the FDs
            match skipBlob (PoolHandshakeHeader.decode rawHdr).extLen.toNat c with
            | (true, c) => (true, { s with client := c.close fds })
            | (false, c) => (false, { s with client := { c.close fds with shut := true } })
          else (true, { s with client := c.close fds })

/-- **The loop of `poll_sync_fences`**: `ready` is how often `poll` finds the socket readable before it
times out for the first time. -/
def pollLoop : ℕ → PollState σ → PollState σ
  | 0, s => s
  | ready + 1, s =>
      match pollRound sink s with
      | (true, s) => pollLoop ready s
      | (false, s) => s

/-- **`poll_sync_fences`**: hand the queued fences to the sink, and count them. -/
def pollSyncFences (ready : ℕ) (ctx : σ) (c : SidecarClient) : PollState σ :=
  pollLoop sink ready { count := 0, ctx := ctx, client := c }

end Poll

end SidecarClient

end Axon
