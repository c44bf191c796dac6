import Axon.Foundation.Machine
import Axon.Sidecar.Client

/-! # What becomes of received FDs

A `recvmsg` installs the FDs of a message in the process whatever the call that makes it then returns.
`ledgerMachine` is a client with a peer that sends anything, and a record of the FDs its caller has been handed.
`fds_accounted_iff` says when every FD installed is either closed or handed over, exactly once. -/

namespace Axon

open Foundation

/-- Installed FDs are numbered in a row. -/
theorem map_num_installFds (n : ℕ) (fs : List File) :
    (installFds n fs).map (·.num) = List.range' n fs.length := by
  induction fs generalizing n with
  | nil => rfl
  | cons f fs ih => rw [installFds, List.map_cons, ih, List.length_cons, List.range'_succ]

namespace SidecarClient

/-- The client behind one `recvmsg` for `n` bytes, with its FDs installed. -/
def received (c : SidecarClient) (n : ℕ) : SidecarClient :=
  { c with stream := (recvmsg n c.stream).left, nextFd := c.nextFd + (recvmsg n c.stream).files.length }

/-- **What `recv_fds` does** with what it receives: too little, too many FDs, or a payload. -/
theorem recvFds_cases (c : SidecarClient) (n : ℕ) :
    ((recvmsg n c.stream).bytes.length < n ∧ c.recvFds n = (.error .EPROTO, c.received n)) ∨
    (n ≤ (recvmsg n c.stream).bytes.length ∧
      c.recvFds n = (.error .EOVERFLOW, (c.received n).close (installFds c.nextFd (recvmsg n c.stream).files))) ∨
    (n ≤ (recvmsg n c.stream).bytes.length ∧ c.recvFds n =
      (.ok ((recvmsg n c.stream).bytes, installFds c.nextFd (recvmsg n c.stream).files), c.received n)) := by
  -- no more than `n` bytes are read, so short of `n` is the only other case
  have hle := length_recvmsg_le n c.stream
  unfold recvFds
  dsimp only
  by_cases hshort : (recvmsg n c.stream).bytes.length < n
  · rw [if_pos hshort.ne]
    exact .inl ⟨hshort, rfl⟩
  · have hlen : (recvmsg n c.stream).bytes.length = n := by omega
    rw [if_neg (not_not.mpr hlen)]
    by_cases hmany : kMaxSidecarFds < (installFds c.nextFd (recvmsg n c.stream).files).length
    · rw [if_pos hmany]
      exact .inr (.inl ⟨hlen.ge, rfl⟩)
    · rw [if_neg hmany]
      exact .inr (.inr ⟨hlen.ge, rfl⟩)

/-- **No FD comes with a payload cut short**: where the first piece with FDs begins within the `n` bytes that are
read next, it does not end within them. -/
def CleanRead (c : SidecarClient) (n : ℕ) : Prop :=
  ∀ seg ∈ (c.stream.dropWhile Segment.isPlain).head?, byteCount (c.stream.takeWhile Segment.isPlain) < n →
    n ≤ byteCount (c.stream.takeWhile Segment.isPlain) + seg.payload.length

/-- Whether a read is clean can be read off the stream. -/
instance (c : SidecarClient) (n : ℕ) : Decidable (c.CleanRead n) :=
  inferInstanceAs (Decidable (∀ seg ∈ (c.stream.dropWhile Segment.isPlain).head?,
    byteCount (c.stream.takeWhile Segment.isPlain) < n →
      n ≤ byteCount (c.stream.takeWhile Segment.isPlain) + seg.payload.length))

/-- A read is clean when FDs come with all its bytes only. -/
theorem cleanRead_iff (c : SidecarClient) (n : ℕ) :
    c.CleanRead n ↔ ((recvmsg n c.stream).files ≠ [] → n ≤ (recvmsg n c.stream).bytes.length) := by
  unfold CleanRead
  generalize c.stream = segs
  induction segs generalizing n with
  | nil => exact iff_of_true nofun (fun h => absurd rfl h)
  | cons seg rest ih =>
      rw [List.takeWhile_cons, List.dropWhile_cons, recvmsg]
      by_cases hfiles : seg.files = []
      · -- the read goes on behind a piece without FDs, unless it has its bytes
        have hempty : seg.isPlain = true := List.isEmpty_iff.mpr hfiles
        simp only [hempty, if_true, byteCount_cons]
        by_cases hlt : n < seg.payload.length
        · rw [if_pos hlt]
          exact iff_of_true (fun _ _ h => by omega) fun h => absurd hfiles h
        rw [if_neg hlt]
        by_cases hall : n = seg.payload.length
        · rw [if_pos (.inr hall)]
          exact iff_of_true (fun _ _ h => by omega) fun h => absurd hfiles h
        · rw [if_neg (not_or.mpr ⟨not_not.mpr hfiles, hall⟩)]
          have hrest := ih (n - seg.payload.length)
          dsimp only
          rw [List.length_append]
          constructor
          · intro h hne
            have := hrest.mp (fun seg' hseg' hbegin => by have := h seg' hseg' (by omega); omega) hne
            omega
          · intro h seg' hseg' hbegin
            have := hrest.mpr (fun hne => by have := h hne; omega) seg' hseg' (by omega)
            omega
      · have hempty : seg.isPlain = false := Bool.eq_false_iff.mpr fun h => hfiles (List.isEmpty_iff.mp h)
        simp only [hempty, Bool.false_eq_true, if_false, List.head?_cons, Option.mem_some_iff, forall_eq']
        show (0 < n → n ≤ 0 + _) ↔ _
        by_cases hlt : n < seg.payload.length
        · rw [if_pos hlt]
          exact iff_of_true (fun _ => by omega) fun _ => by dsimp only; rw [List.length_take]; omega
        · rw [if_neg hlt, if_pos (.inl hfiles)]
          dsimp only
          constructor
          · intro h _
            by_cases hn : 0 < n
            · have := h hn
              omega
            · omega
          · intro h _
            have := h hfiles
            omega

/-- **Every FD is accounted for**: of the FDs installed, numbered from `first` on, each has been closed or is
held, and that once. -/
def Accounts (first : ℕ) (c : SidecarClient) (held : List Fd) : Prop :=
  first ≤ c.nextFd ∧ ((c.closed ++ held).map (·.num)).Perm (List.range' first (c.nextFd - first))

namespace Accounts

variable {first : ℕ} {c c' : SidecarClient} {held fds : List Fd}

/-- Only the FDs closed and installed count. -/
theorem congr (h : Accounts first c held) (hclosed : c'.closed = c.closed) (hnext : c'.nextFd = c.nextFd) :
    Accounts first c' held := by
  unfold Accounts
  rw [hclosed, hnext]
  exact h

/-- There are as many FDs closed and held as have been installed. -/
theorem length_eq (h : Accounts first c held) :
    c.closed.length + held.length = c.nextFd - first := by
  have hlen := h.2.length_eq
  simpa using hlen

/-- FDs are installed and held. -/
theorem install (h : Accounts first c held) (c' : SidecarClient) (files : List File) (hclosed : c'.closed = c.closed)
    (hnext : c'.nextFd = c.nextFd + files.length) :
    Accounts first c' (held ++ installFds c.nextFd files) := by
  obtain ⟨hfirst, hperm⟩ := h
  have hnext' : c'.nextFd - first = (c.nextFd - first) + files.length := by omega
  refine ⟨by omega, ?_⟩
  rw [hclosed, hnext', ← List.append_assoc, List.map_append, map_num_installFds,
    ← List.range'_append_1 (s := first)]
  refine hperm.append ?_
  rw [Nat.add_sub_cancel' hfirst]

/-- FDs held are closed. -/
theorem close (h : Accounts first c (held ++ fds)) : Accounts first (c.close fds) held := by
  refine ⟨h.1, List.Perm.trans ?_ h.2⟩
  show ((c.closed ++ fds ++ held).map (·.num)).Perm _
  refine List.Perm.map _ ?_
  rw [List.append_assoc]
  exact List.perm_append_comm.append_left _

/-- FDs that are installed and neither closed nor held break the account, if there are any. -/
theorem install_iff (h : Accounts first c held) (c' : SidecarClient) (files : List File) (hclosed : c'.closed = c.closed)
    (hnext : c'.nextFd = c.nextFd + files.length) : Accounts first c' held ↔ files = [] := by
  constructor
  · intro hacc
    have hfirst := h.1
    have hbefore := h.length_eq
    have hafter := hacc.length_eq
    rw [hclosed, hnext] at hafter
    refine List.length_eq_zero_iff.mp ?_
    omega
  · rintro rfl
    exact h.congr hclosed hnext

/-- **One `recvmsg` keeps the account** when the FDs it returns are held; one that fails does exactly when
no FD came with a payload cut short. -/
theorem recvFds (h : Accounts first c held) (n : ℕ) :
    (∀ raw fds c', c.recvFds n = (.ok (raw, fds), c') → c.CleanRead n ∧ Accounts first c' (held ++ fds)) ∧
    ∀ e c', c.recvFds n = (.error e, c') → (Accounts first c' held ↔ c.CleanRead n) := by
  have hheld := h.install (c.received n) (recvmsg n c.stream).files rfl rfl
  rw [cleanRead_iff]
  rcases c.recvFds_cases n with ⟨hshort, heq⟩ | ⟨hlen, heq⟩ | ⟨hlen, heq⟩
  · refine ⟨fun raw fds c' hr => ?_, fun e c' hr => ?_⟩
    · rw [heq] at hr
      cases hr
    · rw [heq] at hr
      cases hr
      -- nothing was closed, so nothing can have been installed
      rw [h.install_iff (c.received n) (recvmsg n c.stream).files rfl rfl, imp_iff_not (not_le.mpr hshort),
        not_not]
  · refine ⟨fun raw fds c' hr => ?_, fun e c' hr => ?_⟩
    · rw [heq] at hr
      cases hr
    · rw [heq] at hr
      cases hr
      exact iff_of_true hheld.close fun _ => hlen
  · refine ⟨fun raw fds c' hr => ?_, fun e c' hr => ?_⟩
    · rw [heq] at hr
      cases hr
      exact ⟨fun _ => hlen, hheld⟩
    · rw [heq] at hr
      cases hr

end Accounts

/-- Reading bytes of a blob installs and closes nothing. -/
theorem skipBlob_fds (left : ℕ) (c : SidecarClient) :
    (skipBlob left c).2.closed = c.closed ∧ (skipBlob left c).2.nextFd = c.nextFd := by
  induction left using Nat.strong_induction_on generalizing c with
  | _ left ih =>
      rw [skipBlob]
      by_cases hpos : 0 < left
      · rw [dif_pos hpos]
        -- reading on neither installs nor closes an FD
        dsimp only
        split
        · rename_i c₁ heq
          have hrest := ih (left - min left 512) (by omega) c₁
          have hc₁ : c₁ = (c.readExact (min left 512)).2 := by rw [heq]
          rw [hrest.1, hrest.2, hc₁]
          exact ⟨rfl, rfl⟩
        · rename_i c₁ heq
          have hc₁ : c₁ = (c.readExact (min left 512)).2 := by rw [heq]
          rw [hc₁]
          exact ⟨rfl, rfl⟩
      · rw [dif_neg hpos]
        exact ⟨rfl, rfl⟩

/-- How many bytes `poll_sync_fences` takes for a header, going by its tag. -/
def headerSize (tag : UInt8) : ℕ :=
  if tag = SidecarMsg.SyncFence then SyncFenceHeader.size else PoolHandshakeHeader.size

/-- A round that fails to receive a header ends the loop. -/
theorem pollRound_error {σ : Type} {sink : Option (σ → UInt64 → Fd → σ)} {s : PollState σ} {tag : UInt8}
    (hpeek : s.client.peek = some tag) {e : Errno} {c : SidecarClient}
    (hrecv : s.client.recvFds (headerSize tag) = (.error e, c)) :
    pollRound sink s = (false, { s with client := c }) := by
  unfold headerSize at hrecv
  simp only [pollRound, hpeek, hrecv]

/-- A round does not look at the count. -/
theorem pollRound_count {σ : Type} (sink : Option (σ → UInt64 → Fd → σ)) (count : ℕ) (ctx : σ)
    (c : SidecarClient) : (pollRound sink ⟨0, ctx, c⟩).2.client = (pollRound sink ⟨count, ctx, c⟩).2.client ∧
      (pollRound sink ⟨0, ctx, c⟩).2.ctx = (pollRound sink ⟨count, ctx, c⟩).2.ctx := by
  unfold pollRound deliver
  dsimp only
  split
  · exact ⟨rfl, rfl⟩
  · split
    · exact ⟨rfl, rfl⟩
    · split_ifs
      · split
        · cases sink <;> exact ⟨rfl, rfl⟩
        · exact ⟨rfl, rfl⟩
      · split <;> exact ⟨rfl, rfl⟩
      · exact ⟨rfl, rfl⟩

/-- **What a round does with the FDs of a header**: it delivers the one of a fence, or closes them all. -/
theorem pollRound_fds {σ : Type} (sink : Option (σ → UInt64 → Fd → σ)) {s : PollState σ} {tag : UInt8}
    (hpeek : s.client.peek = some tag) {raw : List UInt8} {fds : List Fd} {c : SidecarClient}
    (hrecv : s.client.recvFds (headerSize tag) = (.ok (raw, fds), c)) :
    (∃ token fd, fds = [fd] ∧ (pollRound sink s).2 = deliver sink s token fd c) ∨
    ((pollRound sink s).2.ctx = s.ctx ∧ (pollRound sink s).2.client.closed = c.closed ++ fds ∧
      (pollRound sink s).2.client.nextFd = c.nextFd) := by
  unfold headerSize at hrecv
  by_cases hfence : tag = SidecarMsg.SyncFence
  · rw [if_pos hfence] at hrecv
    by_cases hone : ∃ fd, fds = [fd]
    · obtain ⟨fd, rfl⟩ := hone
      refine .inl ⟨(SyncFenceHeader.decode raw).syncFenceToken, fd, rfl, ?_⟩
      simp only [pollRound, hpeek, hrecv, if_pos hfence]
    · refine .inr ?_
      have hround : pollRound sink s = (true, { s with client := c.close fds }) := by
        simp only [pollRound, hpeek, hrecv, if_pos hfence]
        split
        · rename_i fd
          exact absurd ⟨fd, rfl⟩ hone
        · rfl
      rw [hround]
      exact ⟨rfl, rfl, rfl⟩
  · rw [if_neg hfence] at hrecv
    refine .inr ?_
    by_cases hpool : tag = SidecarMsg.PoolHandshake
    · -- whether or not the blob can be skipped, the FDs are closed behind it
      obtain ⟨hclosed, hnext⟩ := skipBlob_fds (PoolHandshakeHeader.decode raw).extLen.toNat c
      simp only [pollRound, hpeek, hrecv, if_neg hfence, if_pos hpool]
      split
      · rename_i c₁ hskip
        rw [hskip] at hclosed hnext
        exact ⟨rfl, congrArg (· ++ fds) hclosed, hnext⟩
      · rename_i c₁ hskip
        rw [hskip] at hclosed hnext
        exact ⟨rfl, congrArg (· ++ fds) hclosed, hnext⟩
    · simp only [pollRound, hpeek, hrecv, if_neg hfence, if_neg hpool]
      exact ⟨trivial, rfl, rfl⟩

end SidecarClient

/-- A client, and the FDs that its caller has been handed. -/
structure FdLedger where
  client : SidecarClient
  /-- By `recv_pool_handshake`, or by a sink of `poll_sync_fences`. -/
  handed : List Fd
  deriving DecidableEq

/-- What arrives, and what the client does with it. -/
inductive FdEv
  /-- Anything arrives, in pieces that are not empty, with at most `kMaxSidecarFds` FDs on each. -/
  | arrive (segs : List Segment)
  /-- The peer closes its end. -/
  | hangup
  /-- A call of `recv_pool_handshake`. -/
  | handshake
  /-- One round of the loop of `poll_sync_fences`, called with a sink or without. -/
  | round (sink : Bool)

namespace FdLedger

/-- A sink that keeps the FDs. -/
def keep (held : List Fd) (_ : UInt64) (fd : Fd) : List Fd := held ++ [fd]

/-- A sink that keeps what it is handed, or none. -/
def sinkOf (sink : Bool) : Option (List Fd → UInt64 → Fd → List Fd) := if sink then some keep else none

/-- One of these steps. -/
def step (s : FdLedger) : FdEv → Option FdLedger
  | .arrive segs =>
      if s.client.ended = false ∧ ∀ seg ∈ segs, seg.payload ≠ [] ∧ seg.files.length ≤ kMaxSidecarFds then
        some { s with client := s.client.arrive segs }
      else none
  | .hangup => some { s with client := { s.client with eof := true } }
  | .handshake =>
      match s.client.recvPoolHandshake with
      | (.error _, c) => some { s with client := c }
      | (.ok (_, fds, _), c) => some { client := c, handed := s.handed ++ fds }
  | .round sink =>
      let r := (SidecarClient.pollRound (sinkOf sink) ⟨0, s.handed, s.client⟩).2
      some { client := r.client, handed := r.ctx }

/-- **Every FD is accounted for.** -/
def Accounted (first : ℕ) (s : FdLedger) : Prop := s.client.Accounts first s.handed

/-- **The condition on an event**: the header that it goes on to read is not cut short, unless it comes
without FDs. -/
def HeaderWhole (s : FdLedger) : FdEv → Prop
  | .handshake => s.client.CleanRead PoolHandshakeHeader.size
  | .round _ => ∀ tag ∈ s.client.peek, s.client.CleanRead (SidecarClient.headerSize tag)
  | _ => True

/-- Whether a header arrives whole can be read off the stream. -/
instance : ∀ (s : FdLedger) (e : FdEv), Decidable (s.HeaderWhole e)
  | s, .handshake => inferInstanceAs (Decidable (s.client.CleanRead _))
  | s, .round _ => inferInstanceAs (Decidable (∀ tag ∈ s.client.peek, s.client.CleanRead _))
  | _, .arrive _ => isTrue trivial
  | _, .hangup => isTrue trivial

variable {first : ℕ}

/-- **A pool handshake keeps the account** exactly when its header is not cut short. -/
theorem accounted_handshake_iff {s s' : FdLedger} (h : s.Accounted first)
    (hs : s.step .handshake = some s') : s'.Accounted first ↔ s.HeaderWhole .handshake := by
  -- a header that is refused leaks its FDs unless they came whole
  obtain ⟨hok, herr⟩ := SidecarClient.Accounts.recvFds h PoolHandshakeHeader.size
  dsimp only [FdLedger.step] at hs
  unfold SidecarClient.recvPoolHandshake at hs
  by_cases hidle : s.client.stream = [] ∧ s.client.ended = false
  · rw [if_pos hidle] at hs
    obtain rfl := Option.some.inj hs
    exact iff_of_true h (by simp [HeaderWhole, SidecarClient.CleanRead, hidle.1])
  rw [if_neg hidle] at hs
  generalize hrecv : s.client.recvFds PoolHandshakeHeader.size = r at hs
  obtain ⟨res, c⟩ := r
  cases res with
  | error e =>
      obtain rfl := Option.some.inj hs
      exact herr e c hrecv
  | ok r =>
      obtain ⟨raw, fds⟩ := r
      obtain ⟨hclean, hheld⟩ := hok raw fds c hrecv
      -- from here on they are held, and every failure closes them
      refine iff_of_true ?_ hclean
      dsimp only at hs
      by_cases htag : (PoolHandshakeHeader.decode raw).msg ≠ SidecarMsg.PoolHandshake
      · rw [if_pos htag] at hs
        obtain rfl := Option.some.inj hs
        exact hheld.close
      rw [if_neg htag] at hs
      by_cases hext : 0 < (PoolHandshakeHeader.decode raw).extLen
      · rw [if_pos hext] at hs
        generalize hread : c.readExact (PoolHandshakeHeader.decode raw).extLen.toNat = r at hs
        obtain ⟨res, c₁⟩ := r
        have hc₁ : c₁ = (c.readExact (PoolHandshakeHeader.decode raw).extLen.toNat).2 := by rw [hread]
        have hheld₁ : SidecarClient.Accounts first c₁ (s.handed ++ fds) := by
          rw [hc₁]
          exact hheld.congr rfl rfl
        cases res with
        | error e =>
            obtain rfl := Option.some.inj hs
            exact hheld₁.close
        | ok ext =>
            obtain rfl := Option.some.inj hs
            exact hheld₁
      · rw [if_neg hext] at hs
        obtain rfl := Option.some.inj hs
        exact hheld

/-- **One round keeps the account** exactly when its header is not cut short. -/
theorem accounted_round_iff {s s' : FdLedger} {sink : Bool} (h : s.Accounted first)
    (hs : s.step (.round sink) = some s') : s'.Accounted first ↔ s.HeaderWhole (.round sink) := by
  dsimp only [FdLedger.step] at hs
  obtain rfl := Option.some.inj hs
  unfold HeaderWhole
  -- nothing to read: the round does nothing
  cases hpeek : s.client.peek with
  | none =>
      have hround : (SidecarClient.pollRound (sinkOf sink) ⟨0, s.handed, s.client⟩).2 =
          ⟨0, s.handed, s.client⟩ := by
        simp only [SidecarClient.pollRound, hpeek]
      rw [hround]
      exact iff_of_true h nofun
  | some tag =>
      obtain ⟨hok, herr⟩ := SidecarClient.Accounts.recvFds h (SidecarClient.headerSize tag)
      simp only [Option.mem_some_iff, forall_eq']
      generalize hrecv : s.client.recvFds (SidecarClient.headerSize tag) = r
      obtain ⟨res, c⟩ := r
      cases res with
      | error e =>
          rw [SidecarClient.pollRound_error (s := ⟨0, s.handed, s.client⟩) hpeek hrecv]
          exact herr e c hrecv
      | ok r =>
          obtain ⟨raw, fds⟩ := r
          obtain ⟨hclean, hheld⟩ := hok raw fds c hrecv
          refine iff_of_true ?_ hclean
          rcases SidecarClient.pollRound_fds (sinkOf sink) (s := ⟨0, s.handed, s.client⟩) hpeek hrecv with
            ⟨token, fd, rfl, hround⟩ | ⟨hctx, hclosed, hnext⟩
          -- without a sink the fence is closed, with one it is handed over
          · rw [hround]
            cases sink with
            | true => exact hheld
            | false => exact hheld.close
          · unfold Accounted
            rw [hctx]
            exact hheld.close.congr hclosed hnext

/-- **One event keeps the account** exactly when it meets the condition. -/
theorem accounted_step_iff {s s' : FdLedger} {e : FdEv} (h : s.Accounted first) (hs : s.step e = some s') :
    s'.Accounted first ↔ s.HeaderWhole e := by
  cases e with
  | arrive segs =>
      dsimp only [FdLedger.step] at hs
      split_ifs at hs
      obtain rfl := Option.some.inj hs
      exact iff_of_true (h.congr rfl rfl) trivial
  | hangup =>
      obtain rfl := Option.some.inj hs
      exact iff_of_true (h.congr rfl rfl) trivial
  | handshake => exact accounted_handshake_iff h hs
  | round sink => exact accounted_round_iff h hs

end FdLedger

/-- **The machine of received FDs**: a client that has received nothing yet. -/
def ledgerMachine : Machine FdLedger FdEv where
  init s := s.client.stream = [] ∧ s.client.closed = [] ∧ s.handed = []
  step := FdLedger.step

/-- **A call of `poll_sync_fences` is a series of rounds.** -/
theorem pollSyncFences_rounds (sink : Bool) (ready : ℕ) (s : FdLedger) :
    ∃ k ≤ ready, ∃ r : SidecarClient.PollState (List Fd),
      r = SidecarClient.pollSyncFences (FdLedger.sinkOf sink) ready s.handed s.client ∧
      ledgerMachine.exec s (List.replicate k (.round sink)) = some ⟨r.client, r.ctx⟩ := by
  -- the counter of rounds does not matter, so any may be assumed
  suffices hloop : ∀ (ready : ℕ) (p : SidecarClient.PollState (List Fd)), ∃ k ≤ ready,
      ledgerMachine.exec ⟨p.client, p.ctx⟩ (List.replicate k (.round sink)) =
        some ⟨(SidecarClient.pollLoop (FdLedger.sinkOf sink) ready p).client,
          (SidecarClient.pollLoop (FdLedger.sinkOf sink) ready p).ctx⟩ by
    obtain ⟨k, hk, hexec⟩ := hloop ready ⟨0, s.handed, s.client⟩
    exact ⟨k, hk, _, rfl, hexec⟩
  intro ready
  induction ready with
  | zero => exact fun p => ⟨0, le_rfl, rfl⟩
  | succ ready ih =>
      intro p
      have hround : ledgerMachine.step ⟨p.client, p.ctx⟩ (.round sink) =
          some ⟨(SidecarClient.pollRound (FdLedger.sinkOf sink) p).2.client,
            (SidecarClient.pollRound (FdLedger.sinkOf sink) p).2.ctx⟩ := by
        obtain ⟨hclient, hctx⟩ := SidecarClient.pollRound_count (FdLedger.sinkOf sink) p.count p.ctx p.client
        exact congrArg some (by rw [hclient, hctx])
      generalize hp : SidecarClient.pollRound (FdLedger.sinkOf sink) p = r at hround
      obtain ⟨goes_on, p'⟩ := r
      -- the round goes on to the next one, or was the last
      cases goes_on with
      | true =>
          obtain ⟨k, hk, hexec⟩ := ih p'
          refine ⟨k + 1, Nat.succ_le_succ hk, ?_⟩
          rw [List.replicate_succ, Machine.exec_cons, hround, SidecarClient.pollLoop, hp]
          exact hexec
      | false =>
          refine ⟨1, Nat.succ_le_succ (Nat.zero_le _), ?_⟩
          rw [List.replicate_one, Machine.exec_cons, hround, SidecarClient.pollLoop, hp]
          rfl

/-- **When no FD is leaked**: whatever a peer sends, and whatever calls are made, every FD installed has been
closed or handed over exactly once after each of them, exactly when no header that comes with FDs is cut
short. -/
theorem fds_accounted_iff {s₀ s : FdLedger} {tr : List FdEv} (h₀ : ledgerMachine.init s₀)
    (hexec : ledgerMachine.exec s₀ tr = some s) :
    ledgerMachine.Meets (fun s e => ∀ s', ledgerMachine.step s e = some s' →
      s'.Accounted s₀.client.nextFd) s₀ tr ↔ ledgerMachine.Meets FdLedger.HeaderWhole s₀ tr := by
  obtain ⟨-, hclosed, hhanded⟩ := h₀
  refine Machine.meets_keeps_iff (P := fun s => s.Accounted s₀.client.nextFd) hexec ?_
    fun s e s' h hs => FdLedger.accounted_step_iff h hs
  refine ⟨le_rfl, ?_⟩
  rw [hclosed, hhanded, Nat.sub_self]
  exact .nil

/-- A pool header of two buffers without import parameters, and the header of a fence. -/
def twoBufferHeader : PoolHandshakeHeader :=
  { msg := SidecarMsg.PoolHandshake
    backend := PoolBackend.toByte .Custom
    extLen := 0
    wireVersion := kWireVersion
    poolGeneration := 1
    nBuffers := 2
    bufferSize := 4096 }

/-- The header of a fence. -/
def fenceHeader : SyncFenceHeader := ⟨SidecarMsg.SyncFence, 42⟩

/-- A bundle, then a fence for a sink and one without: of the four FDs one is closed and three are handed
over. -/
theorem fds_accounted_fences : ∃ s : FdLedger, s.Accounted 0 ∧ s.client.nextFd = 4 ∧
    s.client.closed.map (·.num) = [3] ∧ s.handed.map (·.num) = [0, 1, 2] := by
  let s₀ : FdLedger := ⟨.onStream [] 0, []⟩
  let tr : List FdEv := [.arrive [⟨twoBufferHeader.encode, [⟨1, 4096⟩, ⟨2, 4096⟩]⟩], .handshake,
    .arrive [⟨fenceHeader.encode, [⟨3, 0⟩]⟩, ⟨fenceHeader.encode, [⟨4, 0⟩]⟩], .round true, .round false]
  have hrun : (ledgerMachine.exec s₀ tr).map (fun s =>
      (s.client.nextFd, s.client.closed.map (·.num), s.handed.map (·.num))) = some (4, [3], [0, 1, 2]) := by
    decide +kernel
  have hread : ledgerMachine.Meets FdLedger.HeaderWhole s₀ tr := by decide +kernel
  obtain ⟨s, hs, hres⟩ := Option.map_eq_some_iff.mp hrun
  simp only [Prod.mk.injEq] at hres
  have hinit : ledgerMachine.init s₀ := ⟨rfl, rfl, rfl⟩
  have hall := (fds_accounted_iff hinit hs).mpr hread
  refine ⟨s, hall.invariant (P := fun s => s.Accounted 0) hs ⟨le_rfl, .nil⟩ ?_, hres⟩
  intro s₁ e s₂ _ hkept hs₂
  exact hkept s₂ hs₂

/-- **A header cut short leaks its FDs**: ten bytes of a header arrive with two FDs, and the handshake fails
with neither of them closed or handed over. -/
theorem short_header_leaks : ∃ (s s' : FdLedger) (seg : Segment), seg.files.length = 2 ∧
    s = ⟨.onStream [seg] 0, []⟩ ∧ s.client.recvPoolHandshake.1 = .error .EPROTO ∧
    s.step .handshake = some s' ∧ s'.client.nextFd = 2 ∧ s'.client.closed = [] ∧ s'.handed = [] ∧
    ¬ ledgerMachine.Meets (fun s e => ∀ s', ledgerMachine.step s e = some s' → s'.Accounted 0)
      ⟨.onStream [] 0, []⟩ [.arrive [seg], .handshake] := by
  let seg : Segment := ⟨twoBufferHeader.encode.take 10, [⟨1, 4096⟩, ⟨2, 4096⟩]⟩
  have harrive : ledgerMachine.step ⟨.onStream [] 0, []⟩ (.arrive [seg]) = some ⟨.onStream [seg] 0, []⟩ := by
    decide +kernel
  have hcall : (SidecarClient.onStream [seg] 0).recvPoolHandshake = (.error .EPROTO, .onStream [] 2) := rfl
  refine ⟨_, ⟨.onStream [] 2, []⟩, seg, rfl, rfl, ?_, ?_, rfl, rfl, rfl, fun h => ?_⟩
  · rw [hcall]
  · simp only [FdLedger.step, hcall]
  -- neither of the two FDs is closed or handed over
  · have hleft := (h.2 _ harrive).1 ⟨.onStream [] 2, []⟩ ?_
    · have := hleft.2.length_eq
      exact absurd this (by decide)
    · show FdLedger.step ⟨.onStream [seg] 0, []⟩ .handshake = _
      simp only [FdLedger.step, hcall]

end Axon
