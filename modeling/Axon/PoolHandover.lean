import Axon.ProducerCache

/-! # Handing a pool over

A bundle travels in one message of at most `kMaxSidecarFds` FDs, followed by at most `kMaxHandshakeExt` bytes
of import parameters. `TensorPublisher.create` refuses a pool whose parameters are longer, and looks at nothing
else. `pool_handed_over_iff` says for which pools that is enough. -/

namespace Axon

open Foundation

/-- One handshake can carry the pool: its FDs fit a message, and its import parameters the extension. -/
def TensorPool.Carriable (pool : TensorPool) : Prop :=
  pool.dmaBufFds.length ≤ kMaxSidecarFds ∧ pool.importParams.length ≤ kMaxHandshakeExt

/-- **The server can deliver the pool**: what it sends to a live consumer with room for the bundle arrives in
full, with all the FDs and all the import parameters that the pool has. -/
def SidecarServer.Delivers (s : SidecarServer) (pool : TensorPool) : Prop :=
  ∀ c : Conn, c.peerOpen = true → c.HasRoom s.bundle.size →
    ∃ header, s.sendPoolTo c = some (.ok { c with
      sent := c.sent ++ [.pool header (pool.dmaBufFds.map (·.file)) pool.importParams] })

namespace TensorPublisher

/-- The bundle made of a pool has its FDs, and its import parameters unless they are too long. -/
theorem bundleOf_contents (bufferSize : UInt64) (pool : TensorPool) :
    (bundleOf bufferSize pool).poolFds = pool.dmaBufFds ∧ (bundleOf bufferSize pool).ext =
      if pool.importParams.length ≤ kMaxHandshakeExt then pool.importParams else [] := by
  by_cases hfits : pool.importParams.length ≤ kMaxHandshakeExt
  · obtain ⟨hfds, -, -, hext⟩ := bundleOf_spec bufferSize pool hfits
    exact ⟨hfds, by rw [hext, if_pos hfits]⟩
  · unfold bundleOf SidecarServer.setPool
    dsimp only
    rw [if_neg (fun h => hfits h.2), if_neg hfits]
    exact ⟨rfl, rfl⟩

/-- The bundle made of a pool can be delivered when a handshake can carry the pool, and only then. -/
theorem delivers_iff {bufferSize : UInt64} {pool : TensorPool} {srv : SidecarServer}
    (h : (bundleOf bufferSize pool).SameBundle srv) : srv.Delivers pool ↔ pool.Carriable := by
  obtain ⟨hfds₀, hext₀⟩ := bundleOf_contents bufferSize pool
  have hfds : srv.poolFds = pool.dmaBufFds := h.poolFds.trans hfds₀
  have hext := h.ext.trans hext₀
  have hbundle : srv.bundle = .pool srv.header (pool.dmaBufFds.map (·.file)) srv.ext := by
    rw [SidecarServer.bundle, hfds]
  constructor
  · intro hdel
    -- a consumer that has read nothing and has just enough room
    obtain ⟨header, hsend⟩ := hdel ⟨0, [], 0, srv.bundle.size, true⟩ rfl (by simp [Conn.HasRoom, Conn.unread, streamSize])
    obtain ⟨hfiles, hsent⟩ := SidecarServer.sendFds_sent hsend
    refine ⟨?_, ?_⟩
    · rw [hbundle] at hfiles
      simpa [Message.files] using hfiles
    · by_contra hlong
      rw [if_neg hlong] at hext
      have hsame := List.head_eq_of_cons_eq (congrArg Conn.sent hsent)
      rw [hbundle, hext] at hsame
      have hempty : pool.importParams = [] := by
        injection hsame
      rw [hempty] at hlong
      exact hlong (Nat.zero_le _)
  · rintro ⟨hcount, hlen⟩ c hopen hroom
    rw [if_pos hlen] at hext
    refine ⟨srv.header, ?_⟩
    rw [SidecarServer.sendPoolTo, sendFds, if_neg, if_neg (by simp [hopen]), if_pos hroom, hbundle, hext]
    rw [hbundle]
    simpa [Message.files] using hcount

/-! ## Which pools `create` refuses -/

/-- **`create` refuses**: the buffers have no size, the import parameters are too long, or one of the two
endpoints cannot be made. -/
def CreateRefuses (pool : TensorPool) (sys : Sys) : Prop :=
  (initialBufferSize pool sys).1 = 0 ∨ kMaxHandshakeExt < pool.importParams.length ∨
    (∃ e, (initialBufferSize pool sys).2.ask.1 = .error e) ∨
    ∃ e, (initialBufferSize pool sys).2.ask.2.ask.1 = .error e

/-- `create` fails, with an error, on the pools that it refuses and on no others. -/
theorem create_error_iff (pool : TensorPool) (sys : Sys) :
    (∃ e, (create pool sys).1 = .error e) ↔ CreateRefuses pool sys := by
  unfold create CreateRefuses
  generalize hsize : initialBufferSize pool sys = r
  obtain ⟨bufferSize, sys₁⟩ := r
  -- in the order of the checks: the size, the blob, the server, the slot
  by_cases hzero : bufferSize = 0
  · simp [hzero]
  by_cases hlong : kMaxHandshakeExt < pool.importParams.length
  · simp [hzero, hlong]
  generalize hserver : sys₁.ask = r₁
  obtain ⟨res, sys₂⟩ := r₁
  cases res with
  | error e => simp [hzero, hlong, hserver]
  | ok _ =>
      generalize hmeta : sys₂.ask = r₂
      obtain ⟨res, sys₃⟩ := r₂
      cases res with
      | error e => simp [hzero, hlong, hserver, hmeta]
      | ok _ => simp [hzero, hlong, hserver, hmeta]

/-- **A publisher that is created can hand its pool over.** For as long as the pool stands, whatever the owner
and the consumers have done, the bundle that `handshake_pool`, `publish` or `reannounce_pool` comes to send can
be delivered; and `create` refuses a pool that no handshake can carry. -/
structure HandsOver (pool : TensorPool) (sys : Sys) : Prop where
  delivers : ∀ pub sys', create pool sys = (.ok pub, sys') → ∀ tr s,
    producerMachine.exec ⟨sys', pool, pub⟩ tr = some s → s.pool = pool →
    ∀ e srv, s.transmitter e = some srv → srv.Delivers pool
  refuses : ¬ pool.Carriable → ∃ e, (create pool sys).1 = .error e

end TensorPublisher

/-- In any run after `create` the cache is current. -/
theorem Producer.cacheCurrent_of_exec {pool : TensorPool} {sys sys' : Sys} {pub : TensorPublisher}
    (hcreate : TensorPublisher.create pool sys = (.ok pub, sys')) {tr : List ProducerEv} {s : Producer}
    (hexec : producerMachine.exec ⟨sys', pool, pub⟩ tr = some s) : s.pub.CacheCurrent s.pool :=
  Machine.exec_invariant (P := fun s : Producer => s.pub.CacheCurrent s.pool) hexec
    ((TensorPublisher.unused_of_create hcreate).cacheCurrent pool)
    fun _ _ _ _ h hs _ => Producer.CacheInv.cache_of_step h hs

/-- What an operation comes to send, in any run after `create`, can be delivered when a handshake can carry the
pool as it then stands. -/
theorem Producer.transmitter_delivers_iff {pool : TensorPool} {sys sys' : Sys} {pub : TensorPublisher}
    (hcreate : TensorPublisher.create pool sys = (.ok pub, sys')) {tr : List ProducerEv} {s : Producer}
    (hexec : producerMachine.exec ⟨sys', pool, pub⟩ tr = some s) {e : ProducerEv} {srv : SidecarServer}
    (hsrv : s.transmitter e = some srv) : srv.Delivers s.pool ↔ s.pool.Carriable :=
  TensorPublisher.delivers_iff (Producer.transmitter_caches (Producer.cacheCurrent_of_exec hcreate hexec) hsrv)

/-- **Which pools are handed over**: those of at most `kMaxSidecarFds` buffers, and those that `create` refuses
for another reason. After a reallocation, too, what is sent can be delivered exactly when a handshake can carry
the pool. -/
theorem pool_handed_over_iff (pool : TensorPool) (sys : Sys) :
    (TensorPublisher.HandsOver pool sys ↔
      pool.dmaBufFds.length ≤ kMaxSidecarFds ∨ TensorPublisher.CreateRefuses pool sys) ∧
    ∀ pub sys', TensorPublisher.create pool sys = (.ok pub, sys') → ∀ tr s,
      producerMachine.exec ⟨sys', pool, pub⟩ tr = some s → ∀ e srv, s.transmitter e = some srv →
      (srv.Delivers s.pool ↔ s.pool.Carriable) := by
  refine ⟨?_, fun pub sys' hcreate tr s hexec e srv hsrv =>
    Producer.transmitter_delivers_iff hcreate hexec hsrv⟩
  constructor
  · intro h
    by_contra hnot
    rw [not_or] at hnot
    obtain ⟨hmany, hmade⟩ := hnot
    exact hmade ((TensorPublisher.create_error_iff pool sys).mp (h.refuses fun hc => hmany hc.1))
  · rintro (hfew | hrefuses)
    · refine ⟨fun pub sys' hcreate tr s hexec hpool e srv hsrv => ?_, fun hnot => ?_⟩
      · have hiff := Producer.transmitter_delivers_iff hcreate hexec hsrv
        rw [hpool] at hiff
        exact hiff.mpr ⟨hfew, TensorPublisher.blob_le_of_create hcreate⟩
      · -- too many bytes of parameters, which `create` does look at
        have hlong : kMaxHandshakeExt < pool.importParams.length := by
          by_contra hle
          exact hnot ⟨hfew, not_lt.mp hle⟩
        exact (TensorPublisher.create_error_iff pool sys).mpr (.inr (.inl hlong))
    · have herr := (TensorPublisher.create_error_iff pool sys).mpr hrefuses
      refine ⟨fun pub sys' hcreate => ?_, fun _ => herr⟩
      obtain ⟨e, he⟩ := herr
      rw [hcreate] at he
      cases he

/-- A pool of three buffers is handed over. -/
theorem pool_handed_over_three : ∃ pool sys,
    TensorPool.create ⟨false, false⟩ (.memfds 3 4096) .obliging = (some pool, sys) ∧
    TensorPublisher.HandsOver pool sys := by
  obtain ⟨pool, sys, hpool, hlen⟩ : ∃ pool sys,
      TensorPool.create ⟨false, false⟩ (.memfds 3 4096) .obliging = (some pool, sys) ∧
      pool.dmaBufFds.length = 3 := ⟨_, _, rfl, rfl⟩
  exact ⟨pool, sys, hpool, (pool_handed_over_iff pool sys).1.mpr (.inl (by rw [hlen]; decide))⟩

/-- **A pool of 33 buffers is created and never handed over**: the consumer that connects is turned away, by
`handshake_pool` and by every `publish` that picks it up. -/
theorem large_pool_not_handed_over : ∃ (pool : TensorPool) (sys : Sys) (s s' : Producer),
    TensorPool.create ⟨false, false⟩ (.memfds 33 4096) .obliging = (some pool, sys) ∧
    Producer.create ⟨false, false⟩ (.memfds 33 4096) .obliging = some s ∧
    producerMachine.exec s [.connect 0 4096 true, .handshake, .connect 1 4096 true,
      .publish 7 (.bytesFrame 16 .None) none] = some s' ∧
    s'.pub.server.clients = [] ∧ s'.pub.server.closed = [0, 1] ∧ s'.pub.rejected = 0 ∧
    ¬ TensorPublisher.HandsOver pool sys := by
  obtain ⟨pool, sys, hpool, hlen, hmade⟩ : ∃ pool sys,
      TensorPool.create ⟨false, false⟩ (.memfds 33 4096) .obliging = (some pool, sys) ∧
      pool.dmaBufFds.length = 33 ∧ ∃ pub, (TensorPublisher.create pool sys).1 = .ok pub :=
    ⟨_, _, rfl, rfl, _, rfl⟩
  obtain ⟨s, hs⟩ : ∃ s, Producer.create ⟨false, false⟩ (.memfds 33 4096) .obliging = some s := ⟨_, rfl⟩
  -- both consumers are closed, and the publish is accepted nonetheless
  have hexec : (producerMachine.exec s [.connect 0 4096 true, .handshake, .connect 1 4096 true,
      .publish 7 (.bytesFrame 16 .None) none]).map (fun s' =>
        (s'.pub.server.clients, s'.pub.server.closed, s'.pub.rejected)) = some ([], [0, 1], 0) := by
    cases hs
    decide +kernel
  obtain ⟨s', hs', hres⟩ := Option.map_eq_some_iff.mp hexec
  simp only [Prod.mk.injEq] at hres
  -- a pool of 33 buffers does not fit in a message, yet its publisher was made
  refine ⟨pool, sys, s, s', hpool, hs, hs', hres.1, hres.2.1, hres.2.2, fun h => ?_⟩
  obtain ⟨e, he⟩ := h.refuses fun hc => by
    have := hc.1
    rw [hlen] at this
    exact absurd this (by decide)
  obtain ⟨pub, hpub⟩ := hmade
  rw [hpub] at he
  cases he

end Axon
