import Axon.Offload

/-! # How many buffers the ROS offload needs

A descriptor that is kept too long names a buffer that has been stamped again. How long it is kept depends on three
numbers: how many frames may be stamped while a descriptor is on its way, how many descriptors the subscription keeps,
and how many frames may be stamped while a callback runs.

* **`OffloadLag`** bounds the first and the last, on a topic that loses nothing.
* **`offload_sizing`**: no run has a payload error exactly when the pool has more buffers than the three together. -/

namespace Axon

open Foundation

/-- **The lag of a topic and of a callback**: descriptors arrive in order and none is lost, at most `transport`
frames are stamped while one is on its way, and at most `callback` while one is being handled. -/
def OffloadLag {keep : ℕ} (transport callback : ℕ) (s : Offload keep) : OffloadEv → Prop
  | .stamp => (∀ m ∈ s.flight, s.prod.seqno + 1 ≤ m.seqno + transport) ∧
      ∀ p ∈ s.pending, s.prod.seqno + 1 ≤ p.2 + callback
  | .arrive i => i = 0
  | .lose _ => False
  | _ => True

/-! ## Numbers without gaps -/

/-- The numbers up to `last` that follow one another. -/
def Consecutive : List ℕ → ℕ → Prop
  | [], _ => True
  | a :: l, last => a + l.length = last ∧ Consecutive l last

namespace Consecutive

variable {l l' : List ℕ} {last : ℕ}

/-- The next number. -/
theorem concat (h : Consecutive l last) : Consecutive (l ++ [last + 1]) (last + 1) := by
  induction l with
  | nil => exact ⟨rfl, trivial⟩
  | cons a l ih =>
      refine ⟨?_, ih h.2⟩
      show a + (l ++ [last + 1]).length = last + 1
      rw [List.length_append, List.length_singleton, ← Nat.add_assoc, h.1]

/-- A later part of consecutive frames is consecutive. -/
theorem append_right (h : Consecutive (l ++ l') last) : Consecutive l' last := by
  induction l with
  | nil => exact h
  | cons a l ih => exact ih h.2

/-- The last numbers of such a list. -/
theorem suffix (h : Consecutive l last) (hs : l' <:+ l) : Consecutive l' last := by
  obtain ⟨pre, rfl⟩ := hs
  exact h.append_right

/-- No number is older than the list is long. -/
theorem le_add_of_mem (h : Consecutive l last) {a : ℕ} (ha : a ∈ l) : last + 1 ≤ a + l.length := by
  induction l with
  | nil => cases ha
  | cons b l ih =>
      have hb := h.1
      rw [List.length_cons]
      rcases List.mem_cons.mp ha with rfl | ha
      · omega
      · have := ih h.2 ha
        omega

end Consecutive

namespace Offload

variable {keep : ℕ} {targetFrames : Option UInt64} {s s' s₀ : Offload keep} {e : OffloadEv}
  {transport callback : ℕ}

/-- The last frame published. -/
def published (s : Offload keep) : ℕ := if s.ready = true then s.prod.seqno - 1 else s.prod.seqno

/-- At most one frame is stamped and not yet published. -/
theorem seqno_le_published (s : Offload keep) : s.prod.seqno ≤ s.published + 1 := by
  unfold published
  split_ifs <;> omega

/-- The oldest descriptor on its way, and those behind it. -/
theorem cons_eraseIdx_zero {ms : List DescMsg} {m : DescMsg} (hm : ms[0]? = some m) : ms = m :: ms.eraseIdx 0 := by
  cases ms with
  | nil => cases hm
  | cons x ms =>
      cases hm
      rfl

/-- **Nothing is missing**: what is kept and what is on its way are the last frames published, and lags are bounded. -/
structure Bounded (transport callback : ℕ) (s : Offload keep) : Prop where
  begun : s.ready = true → 0 < s.prod.seqno
  unkept : s.consumer = none → s.queue.1 = []
  consecutive : Consecutive ((s.queue.1 ++ s.flight).map (·.seqno)) s.published
  flight : ∀ m ∈ s.flight, s.prod.seqno ≤ m.seqno + transport
  pending : ∀ p, s.pending = some p → p.2 ≤ p.1.seqno + transport + keep + 1 ∧ s.prod.seqno ≤ p.2 + callback
  reads : ∀ r ∈ s.reads, r.2 ≤ r.1 + transport + keep + 1 + callback

namespace Bounded

/-- The oldest descriptor kept is not older than what is kept and what may be on its way. -/
theorem seqno_le_head (h : s.Bounded transport callback) {m : DescMsg} {rest : List DescMsg}
    (hqueue : s.queue.1 = m :: rest) : s.prod.seqno ≤ m.seqno + transport + keep + 1 := by
  have hlen : rest.length ≤ keep := by
    have := s.queue.2
    rw [hqueue, List.length_cons] at this
    omega
  have hcons := h.consecutive
  rw [hqueue, List.cons_append, List.map_cons] at hcons
  have hhead := hcons.1
  have hpub := s.seqno_le_published
  rw [List.length_map, List.length_append] at hhead
  cases hflight : s.flight with
  | nil =>
      rw [hflight, List.length_nil] at hhead
      have hhead : m.seqno + (rest.length + 0) = s.published := hhead
      have hgoal : s.published + 1 ≤ m.seqno + transport + keep + 1 := by omega
      exact hpub.trans hgoal
  | cons f fl =>
      -- the next one on its way
      have hnext := hcons.2
      rw [hflight, List.map_append] at hnext
      have hf := hnext.append_right.1
      have hlag : s.prod.seqno ≤ f.seqno + transport := h.flight f (by rw [hflight]; exact List.mem_cons_self)
      rw [List.length_map] at hf
      rw [hflight, List.length_cons] at hhead
      have hhead : m.seqno + (rest.length + (fl.length + 1)) = s.published := hhead
      have hf : f.seqno + fl.length = s.published := hf
      have hgoal : f.seqno + transport ≤ m.seqno + transport + keep + 1 := by omega
      exact hlag.trans hgoal

/-- **Every event within the bounds keeps them.** -/
theorem step (h : s.Bounded transport callback) (hlag : OffloadLag transport callback s e)
    (hs : s.step targetFrames e = some s') : s'.Bounded transport callback := by
  cases step_cases hs with
  | stamp view hready hview =>
      refine ⟨fun _ => Nat.succ_pos _, h.unkept, ?_, hlag.1, fun p hp => ⟨(h.pending p hp).1, hlag.2 p hp⟩, h.reads⟩
      -- the frame stamped has not been published, so the numbers published stay
      have hcons := h.consecutive
      unfold published at hcons
      rw [if_neg (by simp [hready])] at hcons
      exact hcons
  | publish now hready =>
      refine ⟨nofun, h.unkept, ?_, ?_, h.pending, h.reads⟩
      · have hcons := h.consecutive
        unfold published at hcons
        rw [if_pos hready] at hcons
        -- the descriptor published continues the numbers
        have hseqno : s.prod.seqno - 1 + 1 = s.prod.seqno := Nat.sub_add_cancel (h.begun hready)
        show Consecutive ((s.queue.1 ++ (s.flight ++ [_])).map _) s.prod.seqno
        have hnext := hcons.concat
        rw [hseqno] at hnext
        rw [← List.append_assoc, List.map_append]
        exact hnext
      · intro m hm
        rcases List.mem_append.mp hm with hm | hm
        · exact h.flight m hm
        · rw [List.mem_singleton.mp hm]
          exact Nat.le_add_right _ _
  | attach => exact ⟨h.begun, nofun, h.consecutive, h.flight, h.pending, h.reads⟩
  | arrive i m hm c hc =>
      -- descriptors arrive in the order in which they were sent
      obtain rfl : i = 0 := hlag
      obtain ⟨k, hpush⟩ := (listQueue_overflow DescMsg _).push s.queue m
      refine ⟨h.begun, ?_, h.consecutive.suffix ?_, fun x hx => h.flight x (List.mem_of_mem_eraseIdx hx), h.pending,
        h.reads⟩
      · intro hnone
        cases hnone.symm.trans hc
      -- the queue lets go of its oldest, which are the first of the numbers
      · dsimp only
        rw [hpush, List.append_assoc, List.singleton_append, ← cons_eraseIdx_zero hm]
        exact ((List.suffix_append_inj_of_length_eq rfl).mpr ⟨List.drop_suffix _ _, rfl⟩).map _
  | miss i m hm hc =>
      obtain rfl : i = 0 := hlag
      refine ⟨h.begun, h.unkept, h.consecutive.suffix ?_, fun x hx => h.flight x (List.mem_of_mem_eraseIdx hx),
        h.pending, h.reads⟩
      dsimp only
      rw [h.unkept hc, cons_eraseIdx_zero hm]
      exact (List.suffix_cons _ _).map _
  | lose i => exact hlag.elim
  | take c m q hpending hc hpop =>
      have hqueue := (listQueue_overflow DescMsg _).pop_some _ _ _ hpop
      refine ⟨h.begun, ?_, ?_, h.flight, ?_, h.reads⟩
      · intro hnone
        cases hnone.symm.trans hc
      · have hcons := h.consecutive
        -- the one taken is the oldest of the numbers
        rw [hqueue] at hcons
        exact hcons.2
      · rintro _ ⟨⟩
        exact ⟨h.seqno_le_head hqueue, Nat.le_add_right _ _⟩
  | skip now m last c hpending hc hnone =>
      exact ⟨h.begun, h.unkept, h.consecutive, h.flight, nofun, h.reads⟩
  | read now m last c word hpending hc hword =>
      refine ⟨h.begun, nofun, h.consecutive, h.flight, nofun, fun r hr => ?_⟩
      rcases List.mem_append.mp hr with hr | hr
      · exact h.reads r hr
      · rw [List.mem_singleton.mp hr]
        -- what the read finds is at most `callback` frames on from when it was taken
        obtain ⟨htaken, hread⟩ := h.pending _ hpending
        exact hread.trans (Nat.add_le_add_right htaken _)

/-- At the beginning nothing is on its way. -/
theorem of_init (hs : (offloadMachine keep targetFrames).init s) : s.Bounded transport callback := by
  obtain ⟨-, -, hready, hflight, -, hqueue, hpending, hreads⟩ := hs
  refine ⟨?_, fun _ => hqueue, ?_, ?_, ?_, ?_⟩
  · rw [hready]
    exact nofun
  · rw [hqueue, hflight]
    trivial
  · rw [hflight]
    exact nofun
  · rw [hpending]
    exact nofun
  · rw [hreads]
    exact nofun

end Bounded

end Offload

/-! ## A run that uses the bounds up -/

/-- A consumer that is given the whole pool, and maps it. -/
theorem BridgeProducer.create_whole {p : BridgeProducer} (hp : p.bundle.Carriable) : ∃ c,
    BridgeConsumer.create (p.bundle.delivered p.pool.dmaBufFds.length []) (fun _ => true) = some c ∧
      c.poolGeneration = p.poolGeneration ∧
      ∀ i < p.pool.dmaBufFds.length, ∃ view, c.views[i]? = some (some view) := by
  rcases PoolBundle.recv_delivered hp (c := .onStream (p.bundle.delivered p.pool.dmaBufFds.length []) 0) rfl with
    ⟨-, ext, client, hrecv, -⟩ | ⟨hno, -⟩
  · unfold BridgeConsumer.create
    rw [hrecv]
    refine ⟨_, rfl, rfl, fun i hi => ?_⟩
    have hlen : i < (installFds 0 (p.bundle.files.take p.pool.dmaBufFds.length)).length := by
      rw [length_installFds, List.length_take, PoolBundle.files, List.length_map]
      exact lt_min hi hi
    dsimp only [TensorSubscriber.mapFds]
    rw [List.getElem?_mapIdx]
    exact ⟨_, congrArg (Option.map _) (List.getElem?_eq_getElem hlen)⟩
  · exact absurd (Nat.zero_le _) hno

namespace Offload

variable {keep : ℕ} {targetFrames : Option UInt64} {s s₀ : Offload keep} {transport callback : ℕ}
  {c : OffloadConsumer} {last q f : ℕ} {pending : Option (DescMsg × ℕ)}

/-- Events within the bounds have led to a state between two ticks, in which the consumer has read nothing: `last`
frames have been stamped, `q` descriptors are kept and `f` are on their way. -/
structure Standing (targetFrames : Option UInt64) (transport callback : ℕ) (s₀ : Offload keep)
    (c : OffloadConsumer) (last q f : ℕ) (pending : Option (DescMsg × ℕ)) (s : Offload keep) : Prop where
  leads : (offloadMachine keep targetFrames).Leads (OffloadLag transport callback) s₀ s
  ready : s.ready = false
  seqno : s.prod.seqno = last
  queue : s.queue.1.length = q
  flight : s.flight.length = f
  pending : s.pending = pending
  consumer : s.consumer = some c
  reads : s.reads = []
  bridge : s.prod.bridge = s₀.prod.bridge

/-- Both invariants hold along such events. -/
theorem invs_of_leads (h₀ : (offloadMachine keep targetFrames).init s₀)
    (h : (offloadMachine keep targetFrames).Leads (OffloadLag transport callback) s₀ s) :
    s.Inv (s₀.prod.bridge.pool.dmaBufFds.map (·.file)) ∧ s.Bounded transport callback := by
  have hinv₀ := Inv.of_init h₀
  generalize s₀.prod.bridge.pool.dmaBufFds.map (·.file) = files at hinv₀ ⊢
  refine h.invariant (P := fun s => s.Inv files ∧ s.Bounded transport callback) ⟨hinv₀, .of_init h₀⟩ ?_
  rintro s e s' ⟨hinv, hb⟩ hlag hs
  exact ⟨hinv.step hs, hb.step hlag hs⟩

namespace Standing

/-- One tick, while fewer descriptors are on their way than frames may be stamped meanwhile. -/
theorem tick (h₀ : (offloadMachine keep targetFrames).init s₀)
    (h : Standing targetFrames transport callback s₀ c last q f pending s) (hf : f ≤ transport)
    (hp : ∀ p, pending = some p → last + 1 ≤ p.2 + callback) :
    ∃ s', Standing targetFrames transport callback s₀ c (last + 1) q (f + 1) pending s' := by
  obtain ⟨hinv, hb⟩ := invs_of_leads h₀ h.leads
  -- the next buffer
  have hidx : s.prod.idx (s.prod.seqno + 1) < s.prod.bridge.views.length := Nat.mod_lt _ (by
    have hpos := hinv.pos
    rw [← hinv.nBuffers] at hpos
    exact hpos)
  have hstamp : s.step targetFrames .stamp = some { s with
      prod := { s.prod with seqno := s.prod.seqno + 1 }
      mem := Function.update s.mem s.prod.bridge.views[s.prod.idx (s.prod.seqno + 1)].file
        (Function.update (s.mem s.prod.bridge.views[s.prod.idx (s.prod.seqno + 1)].file) 0 (s.prod.seqno + 1))
      ready := true } := by
    dsimp only [step]
    rw [if_neg (by simp [h.ready]), OffloadProducer.stamp, BridgeProducer.buffer,
      List.getElem?_eq_getElem hidx]
    rfl
  have hlag : OffloadLag transport callback s .stamp := by
    refine ⟨fun m hm => ?_, fun p hp' => ?_⟩
    · have hcons := hb.consecutive
      rw [List.map_append] at hcons
      have hold := hcons.append_right.le_add_of_mem (List.mem_map_of_mem hm)
      unfold published at hold
      rw [if_neg (by simp [h.ready]), List.length_map, h.flight] at hold
      omega
    · rw [h.seqno]
      exact hp p (h.pending.symm.trans hp')
  refine ⟨_, (h.leads.snoc hlag hstamp).snoc (a := .publish 0) trivial rfl, rfl, ?_, h.queue, ?_, h.pending,
    h.consumer, h.reads, h.bridge⟩
  · exact congrArg (· + 1) h.seqno
  · show (s.flight ++ [_]).length = f + 1
    rw [List.length_append, h.flight]
    rfl

/-- The oldest descriptor on its way arrives. -/
theorem arrive (h : Standing targetFrames transport callback s₀ c last q (f + 1) pending s) :
    ∃ q' s', (q ≤ keep → q' = q + 1) ∧ Standing targetFrames transport callback s₀ c last q' f pending s' := by
  -- the oldest descriptor in flight arrives, and is put into the queue
  have hlt : 0 < s.flight.length := by
    rw [h.flight]
    exact Nat.succ_pos _
  have hs : s.step targetFrames (.arrive 0) = some { s with
      flight := s.flight.eraseIdx 0
      queue := (listQueue DescMsg keep).push s.queue s.flight[0] } := by
    dsimp only [step]
    rw [List.getElem?_eq_getElem hlt, h.consumer]
    rfl
  refine ⟨_, _, ?_, h.leads.snoc (a := .arrive 0) rfl hs, h.ready, h.seqno, rfl, ?_, h.pending, h.consumer, h.reads,
    h.bridge⟩
  -- a queue with room keeps all it has
  · intro hq
    show (s.queue.1.drop (s.queue.1.length - keep) ++ [_]).length = q + 1
    rw [List.length_append, List.length_drop, h.queue, Nat.sub_eq_zero_of_le hq]
    rfl
  · show (s.flight.eraseIdx 0).length = f
    rw [List.length_eraseIdx_of_lt hlt, h.flight]
    rfl

/-- The oldest descriptor kept is handed to the callback. -/
theorem take (h₀ : (offloadMachine keep targetFrames).init s₀)
    (h : Standing targetFrames transport callback s₀ c last (q + 1) f none s) (hrunning : c.running = true) :
    ∃ m s', m.seqno + (q + f) = last ∧
      Standing targetFrames transport callback s₀ c last q f (some (m, last)) s' := by
  have hcons := (invs_of_leads h₀ h.leads).2.consecutive
  cases hpop : (listQueue DescMsg keep).pop s.queue with
  | none =>
      have hnil := (listQueue_overflow DescMsg keep).pop_none _ hpop
      have := h.queue
      rw [hnil] at this
      cases this
  -- the descriptor taken is the oldest of consecutive numbers, so its number can be counted back
  | some r =>
      have hqueue := (listQueue_overflow DescMsg keep).pop_some _ r.1 r.2 hpop
      have hlen := h.queue
      rw [hqueue, List.length_cons] at hlen
      have hs : s.step targetFrames .take = some { s with queue := r.2, pending := some (r.1, s.prod.seqno) } := by
        dsimp only [step]
        rw [h.pending, h.consumer]
        dsimp only
        rw [if_pos hrunning, hpop]
        rfl
      refine ⟨r.1, _, ?_, h.leads.snoc (a := .take) trivial hs, h.ready, h.seqno, Nat.succ.inj hlen, h.flight, ?_,
        h.consumer, h.reads, h.bridge⟩
      · rw [hqueue, List.cons_append, List.map_cons] at hcons
        have hhead := hcons.1
        unfold published at hhead
        rw [if_neg (by simp [h.ready]), List.length_map, List.length_append, h.flight, h.seqno] at hhead
        rw [← Nat.succ.inj hlen]
        exact hhead
      · show some (r.1, s.prod.seqno) = _
        rw [h.seqno]

/-- As many frames have arrived as the subscription keeps. -/
theorem fill (h₀ : (offloadMachine keep targetFrames).init s₀)
    (h : Standing targetFrames transport callback s₀ c 0 0 0 none s) {j : ℕ} (hj : j ≤ keep + 1) :
    ∃ s', Standing targetFrames transport callback s₀ c j j 0 none s' := by
  induction j with
  | zero => exact ⟨s, h⟩
  | succ j ih =>
      obtain ⟨s₁, h₁⟩ := ih (Nat.le_of_succ_le hj)
      obtain ⟨s₂, h₂⟩ := h₁.tick h₀ (Nat.zero_le _) nofun
      obtain ⟨q, s₃, hq, h₃⟩ := h₂.arrive
      obtain rfl := hq (Nat.le_of_succ_le_succ hj)
      exact ⟨s₃, h₃⟩

/-- As many frames are on their way as may be, and one more. -/
theorem fly (h₀ : (offloadMachine keep targetFrames).init s₀)
    (h : Standing targetFrames transport callback s₀ c last q 0 none s) {j : ℕ} (hj : j ≤ transport + 1) :
    ∃ s', Standing targetFrames transport callback s₀ c (last + j) q j none s' := by
  induction j with
  | zero => exact ⟨s, h⟩
  | succ j ih =>
      obtain ⟨s₁, h₁⟩ := ih (Nat.le_of_succ_le hj)
      exact h₁.tick h₀ (Nat.le_of_succ_le_succ hj) nofun

/-- Frames are stamped while the callback runs. -/
theorem late (h₀ : (offloadMachine keep targetFrames).init s₀) {m : DescMsg}
    (h : Standing targetFrames transport callback s₀ c last q (transport + 1) (some (m, last)) s) {j : ℕ}
    (hj : j ≤ callback) : ∃ q' s',
      Standing targetFrames transport callback s₀ c (last + j) q' (transport + 1) (some (m, last)) s' := by
  induction j with
  | zero => exact ⟨q, s, h⟩
  | succ j ih =>
      obtain ⟨q₁, s₁, h₁⟩ := ih (Nat.le_of_succ_le hj)
      obtain ⟨q₂, s₂, -, h₂⟩ := h₁.arrive
      obtain ⟨s₃, h₃⟩ := h₂.tick h₀ le_rfl (by
        rintro p ⟨⟩
        show last + j + 1 ≤ last + callback
        omega)
      exact ⟨q₂, s₃, h₃⟩

/-- The callback reads the frame it was called with. -/
theorem read (h₀ : (offloadMachine keep targetFrames).init s₀) {m : DescMsg} {taken : ℕ}
    (h : Standing targetFrames transport callback s₀ c last q f (some (m, taken)) s)
    (hgen : c.bridge.poolGeneration = s₀.prod.bridge.poolGeneration)
    (hviews : ∀ i < s₀.nBuffers, ∃ view, c.bridge.views[i]? = some (some view)) :
    ∃ s' c', (offloadMachine keep targetFrames).Leads (OffloadLag transport callback) s₀ s' ∧
      s'.consumer = some c' ∧ s'.reads = [(m.seqno, last)] := by
  obtain ⟨hinv, -⟩ := invs_of_leads h₀ h.leads
  have hm := hinv.genuine m (by
    unfold messages
    rw [h.pending]
    exact List.mem_append_right _ (List.mem_singleton.mpr rfl))
  -- its buffer is mapped
  have hn : s₀.nBuffers = (s₀.prod.bridge.pool.dmaBufFds.map (·.file)).length := (Inv.of_init h₀).nBuffers
  obtain ⟨view, hview⟩ := hviews m.boHandle (by
    rw [hm.boHandle, hn]
    exact Nat.mod_lt _ hinv.pos)
  have hword : c.stamped m s.mem = some (s.mem view.file m.offset) := by
    unfold OffloadConsumer.stamped
    rw [if_neg (not_not.mpr (by rw [hm.poolGeneration, hgen, h.bridge])), BridgeConsumer.payload, hview]
    rfl
  have hs : s.step targetFrames (.read 0) = some { s with
      consumer := some (c.onDesc m s.mem 0)
      pending := none
      reads := s.reads ++ [(m.seqno, s.prod.seqno)] } := by
    dsimp only [step]
    rw [h.pending, h.consumer]
    dsimp only
    rw [hword]
    rfl
  refine ⟨_, _, h.leads.snoc (a := .read 0) trivial hs, rfl, ?_⟩
  show s.reads ++ [(m.seqno, s.prod.seqno)] = _
  rw [h.reads, h.seqno]
  rfl

end Standing

/-- **The bounds can be used up**: a run within them reads the first frame when as many have been stamped after it
as the bounds allow. -/
theorem exists_late_read (h₀ : (offloadMachine keep targetFrames).init s₀)
    (hcarry : s₀.prod.bridge.bundle.Carriable) (transport callback : ℕ) : ∃ s c,
    (offloadMachine keep targetFrames).Leads (OffloadLag transport callback) s₀ s ∧ s.consumer = some c ∧
      s.reads = [(1, 1 + (transport + keep + 1 + callback))] := by
  obtain ⟨b, hb, hgen, hviews⟩ := BridgeProducer.create_whole hcarry
  have hn : s₀.nBuffers = s₀.prod.bridge.pool.dmaBufFds.length := by
    rw [(Inv.of_init h₀).nBuffers, List.length_map]
  rw [← hn] at hviews
  obtain ⟨-, hseqno, hready, hflight, hconsumer, hqueue, hpending, hreads⟩ := id h₀
  -- the consumer attaches before anything is stamped
  have hattach : s₀.step targetFrames (.attach s₀.prod.bridge.pool.dmaBufFds.length fun _ => true) =
      some { s₀ with consumer := some (.start b targetFrames) } := by
    dsimp only [step]
    rw [hconsumer]
    dsimp only
    rw [if_pos hcarry, hb]
    rfl
  have hstart : Standing targetFrames transport callback s₀ (.start b targetFrames) 0 0 0 none
      { s₀ with consumer := some (.start b targetFrames) } :=
    ⟨(Machine.Leads.refl s₀).snoc (a := .attach _ fun _ => true) trivial hattach, hready, hseqno, congrArg List.length hqueue,
      congrArg List.length hflight, hpending, rfl, hreads, rfl⟩
  -- the queue fills, then descriptors stay in flight, one is taken, frames pass, and it is read
  obtain ⟨s₁, h₁⟩ := hstart.fill h₀ (le_refl (keep + 1))
  obtain ⟨s₂, h₂⟩ := h₁.fly h₀ (le_refl (transport + 1))
  obtain ⟨m, s₃, hm, h₃⟩ := h₂.take h₀ rfl
  obtain ⟨q, s₄, h₄⟩ := h₃.late h₀ (le_refl callback)
  obtain ⟨s, c, hleads, hc, hread⟩ := h₄.read h₀ hgen hviews
  refine ⟨s, c, hleads, hc, ?_⟩
  have hfirst : m.seqno = 1 := by omega
  have hlast : keep + 1 + (transport + 1) + callback = 1 + (transport + keep + 1 + callback) := by omega
  rw [hread, hfirst, hlast]

end Offload

/-- **How deep the ring has to be.** The descriptors reach the subscription in order and without loss, at most
`transport` frames are stamped while one is on its way and at most `callback` while one is handled, and the subscription
keeps `keep + 1`. Then no run has a payload error exactly when the pool has more buffers than these together. -/
theorem offload_sizing {keep : ℕ} {targetFrames : Option UInt64} {s₀ : Offload keep}
    (h₀ : (offloadMachine keep targetFrames).init s₀) (hcarry : s₀.prod.bridge.bundle.Carriable)
    (transport callback : ℕ) :
    (∀ s c, (offloadMachine keep targetFrames).Leads (OffloadLag transport callback) s₀ s → s.consumer = some c →
      c.payloadErrors = 0) ↔ transport + (keep + 1) + callback < s₀.nBuffers := by
  have hn := (Offload.Inv.of_init h₀).nBuffers
  constructor
  -- a pool that is too small has a run that reads the first frame too late
  · intro hall
    by_contra hfew
    obtain ⟨s, c, hleads, hc, hreads⟩ := Offload.exists_late_read h₀ hcarry transport callback
    have hcounts := ((Offload.invs_of_leads h₀ hleads).1.counts c hc).payloadErrors
    rw [hall s c hleads hc, hreads, List.countP_singleton, ← hn, if_pos] at hcounts
    · cases hcounts
    · refine decide_eq_true ?_
      show 1 + s₀.nBuffers ≤ 1 + (transport + keep + 1 + callback)
      omega
  -- in a deep enough pool no frame that is read has been overtaken
  · intro hdeep s c hleads hc
    obtain ⟨hinv, hb⟩ := Offload.invs_of_leads h₀ hleads
    rw [(hinv.counts c hc).payloadErrors, List.countP_eq_zero, ← hn]
    intro r hr hover
    have hover : r.1 + s₀.nBuffers ≤ r.2 := of_decide_eq_true hover
    have := hb.reads r hr
    omega

/-- The two nodes before anything has happened. -/
def Offload.start (keep : ℕ) (p : BridgeProducer) : Offload keep :=
  ⟨⟨p, 0⟩, fun _ _ => 0, false, [], none, (listQueue DescMsg keep).empty, none, []⟩

/-- **The defaults**: the ROS2 nodes, with 32 buffers and one descriptor kept, have no payload errors while lags stay
below 31 frames; the ROS1 nodes, with 8 buffers and 50 descriptors kept, may have some without any lag. -/
theorem offload_sizing_defaults : ∃ p q : BridgeProducer,
    (∀ s c, (offloadMachine 0 none).Leads (OffloadLag 15 15) (.start 0 p) s → s.consumer = some c →
      c.payloadErrors = 0) ∧
    ¬ ∀ s c, (offloadMachine 49 none).Leads (OffloadLag 0 0) (.start 49 q) s → s.consumer = some c →
      c.payloadErrors = 0 := by
  obtain ⟨p, sys, hp⟩ : ∃ p sys, BridgeProducer.create ⟨false, false⟩ 32 4096 .Custom .obliging = (some p, sys) :=
    ⟨_, _, rfl⟩
  obtain ⟨q, sys', hq⟩ : ∃ q sys, BridgeProducer.create ⟨false, false⟩ 8 4096 .Custom .obliging = (some q, sys) :=
    ⟨_, _, rfl⟩
  have hp₀ : (offloadMachine 0 none).init (.start 0 p) :=
    ⟨⟨_, _, _, _, _, Sys.sound_obliging, hp⟩, rfl, rfl, rfl, rfl, rfl, rfl, rfl⟩
  have hq₀ : (offloadMachine 49 none).init (.start 49 q) :=
    ⟨⟨_, _, _, _, _, Sys.sound_obliging, hq⟩, rfl, rfl, rfl, rfl, rfl, rfl, rfl⟩
  have hpn : (Offload.start 0 p).nBuffers = 32 := (BridgeProducer.files_of_create Sys.sound_obliging hp).2.2.2
  have hqn : (Offload.start 49 q).nBuffers = 8 := (BridgeProducer.files_of_create Sys.sound_obliging hq).2.2.2
  have hpcarry : p.bundle.Carriable := by
    cases hp
    exact ⟨by decide, by decide⟩
  have hqcarry : q.bundle.Carriable := by
    cases hq
    exact ⟨by decide, by decide⟩
  -- the first pool is deep enough for 30 frames of lag, the second not even without lag
  refine ⟨p, q, (offload_sizing hp₀ hpcarry 15 15).mpr (by rw [hpn]; decide), fun hall => ?_⟩
  have hfew := (offload_sizing hq₀ hqcarry 0 0).mp hall
  rw [hqn] at hfew
  exact absurd hfew (by decide)

end Axon
