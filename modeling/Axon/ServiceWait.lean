import Axon.ServiceAttachment

/-! # The first wait after a handshake

What a subscriber remembers of the notify word and of the last frame outlives the slot it was taken from,
and the counters of a new publisher start from zero. `first_wait_iff` says when the first wait on a new
publisher is right all the same; `stale_watermark` shows it asleep with a frame unread, and awake without
one. -/

namespace Axon

open Foundation

namespace Service

variable {v v' : Service}

/-- Publishers go on with what they have published. -/
theorem Grows.published (h : v.Grows v') (p : Option ℕ) : v.published p <+: v'.published p := by
  unfold Service.published
  cases hp : p.bind v.pubs with
  | none => exact List.nil_prefix
  | some prod =>
      obtain ⟨q, rfl, hq⟩ := Option.bind_eq_some_iff.mp hp
      obtain ⟨prod', hprod', hgrows⟩ := h q prod hq
      rw [Option.bind_some, hprod']
      exact hgrows.published

end Service

namespace TensorSubscriber

/-- Two subscribers that remember the same of the last frame. -/
structure SameWatermark (s s' : TensorSubscriber) : Prop where
  seenNotify : s'.seenNotify = s.seenNotify
  seenSeqno : s'.seenSeqno = s.seenSeqno

/-- **A handshake keeps what is remembered**, in each of its parts. -/
theorem receive_sameWatermark (s : TensorSubscriber) (stream : List Segment) :
    s.SameWatermark (s.receive stream).2 := by
  unfold receive
  dsimp only
  split
  · exact ⟨rfl, rfl⟩
  · split_ifs <;> exact ⟨rfl, rfl⟩

/-- Mapping buffers leaves the watermark. -/
theorem mapBuffers_sameWatermark (s : TensorSubscriber) (build : BuildConfig) (hdr : PoolHandshakeHeader)
    (fds : List Fd) (ext : List UInt8) (ans : HandshakeAnswers) :
    s.SameWatermark (s.mapBuffers build hdr fds ext ans).2 := by
  unfold mapBuffers attach
  dsimp only
  split_ifs
  · exact ⟨rfl, rfl⟩
  · exact ⟨rfl, rfl⟩
  · unfold importSurfaces
    dsimp only
    split_ifs <;> exact ⟨rfl, rfl⟩
  · exact ⟨rfl, rfl⟩

/-- Opening a slot leaves the watermark. -/
theorem opened_sameWatermark (s : TensorSubscriber) (ch : Option MetadataChannel) :
    s.SameWatermark (s.opened ch) := by
  unfold opened
  split <;> exact ⟨rfl, rfl⟩

end TensorSubscriber

/-- The streams that a thread waits on over their notify words. -/
def WaiterPhase.futexStreams {ι : Type} : WaiterPhase ι → List ι
  | .raising ws _ => ws
  | .checking true ws _ => ws
  | .checked true ws => ws
  | .asleep ws => ws
  | _ => []

section Futex

variable {ι : Type} [DecidableEq ι] {notify : ι → UInt32} {w w' : Waiter ι} {e : WaitEv ι}

omit [DecidableEq ι] in
/-- Behind the raising of a flag, the wait is for the same streams. -/
theorem Waiter.futexStreams_afterRaise (ws todo : List ι) : (Waiter.afterRaise ws todo).futexStreams = ws := by
  cases todo <;> rfl

omit [DecidableEq ι] in
/-- Behind the check, the wait sleeps on them if they all have a futex. -/
theorem Waiter.futexStreams_afterCheck (futexes : Bool) (ws todo : List ι) :
    (Waiter.afterCheck futexes ws todo).futexStreams = if futexes = true then ws else [] := by
  cases futexes <;> cases todo <;> rfl

/-- A thread waits over notify words only on streams that have one. -/
theorem Waiter.StepCase.futexes (h : w.StepCase notify e w')
    (hw : ∀ i ∈ w.phase.futexStreams, (w.subs i).hasNotifyWord = true) :
    ∀ i ∈ w'.phase.futexStreams, (w'.subs i).hasNotifyWord = true := by
  -- a step of the waiter opens no slot
  have hword : ∀ i, (w'.subs i).hasNotifyWord = (w.subs i).hasNotifyWord := by
    intro i
    rw [TensorSubscriber.hasNotifyWord, (h.sameAttachment i).2, TensorSubscriber.hasNotifyWord]
  intro i hi
  rw [hword]
  -- the list is handed on, or left alone, from one phase to the next
  cases h with
  | waitCall ws hphase hlen hall => exact hall i hi
  | raise j ws todo hphase =>
      rw [hphase] at hw
      exact hw i ((Waiter.futexStreams_afterRaise ws todo) ▸ hi)
  | check j read futexes ws todo ch hphase hch hup =>
      have hi : i ∈ (Waiter.afterCheck futexes ws todo).futexStreams := hi
      rw [Waiter.futexStreams_afterCheck] at hi
      rw [hphase] at hw
      cases futexes with
      | true => exact hw i hi
      | false => cases hi
  | sleep ws hphase hsame =>
      rw [hphase] at hw
      exact hw i hi
  | again ws hphase =>
      rw [hphase] at hw
      exact hw i hi
  | interrupt ws hphase =>
      rw [hphase] at hw
      exact hw i hi
  | drainFences j segs ready hphase =>
      have hi : i ∈ w.phase.futexStreams := hi
      exact hw i hi
  | setFallbackPolicy j p hphase =>
      have hi : i ∈ w.phase.futexStreams := hi
      exact hw i hi
  | read j e notify_now hphase hcall hret => exact hw i hi
  -- in these phases there is no list
  | viewCall | viewRet | waitCallPolling | report | noWaitv | nap | giveUp | ret => cases hi

end Futex

namespace Services

variable {ι : Type} [DecidableEq ι] {build : BuildConfig} {s s' : Services ι}

/-- What the subscriber of stream `i` remembers, it remembers of publisher `q`: the number of one of its
frames, and how many frames its notify word counted, or zero. -/
def MarkedBy (s : Services ι) (i : ι) (q : ℕ) : Prop :=
  (∃ d ∈ (s.services i).published (some q), (s.waiter.subs i).seenSeqno = d.seqno) ∧
    ∃ k ≤ ((s.services i).published (some q)).length, (s.waiter.subs i).seenNotify = .ofNat k

/-- **Where the watermark stems from**: nothing is remembered, or a publisher that has been read from. -/
def Marked (s : Services ι) (i : ι) : Prop :=
  ((s.waiter.subs i).seenNotify = 0 ∧ (s.waiter.subs i).seenSeqno = 0) ∨
    ∃ q ∈ (s.origin i).readFrom, s.MarkedBy i q

/-- **What holds of a waiting thread**: the words it waits on are those its streams have shown. -/
structure WaitInv (s : Services ι) : Prop where
  fresh : ∀ i, (s.services i).Fresh
  busy : s.waiter.phase ≠ .idle → s.handshake = .idle
  viewing : ∀ i n, s.waiter.phase = .viewing i n → ∃ k ≤ (s.frames i).length, n = .ofNat k
  marked : ∀ i, s.Marked i
  futexes : ∀ i ∈ s.waiter.phase.futexStreams, (s.waiter.subs i).hasNotifyWord = true

namespace WaitInv

/-- At the beginning no thread waits. -/
theorem of_init (h : (servicesMachine ι build).init s) : s.WaitInv := by
  obtain ⟨hservices, hsubs, hphase, hhandshake, horigin⟩ := h
  refine ⟨fun i p _ => ?_, fun _ => hhandshake, fun i n hn => ?_, fun i => .inl ?_, fun i hi => ?_⟩
  · rw [(hservices i).2]
  · cases hphase.symm.trans hn
  · rw [hsubs i]
    exact ⟨rfl, rfl⟩
  · rw [hphase] at hi
    cases hi

/-- Something happens to the service of stream `i`. -/
theorem service (h : s.WaitInv) {i : ι} {e : ServiceEv} {v : Service} (hs : (s.services i).step e = some v) :
    WaitInv { s with services := Function.update s.services i v } := by
  have hall := grows_update h.fresh hs
  refine ⟨fun j => (hall j).2, h.busy, fun j n hn => ?_, fun j => ?_, h.futexes⟩
  · obtain ⟨k, hk, hn⟩ := h.viewing j n hn
    exact ⟨k, hk.trans ((hall j).1.published _).length_le, hn⟩
  · refine (h.marked j).imp_right ?_
    rintro ⟨q, hq, ⟨d, hd, hseqno⟩, k, hk, hnotify⟩
    have hprefix := (hall j).1.published (some q)
    exact ⟨q, hq, ⟨d, hprefix.subset hd, hseqno⟩, k, hk.trans hprefix.length_le, hnotify⟩

/-- The consumer goes on with a handshake of stream `i`. -/
theorem setHandshake (h : s.WaitInv) {i : ι} {sub : TensorSubscriber} {phase : HandshakePhase ι}
    {origin : Origin} (hbusy : s.waiter.phase = .idle) (hsame : (s.waiter.subs i).SameWatermark sub)
    (hread : origin.readFrom = (s.origin i).readFrom) : WaitInv (s.setHandshake i sub phase origin) := by
  have hidle : (s.setHandshake i sub phase origin).waiter.phase = .idle := hbusy
  refine ⟨h.fresh, fun hne => absurd hidle hne, fun j n hn => ?_, fun j => ?_, fun j hj => ?_⟩
  · cases hidle.symm.trans hn
  -- the subscriber that shakes hands, or another
  · by_cases hj : j = i
    · subst hj
      have hmarked := h.marked j
      unfold Marked MarkedBy at hmarked ⊢
      have hsub : (s.setHandshake j sub phase origin).waiter.subs j = sub := Waiter.setSub_subs_self _ _ _
      have horigin : (s.setHandshake j sub phase origin).origin j = origin := by
        show Function.update s.origin j origin j = origin
        rw [Function.update_self]
      -- its watermark and its past are what they were
      rw [hsub, horigin, hread, hsame.seenNotify, hsame.seenSeqno]
      exact hmarked
    · have hmarked := h.marked j
      unfold Marked MarkedBy at hmarked ⊢
      have hsub : (s.setHandshake i sub phase origin).waiter.subs j = s.waiter.subs j :=
        Waiter.setSub_subs_of_ne _ hj _
      have horigin : (s.setHandshake i sub phase origin).origin j = s.origin j :=
        Function.update_of_ne hj _ _
      rw [hsub, horigin]
      exact hmarked
  · rw [hidle] at hj
    cases hj

omit [DecidableEq ι] in
/-- Nothing else goes on in a handshake. -/
theorem idle_of_handshake (h : s.WaitInv) (hne : s.handshake ≠ .idle) : s.waiter.phase = .idle := by
  by_contra hphase
  exact hne (h.busy hphase)

/-- A frame handed out adds its publisher to those read from, and takes none away. -/
theorem readAfter_spec (s : Services ι) (e : WaitEv ι) (i : ι) :
    (s.readAfter e i).slotOf = (s.origin i).slotOf ∧
    (∀ q ∈ (s.origin i).readFrom, q ∈ (s.readAfter e i).readFrom) ∧
    (∀ d retries now w, e = .viewRet i (some d) retries now → (s.waiter.subs i).metadata ≠ none →
      (s.waiter.subs i).Accepts d → (s.origin i).slotOf = some w → w ∈ (s.readAfter e i).readFrom) := by
  unfold readAfter
  split
  · rename_i j d retries now
    split_ifs with hfresh
    · by_cases hj : i = j
      · -- the owner of the open slot is added
        subst hj
        rw [Function.update_self]
        refine ⟨rfl, fun q hq => List.mem_append_left _ hq, fun _ _ _ w _ _ _ hw => ?_⟩
        rw [hw]
        exact List.mem_append_right _ (List.mem_singleton.mpr rfl)
      · rw [Function.update_of_ne hj]
        refine ⟨rfl, fun q hq => hq, ?_⟩
        rintro d' retries' now' w ⟨⟩
        exact absurd rfl hj
    · refine ⟨rfl, fun q hq => hq, ?_⟩
      rintro d' retries' now' w ⟨⟩ hmeta hacc
      exact absurd ⟨hmeta, hacc⟩ hfresh
  · rename_i hother
    refine ⟨rfl, fun q hq => hq, ?_⟩
    rintro d retries now w rfl
    exact absurd rfl (hother i d retries now)

/-- A step of the thread between its handshakes. -/
theorem wait (h : s.WaitInv) {e : WaitEv ι} {w : Waiter ι} (hidle : s.handshake = .idle)
    (hreads : s.ReadsSlot e) (hw : s.waiter.StepCase s.notify e w) :
    WaitInv { s with waiter := w, origin := s.readAfter e } := by
  refine ⟨h.fresh, fun _ => hidle, fun i n hn => ?_, fun i => ?_, hw.futexes h.futexes⟩
  · obtain ⟨hslot, -, -⟩ := readAfter_spec s e i
    show ∃ k ≤ ((s.services i).published (s.readAfter e i).slotOf).length, n = .ofNat k
    rw [hslot]
    obtain ⟨m, -, rfl⟩ | ⟨hphase, -⟩ := hw.viewing hn
    · exact ⟨_, le_rfl, rfl⟩
    · exact h.viewing i n hphase
  · obtain ⟨hslot, hkept, hadded⟩ := readAfter_spec s e i
    obtain hsame | ⟨ch, d, retries, now, notify_now, hch, rfl, hphase, hacc, -, hnotify, hseqno⟩ :=
      hw.watermark i
    · have hmarked := h.marked i
      unfold Marked MarkedBy at hmarked ⊢
      dsimp only
      rw [hsame.seenNotify, hsame.seenSeqno]
      exact hmarked.imp_right fun ⟨q, hq, hq'⟩ => ⟨q, hkept q hq, hq'⟩
    · have hd : d ∈ s.frames i := hreads
      obtain ⟨k, hk, rfl⟩ := h.viewing i notify_now hphase
      unfold frames at hd hk
      -- a frame read is one of the slot that is open
      cases hw' : (s.origin i).slotOf with
      | none =>
          rw [hw'] at hd
          cases hd
      | some q =>
          rw [hw'] at hd hk
          have hmeta : (s.waiter.subs i).metadata ≠ none := by
            rw [hch]
            exact nofun
          refine .inr ⟨q, hadded d retries now q rfl hmeta hacc hw', ⟨d, hd, hseqno⟩, ?_⟩
          -- without a notify word `latest_view` stores zero
          by_cases hword : ch.hasNotify = true
          · rw [if_pos hword] at hnotify
            exact ⟨k, hk, hnotify⟩
          · rw [if_neg hword] at hnotify
            exact ⟨0, Nat.zero_le _, hnotify⟩

/-- **A step keeps the invariant.** -/
theorem step (h : s.WaitInv) {e : ServicesEv ι} (hs : s.step build e = some s') : s'.WaitInv := by
  cases step_cases hs with
  | service i e v hv => exact h.service hv
  | connect i conn capacity p v hwaiter hidle hp hv =>
      -- no step of the handshake touches the watermark
      have hinv := h.service hv
      exact ⟨hinv.fresh, fun hne => absurd hwaiter hne, hinv.viewing, hinv.marked, hinv.futexes⟩
  | receiveFails pieces arrived i p conn e sub hphase hrecv =>
      have hsame := (s.waiter.subs i).receive_sameWatermark ((s.services i).arrived p conn pieces arrived)
      rw [hrecv] at hsame
      exact h.setHandshake (h.idle_of_handshake fun hq => nomatch hphase.symm.trans hq) hsame rfl
  | receive pieces arrived i p conn hdr fds ext sub hphase hrecv =>
      have hsame := (s.waiter.subs i).receive_sameWatermark ((s.services i).arrived p conn pieces arrived)
      rw [hrecv] at hsame
      exact h.setHandshake (h.idle_of_handshake fun hq => nomatch hphase.symm.trans hq) hsame rfl
  | mapFails ans i p hdr fds ext e sub hphase hmap =>
      have hsame := (s.waiter.subs i).mapBuffers_sameWatermark build hdr fds ext ans
      rw [hmap] at hsame
      exact h.setHandshake (h.idle_of_handshake fun hq => nomatch hphase.symm.trans hq) hsame rfl
  | map ans i p hdr fds ext sub hphase hmap =>
      have hsame := (s.waiter.subs i).mapBuffers_sameWatermark build hdr fds ext ans
      rw [hmap] at hsame
      exact h.setHandshake (h.idle_of_handshake fun hq => nomatch hphase.symm.trans hq) hsame rfl
  | openSlot ch i p q hphase hq =>
      exact h.setHandshake (h.idle_of_handshake fun hq => nomatch hphase.symm.trans hq)
        (TensorSubscriber.opened_sameWatermark _ _) rfl
  | openTimeout i p hphase hnone =>
      exact h.setHandshake (h.idle_of_handshake fun hq => nomatch hphase.symm.trans hq)
        (TensorSubscriber.opened_sameWatermark _ _) rfl
  | wait e w hidle hreads hw => exact h.wait hidle hreads hw

/-- **In every run** it holds. -/
theorem of_run {tr : List (ServicesEv ι)} (h : (servicesMachine ι build).Run tr s) : s.WaitInv :=
  h.invariant (P := fun _ s => s.WaitInv) (fun _ h => of_init h) fun _ _ _ _ _ h hs => h.step hs

end WaitInv

/-! ## The first wait -/

/-- **The watermark fits the new slot**: over the notify word, it is zero as long as the slot has no frame,
and not the word's value once it has one; without such a word, it is not the number of the last frame. -/
def Rearmed (s : Services ι) (i : ι) (ch : MetadataChannel) : Prop :=
  if ch.hasNotify = true then
    (s.frames i = [] ∧ (s.waiter.subs i).seenNotify = 0) ∨
      (s.frames i ≠ [] ∧ s.notify i ≠ (s.waiter.subs i).seenNotify)
  else ∀ d, (s.frames i).getLast? = some d → d.seqno ≠ (s.waiter.subs i).seenSeqno

omit [DecidableEq ι] in
/-- Without a frame, the word is zero. -/
theorem notify_eq_zero {i : ι} (h : s.frames i = []) : s.notify i = 0 := by
  rw [notify, h]
  rfl

omit [DecidableEq ι] in
/-- `has_update` of a slot none of whose frames has been read is right exactly when the watermark fits. -/
theorem hasUpdate_iff_rearmed (s : Services ι) (i : ι) (ch : MetadataChannel) :
    ((hasUpdate ch (s.notify i) (s.frames i).getLast? (s.waiter.subs i).seenNotify
      (s.waiter.subs i).seenSeqno = true ↔ s.frames i ≠ []) ↔ s.Rearmed i ch) := by
  unfold hasUpdate Rearmed
  by_cases hword : ch.hasNotify = true
  · rw [if_pos hword, if_pos hword, decide_eq_true_iff]
    -- over the notify word
    by_cases hframes : s.frames i = []
    · simp only [hframes, notify_eq_zero hframes, ne_eq, not_true_eq_false, iff_false, not_not, true_and,
        false_and, or_false]
      exact eq_comm
    · simp only [hframes, ne_eq, not_false_eq_true, iff_true, false_and, true_and, false_or]
  · rw [if_neg hword, if_neg hword]
    -- over the last frame of the slot
    rcases List.eq_nil_or_concat (s.frames i) with hnil | ⟨ds, d, hframes⟩
    · simp [hnil]
    · simp [hframes]

end Services

/-- **When the first wait on a new publisher is right.** In every run, for a subscriber that has the slot of
publisher `w` open and has not been handed any of its frames: what it remembers is nothing or stems from
another publisher, and a check of `wait_any` finds an update exactly if the slot holds a frame, if and only
if the watermark fits; where it goes to sleep, the slot holds no frame if and only if the watermark fits. -/
theorem first_wait_iff {ι : Type} [DecidableEq ι] {build : BuildConfig} {tr : List (ServicesEv ι)}
    {s : Services ι} (hrun : (servicesMachine ι build).Run tr s) {i : ι} {w : ℕ} {ch : MetadataChannel}
    (hslot : (s.origin i).slotOf = some w) (hnew : w ∉ (s.origin i).readFrom)
    (hch : (s.waiter.subs i).metadata = some ch) :
    (((s.waiter.subs i).seenNotify = 0 ∧ (s.waiter.subs i).seenSeqno = 0) ∨ ∃ q, q ≠ w ∧ s.MarkedBy i q) ∧
    s.frames i = (s.services i).published (some w) ∧
    (∀ read s', s.step build (.wait (.check i read)) = some s' →
      ((s'.waiter.phase = .reported i ↔ s.frames i ≠ []) ↔ s.Rearmed i ch)) ∧
    (∀ s' ws, s.step build (.wait .sleep) = some s' → s'.waiter.phase = .asleep ws → i ∈ ws →
      (s.frames i = [] ↔ s.Rearmed i ch)) := by
  have hinv := Services.WaitInv.of_run hrun
  refine ⟨(hinv.marked i).imp_right ?_, ?_, fun read s' hs => ?_, fun s' ws hs hasleep hi => ?_⟩
  · rintro ⟨q, hq, hmarked⟩
    refine ⟨q, ?_, hmarked⟩
    -- the new publisher has not been read from
    rintro rfl
    exact hnew hq
  · rw [Services.frames, hslot]
  · rw [← s.hasUpdate_iff_rearmed i ch]
    cases Services.step_cases hs with
    | wait _ w' hidle hreads hw =>
        obtain rfl : read = (s.frames i).getLast? := hreads
        refine iff_congr ?_ Iff.rfl
        cases hw with
        | report _ _ futexes ws todo ch' hphase hch' hup =>
            obtain rfl := Option.some.inj (hch.symm.trans hch')
            exact iff_of_true rfl hup
        | check _ _ futexes ws todo ch' hphase hch' hup =>
            obtain rfl := Option.some.inj (hch.symm.trans hch')
            refine iff_of_false ?_ (Bool.eq_false_iff.mp hup)
            show Waiter.afterCheck futexes ws todo ≠ .reported i
            cases todo <;> simp [Waiter.afterCheck]
  · cases Services.step_cases hs with
    | wait _ w' hidle hreads hw =>
        cases hw with
        | sleep ws' hphase hsame =>
            cases hasleep
            -- it sleeps on notify words only
            have hword := hinv.futexes i (by rw [hphase]; exact hi)
            rw [TensorSubscriber.hasNotifyWord, hch] at hword
            have hword : ch.hasNotify = true := hword
            unfold Services.Rearmed
            rw [if_pos hword]
            constructor
            · intro hframes
              exact .inl ⟨hframes, (hsame i hi).symm.trans (Services.notify_eq_zero hframes)⟩
            · rintro (⟨hframes, -⟩ | ⟨-, hne⟩)
              · exact hframes
              · exact absurd (hsame i hi) hne
        | again ws' hphase => cases hasleep

/-- The subscriber takes the first frame of publisher 0, which exits; a new publisher starts, and the
subscriber attaches to it. -/
def reattachAfterRead : List (ServicesEv Unit) :=
  [startPublisher] ++ receiveFrom 0 ++ mapAndOpen ++ [publishOn 0, .wait (.viewCall () 8),
    .wait (.viewRet () (some publishedFrame) 0 9), .service () (.destroy 0), startPublisher] ++
    receiveFrom 1 ++ mapAndOpen

/-- It begins to wait. -/
def beginWait : List (ServicesEv Unit) := [.wait (.waitCall [()]), .wait (.raise ())]

/-- **A stale watermark**, one frame having been read from the old publisher: with one frame in the new
slot the subscriber goes to sleep, with none it reports an update. -/
theorem stale_watermark :
    (∃ (s : Services Unit), (servicesMachine Unit ⟨false, false⟩).Run (reattachAfterRead ++ [publishOn 1] ++
      beginWait ++ [.wait (.check () (some publishedFrame)), .wait .sleep]) s ∧
      (s.origin ()).slotOf = some 1 ∧ (s.origin ()).readFrom = [0] ∧ s.frames () = [publishedFrame] ∧
      s.waiter.phase = .asleep [()]) ∧
    ∃ (s : Services Unit), (servicesMachine Unit ⟨false, false⟩).Run (reattachAfterRead ++ beginWait ++
      [.wait (.check () none)]) s ∧
      (s.origin ()).slotOf = some 1 ∧ (s.origin ()).readFrom = [0] ∧ s.frames () = [] ∧
      s.waiter.phase = .reported () := by
  -- it sleeps though the slot holds a frame it has not read
  have hasleep : ((servicesMachine Unit ⟨false, false⟩).exec oneService (reattachAfterRead ++ [publishOn 1] ++
      beginWait ++ [.wait (.check () (some publishedFrame)), .wait .sleep])).map (fun s =>
        ((s.origin ()).slotOf, (s.origin ()).readFrom, s.frames (), s.waiter.phase)) =
      some (some 1, [0], [publishedFrame], .asleep [()]) := by
    decide +kernel
  -- and it reports an update though the slot holds none
  have hreported : ((servicesMachine Unit ⟨false, false⟩).exec oneService (reattachAfterRead ++ beginWait ++
      [.wait (.check () none)])).map (fun s =>
        ((s.origin ()).slotOf, (s.origin ()).readFrom, s.frames (), s.waiter.phase)) =
      some (some 1, [0], [], .reported ()) := by
    decide +kernel
  obtain ⟨s, hs, hres⟩ := Option.map_eq_some_iff.mp hasleep
  obtain ⟨s', hs', hres'⟩ := Option.map_eq_some_iff.mp hreported
  simp only [Prod.mk.injEq] at hres hres'
  exact ⟨⟨s, .of_exec oneService_init hs, hres⟩, s', .of_exec oneService_init hs', hres'⟩

/-- The second frame of a publisher, as published. -/
def secondFrame : TensorDescriptor := { publishedFrame with seqno := 2 }

/-- With two frames in the new slot, the watermark left from one frame of the old publisher fits, and the
subscriber reports the update. -/
theorem first_wait_iff_two_frames : ∃ (s s' : Services Unit),
    s.step ⟨false, false⟩ (.wait (.check () (some secondFrame))) = some s' ∧
    (s.waiter.subs ()).seenNotify = 1 ∧ s.frames () ≠ [] ∧ s'.waiter.phase = .reported () := by
  have hexec : (((servicesMachine Unit ⟨false, false⟩).exec oneService (reattachAfterRead ++
      [publishOn 1, publishOn 1] ++ beginWait)).bind fun s =>
        (s.step ⟨false, false⟩ (.wait (.check () (some secondFrame)))).map fun _ =>
          ((s.waiter.subs ()).metadata, (s.origin ()).slotOf, (s.origin ()).readFrom,
            (s.waiter.subs ()).seenNotify, s.frames ())) =
      some (some ⟨true⟩, some 1, [0], 1, [publishedFrame, secondFrame]) := by
    decide +kernel
  obtain ⟨s, hs, hres⟩ := Option.bind_eq_some_iff.mp hexec
  obtain ⟨s', hs', hres⟩ := Option.map_eq_some_iff.mp hres
  simp only [Prod.mk.injEq] at hres
  obtain ⟨hch, hslot, hread, hseen, hframes⟩ := hres
  have hne : s.frames () ≠ [] := by
    rw [hframes]
    exact nofun
  have hnew : 1 ∉ (s.origin ()).readFrom := by
    rw [hread]
    decide
  have h := first_wait_iff (.of_exec oneService_init hs) hslot hnew hch
  -- two frames are counted, and the watermark of the old publisher is 1
  have hrearmed : s.Rearmed () ⟨true⟩ := by
    unfold Services.Rearmed
    rw [if_pos rfl, Services.notify, hframes, hseen]
    exact .inr ⟨nofun, by decide⟩
  exact ⟨s, s', hs', hseen, hne, ((h.2.2.1 _ s' hs').mpr hrearmed).mpr hne⟩

end Axon
