import Axon.Service

/-! # The two planes of one attachment

A subscriber gets its FDs from whoever the socket's path stands for when it connects, and its descriptors
from whoever the slot's name stands for some steps later. The two are compared by the pool's generation
alone, which every publisher counts from one.

* **`Services.Backed`**: what the subscriber holds and maps is a bundle of one publisher.
* **`fresh_view_of_one_publisher`**: no frame of another publisher is handed out, provided that each slot is
  opened on the publisher whose bundle was received. `mixed_attachment` is a run in which it is not. -/

namespace Axon

open Foundation

namespace Service

variable {v v' : Service}

/-- Publishers still to come are not there yet. -/
def Fresh (v : Service) : Prop := ∀ p, v.name.next ≤ p → v.pubs p = none

/-- **Every publisher stays**, with everything it has sent and published. -/
def Grows (v v' : Service) : Prop :=
  ∀ p prod, v.pubs p = some prod → ∃ prod', v'.pubs p = some prod' ∧
    TensorPublisher.Grows (fun _ => True) prod.pub prod'.pub

/-- Nothing has happened. -/
theorem Grows.refl (v : Service) : v.Grows v := fun _ prod h => ⟨prod, h, .refl _⟩

/-- **A step of the service** adds to what was sent and opened. -/
theorem grows_of_step {e : ServiceEv} (hfresh : v.Fresh) (hs : v.step e = some v') : v'.Fresh ∧ v.Grows v' := by
  cases e with
  | create build cfg sys ans =>
      obtain ⟨name, hname, hs⟩ := Option.bind_eq_some_iff.mp hs
      have hnext : name.next = v.name.next + 1 := by
        dsimp only [ServiceName.step] at hname
        split at hname <;> cases hname <;> rfl
      split_ifs at hs
      · obtain ⟨prod, -, rfl⟩ := Option.map_eq_some_iff.mp hs
        refine ⟨fun p hp => ?_, fun p prod' hp => ⟨prod', ?_, .refl _⟩⟩
        · -- the new publisher takes the next number
          have hp : v.name.next + 1 ≤ p := hnext ▸ hp
          exact (Function.update_of_ne (Nat.lt_of_succ_le hp).ne' _ _).trans (hfresh p (Nat.le_of_succ_le hp))
        · have hne : p ≠ v.name.next := by
            rintro rfl
            cases (hfresh _ le_rfl).symm.trans hp
          exact (Function.update_of_ne hne _ _).trans hp
      · -- a failed attempt uses up a number as well
        cases hs
        refine ⟨fun p hp => hfresh p ?_, .refl v⟩
        have hp : v.name.next + 1 ≤ p := hnext ▸ hp
        exact Nat.le_of_succ_le hp
  | destroy p =>
      obtain ⟨name, hname, rfl⟩ := Option.map_eq_some_iff.mp hs
      dsimp only [ServiceName.step] at hname
      split_ifs at hname
      cases hname
      exact ⟨hfresh, .refl v⟩
  | crash p =>
      dsimp only [step] at hs
      split_ifs at hs
      cases hs
      exact ⟨hfresh, .refl v⟩
  | prod p e =>
      dsimp only [step] at hs
      split_ifs at hs
      obtain ⟨prod, hprod, hs⟩ := Option.bind_eq_some_iff.mp hs
      obtain ⟨prod', hstep, rfl⟩ := Option.map_eq_some_iff.mp hs
      have hgrows : TensorPublisher.Grows (fun _ => True) prod.pub prod'.pub :=
        Producer.grows_step (fun _ _ _ => trivial) (fun _ _ _ _ _ _ => trivial) (fun _ _ _ _ => trivial) hstep
      refine ⟨fun q hq => ?_, fun q prod₁ hq => ?_⟩
      · have hne : q ≠ p := by
          rintro rfl
          cases (hfresh _ hq).symm.trans hprod
        exact (Function.update_of_ne hne _ _).trans (hfresh q hq)
      · by_cases hqp : q = p
        · subst hqp
          obtain rfl := Option.some.inj (hq.symm.trans hprod)
          exact ⟨prod', Function.update_self q _ _, hgrows⟩
        · exact ⟨prod₁, (Function.update_of_ne hqp _ _).trans hq, .refl _⟩

/-- Publisher `p` has sent a bundle with this header and these files. -/
def SentBundle (v : Service) (p : ℕ) (header : PoolHandshakeHeader) (files : List File) : Prop :=
  ∃ prod, v.pubs p = some prod ∧ ∃ ext, prod.pub.server.Sent (.pool header files ext)

/-- A bundle that was sent stays sent. -/
theorem SentBundle.mono {p : ℕ} {header : PoolHandshakeHeader} {files : List File}
    (h : v.SentBundle p header files) (hgrows : v.Grows v') : v'.SentBundle p header files := by
  obtain ⟨prod, hprod, ext, hsent⟩ := h
  obtain ⟨prod', hprod', hgrows⟩ := hgrows p prod hprod
  exact ⟨prod', hprod', ext, hsent.mono hgrows.server⟩

/-- What a handshake receives was sent by the publisher it is connected to. -/
theorem sentBundle_of_receive {p conn arrived : ℕ} {pieces : List (List UInt8)} {sub sub' : TensorSubscriber}
    {hdr : PoolHandshakeHeader} {fds : List Fd} {ext : List UInt8}
    (h : sub.receive (v.arrived p conn pieces arrived) = (.ok (hdr, fds, ext), sub')) :
    v.SentBundle p hdr (fds.map (·.file)) := by
  have hrecv : ∃ client, (sub.reconnect (v.arrived p conn pieces arrived)).client.recvPoolHandshake =
      (.ok (hdr, fds, ext), client) := by
    unfold TensorSubscriber.receive at h
    dsimp only at h
    split at h
    · cases h
    · rename_i hdr' fds' ext' client heq
      split_ifs at h
      · cases h
      · cases h
        exact ⟨client, heq⟩
  obtain ⟨client, hrecv⟩ := hrecv
  -- a handshake does not succeed on an empty stream
  have hempty : v.arrived p conn pieces arrived ≠ [] := by
    intro hnil
    obtain ⟨e, he⟩ := SidecarClient.recvPoolHandshake_nil
      (c := (sub.reconnect (v.arrived p conn pieces arrived)).client) hnil
    cases he.symm.trans hrecv
  -- so there is a connection whose first message has arrived
  have hsome : ∃ segs, (((v.pubs p).bind fun prod => prod.pub.server.clients.find? fun c => c.id = conn).bind
      fun c => c.sent.head?).bind (fun m => m.arrivedPieces pieces arrived) = some segs := by
    rw [← Option.isSome_iff_exists, Option.isSome_iff_ne_none]
    intro hnone
    refine hempty ?_
    rw [Service.arrived, hnone]
    rfl
  obtain ⟨segs, hsegs⟩ := hsome
  obtain ⟨m, hm, hpieces⟩ := Option.bind_eq_some_iff.mp hsegs
  obtain ⟨c, hc, hhead⟩ := Option.bind_eq_some_iff.mp hm
  obtain ⟨prod, hprod, hfind⟩ := Option.bind_eq_some_iff.mp hc
  obtain ⟨-, k, hk, rfl, -⟩ := List.find?_eq_some_iff_getElem.mp hfind
  have hlink : Attachment.received ⟨prod, sub⟩ (.bundle k pieces arrived) =
      some (some (v.arrived p conn pieces arrived)) := by
    rw [Attachment.received, List.getElem?_eq_getElem hk, Option.bind_some, hhead, Option.bind_some, hpieces,
      Service.arrived, hsegs]
    rfl
  obtain ⟨ext', hsent⟩ := Attachment.received_ok hlink
    (c := (sub.reconnect (v.arrived p conn pieces arrived)).client) rfl hrecv
  exact ⟨prod, hprod, ext', hsent⟩

end Service

namespace TensorSubscriber

/-- The subscriber holds the buffers of a bundle of publisher `w`, and maps no others. -/
structure Backed (s : TensorSubscriber) (v : Service) (fdsFrom : Option ℕ) : Prop where
  bundle : ∀ w, fdsFrom = some w → ∃ header, v.SentBundle w header (s.fds.map (·.file)) ∧
    header.poolGeneration = s.poolGeneration
  regions : ∀ i m, s.HasRegion i m → fdsFrom ≠ none ∧ (s.fds.map (·.file))[i]? = some m.file

/-- An attachment stays backed by what the service has sent. -/
theorem Backed.mono {s : TensorSubscriber} {v v' : Service} {fdsFrom : Option ℕ} (h : s.Backed v fdsFrom)
    (hgrows : v.Grows v') : s.Backed v' fdsFrom := by
  refine ⟨fun w hw => ?_, h.regions⟩
  obtain ⟨header, hsent, hgen⟩ := h.bundle w hw
  exact ⟨header, hsent.mono hgrows, hgen⟩

/-- It stays so while the attachment is the same. -/
theorem Backed.same {s s' : TensorSubscriber} {v : Service} {fdsFrom : Option ℕ} (h : s.Backed v fdsFrom)
    (hsame : s.SameAttachment s') : s'.Backed v fdsFrom := by
  refine ⟨?_, fun i m hm => ?_⟩
  · rw [hsame.fds, hsame.poolGeneration]
    exact h.bundle
  · rw [hsame.fds]
    exact h.regions i m (hsame.hasRegion.mp hm)

/-- **Mapping the buffers of a bundle** that publisher `p` has sent. -/
theorem Backed.of_mapBuffers {s : TensorSubscriber} {v : Service} {p : ℕ} {hdr : PoolHandshakeHeader}
    {fds : List Fd} (hsent : v.SentBundle p hdr (fds.map (·.file))) (build : BuildConfig) (ext : List UInt8)
    (ans : HandshakeAnswers) : (s.mapBuffers build hdr fds ext ans).2.Backed v (some p) := by
  -- the old buffers are gone, and the new FDs are those of the bundle sent by `p`
  have hadopted : (s.adopt hdr fds).Backed v (some p) := by
    refine ⟨?_, fun i m hm => ?_⟩
    · rintro w ⟨⟩
      exact ⟨hdr, hsent, rfl⟩
    · rcases hm with hm | hm <;> cases hm
  unfold mapBuffers
  dsimp only
  split_ifs
  · exact hadopted
  · obtain ⟨-, -, -, hfds, hgen, -⟩ := (s.adopt hdr fds).attach_frame build hdr ext ans
    refine ⟨?_, fun i m hm => ?_⟩
    · rw [hfds, hgen]
      exact hadopted.bundle
    -- an attached buffer maps one of these FDs
    · obtain ⟨fd, hfd, hfile⟩ := attach_files rfl rfl build hdr ext ans hm
      rw [hfds, List.getElem?_map, hfd, hfile]
      exact ⟨nofun, rfl⟩

/-- A handshake that fails on a device-backed pool leaves no buffer that could be handed out. -/
theorem nbufs_of_mapBuffers_error {s : TensorSubscriber} {build : BuildConfig} {hdr : PoolHandshakeHeader}
    {fds : List Fd} {ext : List UInt8} {ans : HandshakeAnswers} {e : Errno} {sub : TensorSubscriber}
    (h : s.mapBuffers build hdr fds ext ans = (.error e, sub)) : sub.nbufs = 0 := by
  unfold mapBuffers at h
  dsimp only at h
  split_ifs at h with hdevice
  · cases h
    rw [nbufs, if_pos hdevice.1]
    rfl
  · cases h

/-- Receiving a bundle leaves the attachment alone. -/
theorem receive_sameAttachment (s : TensorSubscriber) (stream : List Segment) :
    s.SameAttachment (s.receive stream).2 ∧ (s.receive stream).2.metadata = s.metadata := by
  unfold receive
  dsimp only
  split
  · exact ⟨⟨rfl, rfl, rfl, rfl, rfl, rfl, rfl, rfl⟩, rfl⟩
  · split_ifs <;> exact ⟨⟨rfl, rfl, rfl, rfl, rfl, rfl, rfl, rfl⟩, rfl⟩

/-- Opening the slot leaves the attachment alone. -/
theorem opened_sameAttachment (s : TensorSubscriber) (ch : Option MetadataChannel) :
    s.SameAttachment (s.opened ch) := by
  unfold opened
  split <;> exact ⟨rfl, rfl, rfl, rfl, rfl, rfl, rfl, rfl⟩

end TensorSubscriber

namespace Services

variable {ι : Type} [DecidableEq ι] {build : BuildConfig} {s s' : Services ι}

/-- Something happens to the service of stream `i`, and every service goes on. -/
theorem grows_update (hfresh : ∀ j, (s.services j).Fresh) {i : ι} {e : ServiceEv} {v : Service}
    (hs : (s.services i).step e = some v) (j : ι) :
    (s.services j).Grows (Function.update s.services i v j) ∧ (Function.update s.services i v j).Fresh := by
  by_cases hj : j = i
  · subst hj
    rw [Function.update_self]
    exact (Service.grows_of_step (hfresh j) hs).symm
  · rw [Function.update_of_ne hj]
    exact ⟨.refl _, hfresh j⟩

/-- The FDs that the subscriber of stream `i` holds and the slot it has open are of one publisher, unless it
has no slot open or no buffer to hand out. -/
def OneOwner (s : Services ι) (i : ι) : Prop :=
  (s.waiter.subs i).metadata ≠ none → (s.waiter.subs i).nbufs = 0 ∨
    ∃ w, (s.origin i).slotOf = some w ∧ (s.origin i).fdsFrom = some w

/-- A slot is opened on the publisher whose bundle was received. -/
def OpensSame (s : Services ι) : ServicesEv ι → Prop
  | .openSlot _ =>
      match s.handshake with
      | .mapped i p => (s.services i).name.names.shm = some p
      | _ => True
  | _ => True

omit [DecidableEq ι] in
/-- The slot opened is that of the publisher whose buffers were mapped. -/
theorem OpensSame.of_mapped {ch : MetadataChannel} (h : s.OpensSame (.openSlot ch)) {i : ι} {p : ℕ}
    (hphase : s.handshake = .mapped i p) : (s.services i).name.names.shm = some p := by
  unfold OpensSame at h
  rw [hphase] at h
  exact h

/-- Whether the slot is the same publisher's can be read off the state. -/
instance (s : Services ι) : (e : ServicesEv ι) → Decidable (s.OpensSame e)
  | .openSlot _ =>
      match h : s.handshake with
      | .mapped i p => decidable_of_iff ((s.services i).name.names.shm = some p) (by rw [OpensSame, h])
      | .idle | .connected .. | .received .. => isTrue (by rw [OpensSame, h]; trivial)
  | .service .. | .connect .. | .receive .. | .map _ | .openTimeout | .wait _ => isTrue trivial

/-- **The invariant**: what is held and mapped are bundles of the publishers connected to, and outside of a
handshake the slot is of the same publisher. -/
structure Inv (s : Services ι) : Prop where
  fresh : ∀ i, (s.services i).Fresh
  backed : ∀ i, (s.waiter.subs i).Backed (s.services i) (s.origin i).fdsFrom
  one : ∀ i, (∀ p, s.handshake ≠ .mapped i p) → s.OneOwner i
  received : ∀ i p hdr fds ext, s.handshake = .received i p hdr fds ext →
    (s.services i).SentBundle p hdr (fds.map (·.file))
  mapped : ∀ i p, s.handshake = .mapped i p → (s.origin i).fdsFrom = some p

namespace Inv

/-- At the beginning nothing is attached. -/
theorem of_init (h : (servicesMachine ι build).init s) : s.Inv := by
  obtain ⟨hservices, hsubs, -, hhandshake, horigin⟩ := h
  refine ⟨fun i p _ => ?_, fun i => ⟨fun w hw => ?_, fun j m hm => ?_⟩, fun i _ hmeta => ?_,
    fun i p hdr fds ext hphase => ?_, fun i p hphase => ?_⟩
  · rw [(hservices i).2]
  · rw [horigin i] at hw
    cases hw
  · rw [hsubs i] at hm
    rcases hm with hm | hm <;> cases hm
  · rw [hsubs i] at hmeta
    exact absurd rfl hmeta
  · cases hhandshake.symm.trans hphase
  · cases hhandshake.symm.trans hphase

/-- Something happens to the service of stream `i`. -/
theorem service (h : s.Inv) {i : ι} {e : ServiceEv} {v : Service} (hs : (s.services i).step e = some v) :
    Inv { s with services := Function.update s.services i v } := by
  have hall := grows_update h.fresh hs
  exact ⟨fun j => (hall j).2, fun j => (h.backed j).mono (hall j).1, h.one,
    fun j p hdr fds ext hphase => (h.received j p hdr fds ext hphase).mono (hall j).1, h.mapped⟩

/-- The consumer goes on with a handshake of stream `i`. -/
theorem setHandshake (h : s.Inv) {i : ι} {sub : TensorSubscriber} {phase : HandshakePhase ι} {origin : Origin}
    (hbacked : sub.Backed (s.services i) origin.fdsFrom)
    (hother : ∀ j, j ≠ i → ∀ p, s.handshake ≠ .mapped j p)
    (hone : (∀ p, phase ≠ .mapped i p) → sub.metadata ≠ none → sub.nbufs = 0 ∨
      ∃ w, origin.slotOf = some w ∧ origin.fdsFrom = some w)
    (hreceived : ∀ j p hdr fds ext, phase = .received j p hdr fds ext →
      (s.services j).SentBundle p hdr (fds.map (·.file)))
    (hmapped : ∀ j p, phase = .mapped j p → j = i ∧ origin.fdsFrom = some p) :
    Inv (s.setHandshake i sub phase origin) := by
  refine ⟨h.fresh, fun j => ?_, fun j hphase => ?_, hreceived, fun j p hphase => ?_⟩
  · by_cases hj : j = i
    · subst hj
      show ((s.waiter.setSub j sub).subs j).Backed _ (Function.update s.origin j origin j).fdsFrom
      rw [Waiter.setSub_subs_self, Function.update_self]
      exact hbacked
    · show ((s.waiter.setSub i sub).subs j).Backed _ (Function.update s.origin i origin j).fdsFrom
      rw [Waiter.setSub_subs_of_ne _ hj, Function.update_of_ne hj]
      exact h.backed j
  · -- the stream of the handshake, and the others
    by_cases hj : j = i
    · subst hj
      show ((s.waiter.setSub j sub).subs j).metadata ≠ none → ((s.waiter.setSub j sub).subs j).nbufs = 0 ∨
        ∃ w, (Function.update s.origin j origin j).slotOf = some w ∧
          (Function.update s.origin j origin j).fdsFrom = some w
      rw [Waiter.setSub_subs_self, Function.update_self]
      exact hone hphase
    · show ((s.waiter.setSub i sub).subs j).metadata ≠ none → ((s.waiter.setSub i sub).subs j).nbufs = 0 ∨
        ∃ w, (Function.update s.origin i origin j).slotOf = some w ∧
          (Function.update s.origin i origin j).fdsFrom = some w
      rw [Waiter.setSub_subs_of_ne _ hj, Function.update_of_ne hj]
      exact h.one j (hother j hj)
  · obtain ⟨rfl, hfrom⟩ := hmapped j p hphase
    show (Function.update s.origin j origin j).fdsFrom = some p
    rw [Function.update_self]
    exact hfrom

/-- A step of the thread between its handshakes. -/
theorem wait (h : s.Inv) {e : WaitEv ι} {w : Waiter ι} (hphase : s.handshake = .idle)
    (hw : s.waiter.StepCase s.notify e w) : Inv { s with waiter := w, origin := s.readAfter e } := by
  -- handing out a frame changes none of the owners
  have horigin : ∀ i, (s.readAfter e i).fdsFrom = (s.origin i).fdsFrom ∧
      (s.readAfter e i).slotOf = (s.origin i).slotOf := by
    intro i
    unfold readAfter
    split
    · rename_i j d retries now
      split_ifs
      · by_cases hj : i = j
        · subst hj
          rw [Function.update_self]
          exact ⟨rfl, rfl⟩
        · rw [Function.update_of_ne hj]
          exact ⟨rfl, rfl⟩
      · exact ⟨rfl, rfl⟩
    · exact ⟨rfl, rfl⟩
  refine ⟨h.fresh, fun i => ?_, fun i hidle hmeta => ?_, h.received, fun i p hmapped => ?_⟩
  · show (w.subs i).Backed _ (s.readAfter e i).fdsFrom
    rw [(horigin i).1]
    exact (h.backed i).same (hw.sameAttachment i).1
  · obtain ⟨hsame, hkept⟩ := hw.sameAttachment i
    have hmeta : (s.waiter.subs i).metadata ≠ none := by
      rw [← hkept]
      exact hmeta
    have hnbufs : (w.subs i).nbufs = (s.waiter.subs i).nbufs := hsame.nbufs
    show (w.subs i).nbufs = 0 ∨ ∃ q, (s.readAfter e i).slotOf = some q ∧ (s.readAfter e i).fdsFrom = some q
    rw [hnbufs, (horigin i).1, (horigin i).2]
    exact h.one i hidle hmeta
  · cases hphase.symm.trans hmapped

omit [DecidableEq ι] in
/-- Receiving a bundle, or failing to, changes nothing about what is held, mapped and open. -/
theorem received_one (h : s.Inv) {i : ι} {p conn : ℕ} {stream : List Segment} {sub : TensorSubscriber}
    (hphase : s.handshake = .connected i p conn) (hsub : ((s.waiter.subs i).receive stream).2 = sub) :
    sub.Backed (s.services i) (s.origin i).fdsFrom ∧ (sub.metadata ≠ none → sub.nbufs = 0 ∨
      ∃ w, (s.origin i).slotOf = some w ∧ (s.origin i).fdsFrom = some w) := by
  obtain ⟨hsame, hkept⟩ := (s.waiter.subs i).receive_sameAttachment stream
  rw [hsub] at hsame hkept
  refine ⟨(h.backed i).same hsame, ?_⟩
  have hone := h.one i fun q hq => absurd (hphase.symm.trans hq) nofun
  have hnbufs : sub.nbufs = (s.waiter.subs i).nbufs := hsame.nbufs
  unfold OneOwner at hone
  rw [← hkept, ← hnbufs] at hone
  exact hone

/-- **A step keeps the invariant.** -/
theorem step (h : s.Inv) {e : ServicesEv ι} (hc : s.OpensSame e) (hs : s.step build e = some s') : s'.Inv := by
  have hnot : ∀ {i : ι} {p : ℕ} (j : ι), s.handshake = .mapped i p → j ≠ i → ∀ q, s.handshake ≠ .mapped j q := by
    intro i p j hphase hj q hq
    cases hphase.symm.trans hq
    exact hj rfl
  cases step_cases hs with
  | service i e v hv => exact h.service hv
  | connect i conn capacity p v hwaiter hidle hp hv =>
      have hinv := h.service hv
      refine ⟨hinv.fresh, hinv.backed, fun j _ => ?_, nofun, nofun⟩
      exact h.one j fun q hq => absurd (hidle.symm.trans hq) nofun
  | receiveFails pieces arrived i p conn e sub hphase hrecv =>
      obtain ⟨hsame, hone⟩ := h.received_one hphase (congrArg Prod.snd hrecv)
      exact h.setHandshake hsame (fun j _ q hq => absurd (hphase.symm.trans hq) nofun) (fun _ => hone) nofun
        nofun
  | receive pieces arrived i p conn hdr fds ext sub hphase hrecv =>
      obtain ⟨hsame, hone⟩ := h.received_one hphase (congrArg Prod.snd hrecv)
      have hsent := Service.sentBundle_of_receive hrecv
      refine h.setHandshake hsame (fun j _ q hq => absurd (hphase.symm.trans hq) nofun) (fun _ => hone) ?_ nofun
      rintro j q hdr' fds' ext' ⟨⟩
      exact hsent
  | mapFails ans i p hdr fds ext e sub hphase hmap =>
      have hbacked := TensorSubscriber.Backed.of_mapBuffers (s := s.waiter.subs i)
        (h.received i p hdr fds ext hphase) build ext ans
      rw [hmap] at hbacked
      exact h.setHandshake hbacked (fun j _ q hq => absurd (hphase.symm.trans hq) nofun)
        (fun _ _ => .inl (TensorSubscriber.nbufs_of_mapBuffers_error hmap)) nofun nofun
  | map ans i p hdr fds ext sub hphase hmap =>
      have hbacked := TensorSubscriber.Backed.of_mapBuffers (s := s.waiter.subs i)
        (h.received i p hdr fds ext hphase) build ext ans
      rw [hmap] at hbacked
      refine h.setHandshake hbacked (fun j _ q hq => absurd (hphase.symm.trans hq) nofun)
        (fun hother => absurd rfl (hother p)) nofun ?_
      rintro j q ⟨⟩
      exact ⟨rfl, rfl⟩
  | openSlot ch i p q hphase hq =>
      -- the slot is of the publisher whose bundle is held
      obtain rfl : p = q := Option.some.inj ((hc.of_mapped hphase).symm.trans hq)
      exact h.setHandshake ((h.backed i).same (TensorSubscriber.opened_sameAttachment _ _))
        (fun j => hnot j hphase) (fun _ _ => .inr ⟨p, rfl, h.mapped i p hphase⟩) nofun nofun
  | openTimeout i p hphase hnone =>
      exact h.setHandshake ((h.backed i).same (TensorSubscriber.opened_sameAttachment _ _))
        (fun j => hnot j hphase) (fun _ hmeta => absurd rfl hmeta) nofun nofun
  | wait e w hidle hreads hw => exact h.wait hidle hw

end Inv

/-- **A fresh view is of one publisher**: when `latest_view` hands out a frame, the publisher that wrote its
descriptor is the one whose FDs are held, and the pointers of the view lie in mappings of the buffer that the
descriptor names in a bundle that this publisher has sent for the descriptor's generation. -/
def FromOnePublisher (s : Services ι) : ServicesEv ι → Prop
  | .wait (.viewRet i (some d) retries now) => (s.waiter.subs i).metadata ≠ none → (s.waiter.subs i).Accepts d →
      ∃ w prod, (s.origin i).slotOf = some w ∧ (s.services i).pubs w = some prod ∧ d ∈ prod.pub.published ∧
        (s.origin i).fdsFrom = some w ∧
        ∀ ptr, ((s.waiter.subs i).viewOf d retries now).data = some ptr ∨
          ((s.waiter.subs i).viewOf d retries now).devicePtr = some ptr →
          ∃ header files, (s.services i).SentBundle w header files ∧
            header.poolGeneration.toNat = d.poolGeneration ∧ files[d.boHandle]? = some ptr.region.file
  | _ => True

end Services

/-- **FDs and descriptors come from the same publisher**, in every run in which each handshake opens the slot
of the publisher whose bundle it received: whatever publishers exit and start in between, a view that is
handed out shows a frame of the publisher whose buffers it points into. -/
theorem fresh_view_of_one_publisher {ι : Type} [DecidableEq ι] {build : BuildConfig}
    {tr : List (ServicesEv ι)} {s s' : Services ι}
    (hrun : (servicesMachine ι build).RunWhere Services.OpensSame tr s) {e : ServicesEv ι}
    (hs : s.step build e = some s') : s.FromOnePublisher e := by
  have hinv : s.Inv := hrun.invariant (P := fun _ s => s.Inv) (fun s h => .of_init h)
    fun _ _ _ _ _ h hc hs => h.step hc hs
  unfold Services.FromOnePublisher
  split
  · rename_i i d retries now
    intro hmeta hacc
    cases Services.step_cases hs with
    | wait _ w hidle hreads hw =>
        have hframe : d ∈ s.frames i := hreads
        obtain hnone | ⟨w, hslot, hfrom⟩ := hinv.one i (fun p hp => absurd (hidle.symm.trans hp) nofun) hmeta
        · -- without buffers nothing is handed out
          exact absurd (hnone ▸ hacc.2.2) (Nat.not_lt_zero _)
        · obtain ⟨header, ⟨prod, hprod, ext, hsent⟩, hgen⟩ := (hinv.backed i).bundle w hfrom
          rw [Services.frames, Service.published, hslot, Option.bind_some, hprod] at hframe
          refine ⟨w, prod, hslot, hprod, hframe, hfrom, fun ptr hptr => ?_⟩
          obtain ⟨-, hregion⟩ := TensorSubscriber.viewOf_ptr hptr
          refine ⟨header, _, ⟨prod, hprod, ext, hsent⟩, ?_, ((hinv.backed i).regions _ _ hregion).2⟩
          rw [hgen]
          exact hacc.1.symm
  · trivial

/-- One service, before anything has happened. -/
def oneService : Services Unit where
  services _ := ⟨⟨⟨none, none⟩, [], none, 0⟩, fun _ => none⟩
  waiter := ⟨fun _ => .create, .idle⟩
  handshake := .idle
  origin _ := ⟨none, none, []⟩

/-- One service, with nothing published, is a beginning. -/
theorem oneService_init : (servicesMachine Unit ⟨false, false⟩).init oneService :=
  ⟨fun _ => ⟨rfl, rfl⟩, fun _ => rfl, rfl, rfl, fun _ => rfl⟩

/-- A publisher is started on a pool of one memfd. -/
def startPublisher : ServicesEv Unit :=
  .service () (.create ⟨false, false⟩ (.oneBuffer 4096) .obliging .obliging)

/-- Publisher `p` publishes a frame. -/
def publishOn (p : ℕ) : ServicesEv Unit := .service () (.prod p (.publish 7 (.bytesFrame 16 .None) none))

/-- Its first frame, as published. -/
def publishedFrame : TensorDescriptor :=
  { (AcquiredDescriptor.bytesFrame 16 .None).desc with
    seqno := 1
    poolGeneration := 1
    producerPublishTsNs := 7 }

/-- The subscriber receives the bundle of publisher `p`, over connection `p`. -/
def receiveFrom (p : ℕ) : List (ServicesEv Unit) :=
  [.connect () p 4096, .service () (.prod p .handshake), .receive [] 1]

/-- It maps the buffers and opens the slot. -/
def mapAndOpen : List (ServicesEv Unit) := [.map (.obliging fun _ => true), .openSlot ⟨true⟩]

/-- **A mixed attachment**: a new publisher starts after the subscriber has received the bundle of the old
one. The first frame of the new publisher is handed out as fresh, with a pointer into a buffer of the old. -/
theorem mixed_attachment : ∃ (s s' : Services Unit),
    (servicesMachine Unit ⟨false, false⟩).Run ([startPublisher] ++ receiveFrom 0 ++ [startPublisher] ++
      mapAndOpen ++ [publishOn 1, .wait (.viewCall () 8)]) s ∧
    s.step ⟨false, false⟩ (.wait (.viewRet () (some publishedFrame) 0 9)) = some s' ∧
    (s.waiter.subs ()).Accepts publishedFrame ∧
    ((s.waiter.subs ()).viewOf publishedFrame 0 9).data.isSome = true ∧
    (s.origin ()).fdsFrom = some 0 ∧ (s.origin ()).slotOf = some 1 ∧
    ¬ s.FromOnePublisher (.wait (.viewRet () (some publishedFrame) 0 9)) := by
  have hexec : (((servicesMachine Unit ⟨false, false⟩).exec oneService ([startPublisher] ++ receiveFrom 0 ++
      [startPublisher] ++ mapAndOpen ++ [publishOn 1, .wait (.viewCall () 8)])).bind fun s =>
        (s.step ⟨false, false⟩ (.wait (.viewRet () (some publishedFrame) 0 9))).map fun _ =>
          ((s.waiter.subs ()).metadata.isSome, decide ((s.waiter.subs ()).Accepts publishedFrame),
            ((s.waiter.subs ()).viewOf publishedFrame 0 9).data.isSome, (s.origin ()).fdsFrom,
            (s.origin ()).slotOf)) = some (true, true, true, some 0, some 1) := by
    decide +kernel
  obtain ⟨s, hs, hres⟩ := Option.bind_eq_some_iff.mp hexec
  obtain ⟨s', hs', hres⟩ := Option.map_eq_some_iff.mp hres
  simp only [Prod.mk.injEq] at hres
  obtain ⟨hmeta, hacc, hdata, hfrom, hslot⟩ := hres
  -- the buffers are of publisher 0 and the slot of publisher 1
  refine ⟨s, s', .of_exec oneService_init hs, hs', of_decide_eq_true hacc, hdata, hfrom, hslot, ?_⟩
  intro hone
  obtain ⟨w, prod, hslot', -, -, hfrom', -⟩ :=
    hone (Option.isSome_iff_ne_none.mp hmeta) (of_decide_eq_true hacc)
  cases (hslot.symm.trans hslot').trans (hfrom'.symm.trans hfrom)

/-- The subscriber attaches to the old publisher, the old one exits, and it attaches to the new one. -/
def reattach : List (ServicesEv Unit) :=
  [startPublisher] ++ receiveFrom 0 ++ mapAndOpen ++ [.service () (.destroy 0), startPublisher] ++
    receiveFrom 1 ++ mapAndOpen ++ [publishOn 1, .wait (.viewCall () 8)]

/-- The frame that it is handed out after that is one of the new publisher, in its buffer. -/
theorem fresh_view_of_one_publisher_reattached : ∃ (s : Services Unit) (prod : Producer),
    (s.services ()).pubs 1 = some prod ∧ publishedFrame ∈ prod.pub.published ∧
    (s.origin ()).fdsFrom = some 1 ∧
    s.FromOnePublisher (.wait (.viewRet () (some publishedFrame) 0 9)) := by
  have hexec : (((servicesMachine Unit ⟨false, false⟩).exec oneService reattach).bind fun s =>
        (s.step ⟨false, false⟩ (.wait (.viewRet () (some publishedFrame) 0 9))).map fun _ =>
          ((s.waiter.subs ()).metadata.isSome, decide ((s.waiter.subs ()).Accepts publishedFrame),
            (s.origin ()).slotOf)) = some (true, true, some 1) := by
    decide +kernel
  -- the slot was opened while its publisher was the one that sent the bundle
  have hmeets : (servicesMachine Unit ⟨false, false⟩).Meets Services.OpensSame oneService reattach := by
    decide +kernel
  obtain ⟨s, hs, hres⟩ := Option.bind_eq_some_iff.mp hexec
  obtain ⟨s', hs', hres⟩ := Option.map_eq_some_iff.mp hres
  simp only [Prod.mk.injEq] at hres
  obtain ⟨hmeta, hacc, hslot⟩ := hres
  have h := fresh_view_of_one_publisher (.of_exec oneService_init hs hmeets) hs'
  obtain ⟨w, prod, hslot', hprod, hmem, hfrom, -⟩ :=
    h (Option.isSome_iff_ne_none.mp hmeta) (of_decide_eq_true hacc)
  obtain rfl := Option.some.inj (hslot.symm.trans hslot')
  exact ⟨s, prod, hprod, hmem, hfrom, h⟩

end Axon
