import Axon.Attachment
import Axon.ServiceNames
import Axon.Wait

/-! # Services whose publishers come and go

A service is a name with the publishers that have been started on it. `servicesMachine` runs a service for
every stream in `ι` next to one consumer thread, which attaches to each of them again and again: it goes
through `wait_handshake` step by step, while publishers exit and new ones start, and between its handshakes
it takes frames and waits.

A publisher is a process of its own: its `Producer` is known by its number, and so are its files. The frames
that a call of `latest_view` may read are those published by the owner of the slot it has open. -/

namespace Axon

open Foundation

/-- A service name and its publishers. -/
structure Service where
  name : ServiceName
  /-- The publishers created so far, by their numbers; those that are gone are as they were last. -/
  pubs : ℕ → Option Producer

/-- What happens to a service. -/
inductive ServiceEv
  /-- An attempt to create a pool and a publisher on it. -/
  | create (build : BuildConfig) (cfg : TensorPoolConfig) (sys : Sys) (ans : CreateAnswers)
  | destroy (p : ℕ)
  /-- The process of publisher `p` ends without unlinking its names. -/
  | crash (p : ℕ)
  /-- What the owner of publisher `p` does, or one of its consumers. -/
  | prod (p : ℕ) (e : ProducerEv)

namespace Service

/-- One event. -/
def step (v : Service) : ServiceEv → Option Service
  | .create build cfg sys ans =>
      (v.name.step (.create ans)).bind fun name =>
        if (v.name.names.create v.name.next ans).1 = true then
          (Producer.create build cfg sys).map fun prod =>
            ⟨name, Function.update v.pubs v.name.next (some prod)⟩
        else some { v with name := name }
  | .destroy p => (v.name.step (.destroy p)).map fun name => { v with name := name }
  | .crash p =>
      if p ∈ v.name.live then
        some { v with name := { v.name with live := v.name.live.filter fun q => q ≠ p } }
      else none
  | .prod p e =>
      if p ∈ v.name.live then
        (v.pubs p).bind fun prod => (prod.step e).map fun prod =>
          { v with pubs := Function.update v.pubs p (some prod) }
      else none

/-- The frames that publisher `p` has published. -/
def published (v : Service) (p : Option ℕ) : List TensorDescriptor :=
  (p.bind v.pubs).elim [] (·.pub.published)

/-- What has arrived on connection `conn` to publisher `p`: of its bundle, cut into pieces, the first
`arrived`. -/
def arrived (v : Service) (p conn : ℕ) (pieces : List (List UInt8)) (arrived : ℕ) : List Segment :=
  ((((v.pubs p).bind fun prod => prod.pub.server.clients.find? fun c => c.id = conn).bind
    fun c => c.sent.head?).bind fun m => m.arrivedPieces pieces arrived).getD []

end Service

/-- Where the consumer stands inside `wait_handshake`, with the stream and the publisher it deals with. -/
inductive HandshakePhase (ι : Type)
  | idle
  | connected (i : ι) (p conn : ℕ)
  | received (i : ι) (p : ℕ) (hdr : PoolHandshakeHeader) (fds : List Fd) (ext : List UInt8)
  | mapped (i : ι) (p : ℕ)

/-- Where a subscriber has its things from. -/
structure Origin where
  /-- The publisher whose buffers it holds. -/
  fdsFrom : Option ℕ
  /-- The publisher whose slot it has open. -/
  slotOf : Option ℕ
  /-- The publishers whose frames it has been handed. -/
  readFrom : List ℕ

/-- The services and the consumer. -/
structure Services (ι : Type) where
  services : ι → Service
  waiter : Waiter ι
  handshake : HandshakePhase ι
  origin : ι → Origin

/-- What happens. -/
inductive ServicesEv (ι : Type)
  | service (i : ι) (e : ServiceEv)
  /-- `wait_handshake` begins, and connects. -/
  | connect (i : ι) (conn capacity : ℕ)
  /-- It receives the bundle, as far as it has arrived. -/
  | receive (pieces : List (List UInt8)) (arrived : ℕ)
  /-- It maps the buffers. -/
  | map (ans : HandshakeAnswers)
  /-- It opens the metadata slot, and returns `0`. -/
  | openSlot (ch : MetadataChannel)
  /-- There is no slot to be opened in time. -/
  | openTimeout
  | wait (e : WaitEv ι)

/-- The subscriber with its metadata plane opened, or not: the end of `wait_handshake`. -/
def TensorSubscriber.opened (s : TensorSubscriber) (ch : Option MetadataChannel) : TensorSubscriber :=
  match ch with
  | none => { s with metadata := none }
  | some ch => { s with metadata := some ch, handshakeCount := s.handshakeCount + 1 }

/-- What `openMetadata` leaves of a subscriber. -/
theorem TensorSubscriber.openMetadata_opened (s : TensorSubscriber) (ans : HandshakeAnswers) :
    (s.openMetadata ans).2 = s.opened ans.metadata := by
  unfold openMetadata opened
  cases ans.metadata <;> rfl

namespace Services

variable {ι : Type} [DecidableEq ι]

/-- The frames in the slot that the subscriber of stream `i` has open, oldest first. -/
def frames (s : Services ι) (i : ι) : List TensorDescriptor := (s.services i).published (s.origin i).slotOf

/-- The notify word of that slot: it counts the frames. -/
def notify (s : Services ι) (i : ι) : UInt32 := .ofNat (s.frames i).length

/-- What the consumer reads in an event is in the slot: a frame for `latest_view`, and the last one when
`has_update` asks. -/
def ReadsSlot (s : Services ι) : WaitEv ι → Prop
  | .viewRet i (some d) _ _ => d ∈ s.frames i
  | .check i read => read = (s.frames i).getLast?
  | _ => True

/-- Whether a step reads the slot as it stands can be read off the state. -/
instance (s : Services ι) : (e : WaitEv ι) → Decidable (s.ReadsSlot e)
  | .viewRet i (some d) _ _ => inferInstanceAs (Decidable (d ∈ s.frames i))
  | .check i read => inferInstanceAs (Decidable (read = (s.frames i).getLast?))
  | .viewRet _ none _ _ | .viewCall .. | .read .. | .drainFences .. | .setFallbackPolicy .. | .waitCall _
  | .raise _ | .sleep | .interrupt | .noWaitv | .nap | .giveUp | .ret => isTrue trivial

/-- The publishers read from, after an event of the consumer: a frame handed out adds its publisher. -/
def readAfter (s : Services ι) : WaitEv ι → ι → Origin
  | .viewRet i (some d) _ _ =>
      if (s.waiter.subs i).metadata ≠ none ∧ (s.waiter.subs i).Accepts d then
        Function.update s.origin i
          { s.origin i with readFrom := (s.origin i).readFrom ++ (s.origin i).slotOf.toList }
      else s.origin
  | _ => s.origin

/-- The consumer goes on with `wait_handshake` of stream `i`. -/
def setHandshake (s : Services ι) (i : ι) (sub : TensorSubscriber) (phase : HandshakePhase ι)
    (origin : Origin) : Services ι :=
  { s with
    waiter := s.waiter.setSub i sub
    handshake := phase
    origin := Function.update s.origin i origin }

variable (build : BuildConfig)

/-- One event, with a consumer built as `build`. -/
def step (s : Services ι) : ServicesEv ι → Option (Services ι)
  | .service i e => ((s.services i).step e).map fun v => { s with services := Function.update s.services i v }
  | .connect i conn capacity =>
      match s.waiter.phase, s.handshake with
      | .idle, .idle => (s.services i).name.names.sock.bind fun p =>
          ((s.services i).step (.prod p (.connect conn capacity true))).map fun v =>
            { s with
              services := Function.update s.services i v
              handshake := .connected i p conn }
      | _, _ => none
  | .receive pieces arrived =>
      match s.handshake with
      | .connected i p conn =>
          match (s.waiter.subs i).receive ((s.services i).arrived p conn pieces arrived) with
          | (.error _, sub) => some (s.setHandshake i sub .idle (s.origin i))
          | (.ok (hdr, fds, ext), sub) => some (s.setHandshake i sub (.received i p hdr fds ext) (s.origin i))
      | _ => none
  | .map ans =>
      match s.handshake with
      | .received i p hdr fds ext =>
          match (s.waiter.subs i).mapBuffers build hdr fds ext ans with
          | (.error _, sub) => some (s.setHandshake i sub .idle { s.origin i with fdsFrom := some p })
          | (.ok (), sub) => some (s.setHandshake i sub (.mapped i p) { s.origin i with fdsFrom := some p })
      | _ => none
  | .openSlot ch =>
      match s.handshake with
      | .mapped i _ => (s.services i).name.names.shm.map fun q =>
          s.setHandshake i ((s.waiter.subs i).opened (some ch)) .idle { s.origin i with slotOf := some q }
      | _ => none
  | .openTimeout =>
      match s.handshake with
      | .mapped i _ =>
          if (s.services i).name.names.shm = none then
            some (s.setHandshake i ((s.waiter.subs i).opened none) .idle { s.origin i with slotOf := none })
          else none
      | _ => none
  | .wait e =>
      match s.handshake with
      | .idle =>
          if s.ReadsSlot e then
            (s.waiter.step s.notify e).map fun w => { s with waiter := w, origin := s.readAfter e }
          else none
      | _ => none

end Services

/-- **Services and a consumer**: no publisher has been started, and no subscriber has shaken hands. -/
def servicesMachine (ι : Type) [DecidableEq ι] (build : BuildConfig) :
    Machine (Services ι) (ServicesEv ι) where
  init s := (∀ i, (s.services i).name = ⟨⟨none, none⟩, [], none, 0⟩ ∧ (s.services i).pubs = fun _ => none) ∧
    (∀ i, s.waiter.subs i = .create) ∧ s.waiter.phase = .idle ∧ s.handshake = .idle ∧
    ∀ i, s.origin i = ⟨none, none, []⟩
  step := Services.step build

/-! ## What a step does -/

namespace Services

variable {ι : Type} [DecidableEq ι]

/-- The events of the services and the consumer, with the state after each. -/
inductive StepCase (build : BuildConfig) (s : Services ι) : ServicesEv ι → Services ι → Prop
  | service (i : ι) (e : ServiceEv) (v : Service) (h : (s.services i).step e = some v) :
      StepCase build s (.service i e) { s with services := Function.update s.services i v }
  | connect (i : ι) (conn capacity p : ℕ) (v : Service) (hwaiter : s.waiter.phase = .idle)
      (hidle : s.handshake = .idle) (hp : (s.services i).name.names.sock = some p)
      (h : (s.services i).step (.prod p (.connect conn capacity true)) = some v) :
      StepCase build s (.connect i conn capacity)
        { s with
          services := Function.update s.services i v
          handshake := .connected i p conn }
  | receiveFails (pieces : List (List UInt8)) (arrived : ℕ) (i : ι) (p conn : ℕ) (e : Errno)
      (sub : TensorSubscriber) (hphase : s.handshake = .connected i p conn)
      (h : (s.waiter.subs i).receive ((s.services i).arrived p conn pieces arrived) = (.error e, sub)) :
      StepCase build s (.receive pieces arrived) (s.setHandshake i sub .idle (s.origin i))
  | receive (pieces : List (List UInt8)) (arrived : ℕ) (i : ι) (p conn : ℕ) (hdr : PoolHandshakeHeader)
      (fds : List Fd) (ext : List UInt8) (sub : TensorSubscriber) (hphase : s.handshake = .connected i p conn)
      (h : (s.waiter.subs i).receive ((s.services i).arrived p conn pieces arrived) =
        (.ok (hdr, fds, ext), sub)) :
      StepCase build s (.receive pieces arrived)
        (s.setHandshake i sub (.received i p hdr fds ext) (s.origin i))
  | mapFails (ans : HandshakeAnswers) (i : ι) (p : ℕ) (hdr : PoolHandshakeHeader) (fds : List Fd)
      (ext : List UInt8) (e : Errno) (sub : TensorSubscriber) (hphase : s.handshake = .received i p hdr fds ext)
      (h : (s.waiter.subs i).mapBuffers build hdr fds ext ans = (.error e, sub)) :
      StepCase build s (.map ans) (s.setHandshake i sub .idle { s.origin i with fdsFrom := some p })
  | map (ans : HandshakeAnswers) (i : ι) (p : ℕ) (hdr : PoolHandshakeHeader) (fds : List Fd)
      (ext : List UInt8) (sub : TensorSubscriber) (hphase : s.handshake = .received i p hdr fds ext)
      (h : (s.waiter.subs i).mapBuffers build hdr fds ext ans = (.ok (), sub)) :
      StepCase build s (.map ans) (s.setHandshake i sub (.mapped i p) { s.origin i with fdsFrom := some p })
  | openSlot (ch : MetadataChannel) (i : ι) (p q : ℕ) (hphase : s.handshake = .mapped i p)
      (hq : (s.services i).name.names.shm = some q) :
      StepCase build s (.openSlot ch)
        (s.setHandshake i ((s.waiter.subs i).opened (some ch)) .idle { s.origin i with slotOf := some q })
  | openTimeout (i : ι) (p : ℕ) (hphase : s.handshake = .mapped i p)
      (hnone : (s.services i).name.names.shm = none) :
      StepCase build s .openTimeout
        (s.setHandshake i ((s.waiter.subs i).opened none) .idle { s.origin i with slotOf := none })
  | wait (e : WaitEv ι) (w : Waiter ι) (hidle : s.handshake = .idle) (hreads : s.ReadsSlot e)
      (hw : s.waiter.StepCase s.notify e w) :
      StepCase build s (.wait e) { s with waiter := w, origin := s.readAfter e }

/-- **What a step does.** -/
theorem step_cases {build : BuildConfig} {s s' : Services ι} {e : ServicesEv ι}
    (h : s.step build e = some s') : s.StepCase build e s' := by
  -- each event needs the state that its step of the handshake begins in
  cases e with
  | service i e =>
      obtain ⟨v, hv, rfl⟩ := Option.map_eq_some_iff.mp h
      exact .service i e v hv
  | connect i conn capacity =>
      dsimp only [step] at h
      split at h
      · rename_i hwaiter hidle
        obtain ⟨p, hp, h⟩ := Option.bind_eq_some_iff.mp h
        obtain ⟨v, hv, rfl⟩ := Option.map_eq_some_iff.mp h
        exact .connect i conn capacity p v hwaiter hidle hp hv
      · cases h
  | receive pieces arrived =>
      dsimp only [step] at h
      split at h
      · rename_i i p conn hphase
        split at h
        · rename_i e sub hrecv
          cases h
          exact .receiveFails pieces arrived i p conn e sub hphase hrecv
        · rename_i hdr fds ext sub hrecv
          cases h
          exact .receive pieces arrived i p conn hdr fds ext sub hphase hrecv
      · cases h
  | map ans =>
      dsimp only [step] at h
      split at h
      · rename_i i p hdr fds ext hphase
        split at h
        · rename_i e sub hmap
          cases h
          exact .mapFails ans i p hdr fds ext e sub hphase hmap
        · rename_i sub hmap
          cases h
          exact .map ans i p hdr fds ext sub hphase hmap
      · cases h
  | openSlot ch =>
      dsimp only [step] at h
      split at h
      · rename_i i p hphase
        obtain ⟨q, hq, rfl⟩ := Option.map_eq_some_iff.mp h
        exact .openSlot ch i p q hphase hq
      · cases h
  | openTimeout =>
      dsimp only [step] at h
      split at h
      · rename_i i p hphase
        split_ifs at h with hnone
        cases h
        exact .openTimeout i p hphase hnone
      · cases h
  | wait e =>
      dsimp only [step] at h
      split at h
      · rename_i hidle
        split_ifs at h with hreads
        obtain ⟨w, hw, rfl⟩ := Option.map_eq_some_iff.mp h
        exact .wait e w hidle hreads (Waiter.step_cases hw)
      · cases h

end Services

end Axon
