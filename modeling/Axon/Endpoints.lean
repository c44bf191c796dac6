import Axon.Descriptor
import Axon.EndpointNames
import Axon.Foundation.History
import Axon.ServiceNames
import Mathlib.Logic.Function.Basic

/-! # Services on one host

Publishers of any services come and go on a host. What each does to the file system is followed here path by
path: a server unlinks one path and binds another, and both are made from the service's name.

* **`Change`** is all that a publisher does to the file system; `create_change` and `destroy_change` say so.
* **`services_apart_iff`**: which services leave each other alone, and which can always be created again. -/

namespace Axon

open Foundation

/-- The endpoints in the file system: whose socket is bound at a path, and whose slot a name stands for. -/
structure EndpointTable where
  socks : List UInt8 → Option ℕ
  shms : List UInt8 → Option ℕ

namespace EndpointTable

/-- `unlink` of a socket's path. -/
def unlink (t : EndpointTable) (path : List UInt8) : EndpointTable :=
  { t with socks := Function.update t.socks (cStr path) none }

/-- `shm_unlink` of a slot's name. -/
def shmUnlink (t : EndpointTable) (name : List UInt8) : EndpointTable :=
  { t with shms := Function.update t.shms (cStr name) none }

/-- `bind` of process `p`'s socket. -/
def bind (t : EndpointTable) (path : List UInt8) (p : ℕ) : EndpointTable :=
  { t with socks := Function.update t.socks (sunPath path) (some p) }

/-- `shm_open` with `O_CREAT`. -/
def shmOpen (t : EndpointTable) (name : List UInt8) (p : ℕ) : EndpointTable :=
  { t with shms := Function.update t.shms (cStr name) (some p) }

/-- **`SidecarServer::create`** by publisher `p`. `bind` fails also where there is a file; a server that fails is
deleted, which unlinks its path. -/
def createServer (t : EndpointTable) (serviceName : List UInt8) (p : ℕ) (ans : CreateAnswers) :
    Bool × EndpointTable :=
  let path := sidecarSocketPath serviceName
  let t := t.unlink path
  if ans.socket = false then (false, t.unlink path)
  else if ans.bind = false ∨ t.socks (sunPath path) ≠ none then (false, t.unlink path)
  else
    let t := t.bind path p
    if ans.listen = false then (false, t.unlink path) else (true, t)

/-- **`SeqlockMetadataChannel::create_publisher`** by publisher `p`. `shm_open` fails also where there is an
object; a channel that fails is deleted, which unlinks its name. -/
def createPublisher (t : EndpointTable) (serviceName : List UInt8) (p : ℕ) (ans : CreateAnswers) :
    Bool × EndpointTable :=
  let shmName := metadataShmName serviceName
  let t := t.shmUnlink shmName
  if ans.shmOpen = false ∨ t.shms (cStr shmName) ≠ none then (false, t.shmUnlink shmName)
  else
    let t := t.shmOpen shmName p
    if ans.ftruncate = false then (false, (t.shmUnlink shmName).shmUnlink shmName)
    else if ans.mmap = false then (false, (t.shmUnlink shmName).shmUnlink shmName)
    else (true, t)

/-- `~TensorPublisher`, of a publisher that has a server and a metadata channel as told. -/
def destroy (t : EndpointTable) (serviceName : List UInt8) (server metadata : Bool) : EndpointTable :=
  let t := if server = true then t.unlink (sidecarSocketPath serviceName) else t
  if metadata = true then t.shmUnlink (metadataShmName serviceName) else t

/-- **`TensorPublisher::create`** by publisher `p`, which is destroyed when it has not got both. -/
def create (t : EndpointTable) (serviceName : List UInt8) (p : ℕ) (ans : CreateAnswers) : Bool × EndpointTable :=
  if ans.poolOk = false then (false, t)
  else
    let (server, t) := t.createServer serviceName p ans
    let (metadata, t) := t.createPublisher serviceName p ans
    if server = false ∨ metadata = false then (false, t.destroy serviceName server metadata) else (true, t)

end EndpointTable

/-- A host with its services. -/
structure Host where
  table : EndpointTable
  /-- What each publisher's slot shows, whether or not a name stands for the slot. -/
  slots : ℕ → Option TensorDescriptor
  /-- The service that each publisher so far was created for, by number. -/
  services : List (List UInt8)
  live : List ℕ

/-- What the publishers and consumers of a host do to its names. -/
inductive HostEv
  | create (serviceName : List UInt8) (ans : CreateAnswers)
  | destroy (p : ℕ)
  /-- `publish` of a descriptor that passes its checks. -/
  | publish (p : ℕ) (desc : TensorDescriptor)

namespace Host

/-- One of these steps. -/
def step (s : Host) : HostEv → Option Host
  | .create serviceName ans =>
      let p := s.services.length
      match s.table.create serviceName p ans with
      | (ok, table) =>
          some
            { table := table
              slots := Function.update s.slots p none
              services := s.services ++ [serviceName]
              live := if ok = true then s.live ++ [p] else s.live }
  | .destroy p =>
      if p ∈ s.live then
        s.services[p]?.map fun serviceName =>
          { s with table := s.table.destroy serviceName true true, live := s.live.filter fun q => q ≠ p }
      else none
  | .publish p desc =>
      if p ∈ s.live then some { s with slots := Function.update s.slots p (some desc) } else none

/-- A host on which there was never a publisher. -/
def start : Host := ⟨⟨fun _ => none, fun _ => none⟩, fun _ => none, [], []⟩

/-- The event is the creation of a publisher for the service, or concerns one. -/
def Concerns (s : Host) (name : List UInt8) : HostEv → Prop
  | .create serviceName _ => serviceName = name
  | .destroy p => s.services[p]? = some name
  | .publish p _ => s.services[p]? = some name

/-- What a consumer of the service finds: whose socket it connects to, whose slot it opens, and what that
shows. -/
def seen (s : Host) (name : List UInt8) : Option ℕ × Option ℕ × Option TensorDescriptor :=
  (s.table.socks (boundPath name), s.table.shms (slotName name), (s.table.shms (slotName name)).bind s.slots)

end Host

/-- **Publishers of any services on one host.** -/
def hostMachine : Machine Host HostEv where
  init s := s = .start
  step := Host.step

/-- The two services have different endpoints. -/
def EndpointsDiffer (a b : List UInt8) : Prop := boundPath a ≠ boundPath b ∧ slotName a ≠ slotName b

/-- **A service leaves another alone**: whatever has happened on the host, creating, destroying or publishing on
the first changes nothing of what a consumer of the second finds, and that is never a publisher of the first. -/
def LeavesAlone (a b : List UInt8) : Prop :=
  ∀ tr s, hostMachine.exec .start tr = some s →
    (∀ e s', s.Concerns a e → s.step e = some s' → s'.seen b = s.seen b) ∧
    ∀ p, (s.table.socks (boundPath b) = some p ∨ s.table.shms (slotName b) = some p) → s.services[p]? ≠ some a

/-- **A service can always be created again**: whatever has happened on the host, when the system grants every
call, the new publisher is there and a consumer finds it. -/
def Recreatable (a : List UInt8) : Prop :=
  ∀ tr s, hostMachine.exec .start tr = some s → ∀ ans : CreateAnswers, ans.poolOk = true → ans.Succeed →
    ∃ s', s.step (.create a ans) = some s' ∧ s.services.length ∈ s'.live ∧
      s'.seen a = (some s.services.length, some s.services.length, none)

/-! ## What a publisher does to the file system -/

/-- An entry is kept, or is the one that has changed. -/
theorem entry_cases {α β : Type*} [DecidableEq α] (entries : α → β) (a : α) (entry : β) (x : α) :
    Function.update entries a entry x = entries x ∨ x = a ∧ Function.update entries a entry x = entry := by
  by_cases hx : x = a
  · subst hx
    exact .inr ⟨rfl, Function.update_self ..⟩
  · exact .inl (Function.update_of_ne hx ..)

namespace EndpointTable

variable {t t' t'' : EndpointTable} {name : List UInt8} {p : ℕ} {ans : CreateAnswers}

/-- **All that publisher `p` of a service changes**: it takes entries away at the service's own paths, and makes
entries where the service binds its socket and opens its slot. -/
structure Change (name : List UInt8) (p : ℕ) (t t' : EndpointTable) : Prop where
  socks : ∀ path, t'.socks path = t.socks path ∨
    ((path = unlinkedPath name ∨ path = boundPath name) ∧ t'.socks path = none) ∨
    (path = boundPath name ∧ t'.socks path = some p)
  shms : ∀ n, t'.shms n = t.shms n ∨ (n = slotName name ∧ (t'.shms n = none ∨ t'.shms n = some p))

namespace Change

/-- Nothing has changed. -/
theorem refl (t : EndpointTable) : Change name p t t := ⟨fun _ => .inl rfl, fun _ => .inl rfl⟩

/-- Changes of one service's names add up. -/
theorem trans (h : Change name p t t') (h' : Change name p t' t'') : Change name p t t'' := by
  constructor
  · intro path
    rcases h'.socks path with heq | hnew
    · rw [heq]
      exact h.socks path
    · exact .inr hnew
  · intro n
    rcases h'.shms n with heq | hnew
    · rw [heq]
      exact h.shms n
    · exact .inr hnew

/-- Unlinking the socket changes this service's names alone. -/
theorem unlink (t : EndpointTable) : Change name p t (t.unlink (sidecarSocketPath name)) := by
  refine ⟨fun path => ?_, fun n => .inl rfl⟩
  obtain hkept | ⟨hpath, hgone⟩ := entry_cases t.socks (unlinkedPath name) none path
  · exact .inl hkept
  · exact .inr (.inl ⟨.inl hpath, hgone⟩)

/-- So does binding it. -/
theorem bind (t : EndpointTable) : Change name p t (t.bind (sidecarSocketPath name) p) := by
  refine ⟨fun path => ?_, fun n => .inl rfl⟩
  obtain hkept | ⟨hpath, hmade⟩ := entry_cases t.socks (boundPath name) (some p) path
  · exact .inl hkept
  · exact .inr (.inr ⟨hpath, hmade⟩)

/-- So does unlinking the slot. -/
theorem shmUnlink (t : EndpointTable) : Change name p t (t.shmUnlink (metadataShmName name)) := by
  refine ⟨fun path => .inl rfl, fun n => ?_⟩
  obtain hkept | ⟨hn, hgone⟩ := entry_cases t.shms (slotName name) none n
  · exact .inl hkept
  · exact .inr ⟨hn, .inl hgone⟩

/-- So does creating it. -/
theorem shmOpen (t : EndpointTable) : Change name p t (t.shmOpen (metadataShmName name) p) := by
  refine ⟨fun path => .inl rfl, fun n => ?_⟩
  obtain hkept | ⟨hn, hmade⟩ := entry_cases t.shms (slotName name) (some p) n
  · exact .inl hkept
  · exact .inr ⟨hn, .inr hmade⟩

end Change

/-- **`create_server`** changes this service's names alone. -/
theorem createServer_change (t : EndpointTable) (name : List UInt8) (p : ℕ) (ans : CreateAnswers) :
    Change name p t (t.createServer name p ans).2 := by
  have hfirst : Change name p t (t.unlink (sidecarSocketPath name)) := .unlink t
  unfold createServer
  dsimp only
  split_ifs
  · exact hfirst.trans (.unlink _)
  · exact hfirst.trans (.unlink _)
  · exact (hfirst.trans (.bind _)).trans (.unlink _)
  · exact hfirst.trans (.bind _)

/-- **`create_publisher`** changes this service's names alone. -/
theorem createPublisher_change (t : EndpointTable) (name : List UInt8) (p : ℕ) (ans : CreateAnswers) :
    Change name p t (t.createPublisher name p ans).2 := by
  have hfirst : Change name p t (t.shmUnlink (metadataShmName name)) := .shmUnlink t
  unfold createPublisher
  dsimp only
  split_ifs
  · exact hfirst.trans (.shmUnlink _)
  · exact ((hfirst.trans (.shmOpen _)).trans (.shmUnlink _)).trans (.shmUnlink _)
  · exact ((hfirst.trans (.shmOpen _)).trans (.shmUnlink _)).trans (.shmUnlink _)
  · exact hfirst.trans (.shmOpen _)

/-- **`destroy`** changes this service's names alone. -/
theorem destroy_change (t : EndpointTable) (name : List UInt8) (p : ℕ) (server metadata : Bool) :
    Change name p t (t.destroy name server metadata) := by
  unfold destroy
  dsimp only
  split_ifs
  · exact (Change.unlink t).trans (.shmUnlink _)
  · exact .shmUnlink t
  · exact .unlink t
  · exact .refl t

/-- **`create`** changes this service's names alone, also when it fails. -/
theorem create_change (t : EndpointTable) (name : List UInt8) (p : ℕ) (ans : CreateAnswers) :
    Change name p t (t.create name p ans).2 := by
  have hserver := t.createServer_change name p ans
  have hboth := hserver.trans ((t.createServer name p ans).2.createPublisher_change name p ans)
  unfold create
  dsimp only
  split_ifs
  · exact .refl t
  · exact hboth.trans (destroy_change ..)
  · exact hboth

/-- What is changed is not another service's, when the endpoints differ. -/
theorem Change.other (h : Change name p t t') {b : List UInt8} (hdiff : EndpointsDiffer name b) :
    t'.socks (boundPath b) = t.socks (boundPath b) ∧ t'.shms (slotName b) = t.shms (slotName b) := by
  constructor
  · rcases h.socks (boundPath b) with heq | ⟨hunlinked | hbound, -⟩ | ⟨hbound, -⟩
    · exact heq
    · exact absurd (boundPath_eq_of_unlinkedPath_eq hunlinked.symm) hdiff.1
    · exact absurd hbound.symm hdiff.1
    · exact absurd hbound.symm hdiff.1
  · rcases h.shms (slotName b) with heq | ⟨hname, -⟩
    · exact heq
    · exact absurd hname.symm hdiff.2

/-- `bind` finds no file where the path is free or is unlinked first. -/
theorem unlink_free (hfree : Fits name ∨ t.socks (boundPath name) = none) :
    (t.unlink (sidecarSocketPath name)).socks (boundPath name) = none := by
  show Function.update t.socks (unlinkedPath name) none (boundPath name) = none
  by_cases heq : boundPath name = unlinkedPath name
  · rw [heq]
    exact Function.update_self ..
  · rw [Function.update_of_ne heq]
    refine hfree.resolve_left fun hfits => heq ?_
    exact ((unlinkedPath_eq_iff name).mpr hfits).symm

/-- `bind` finds the file that is in its way when another path is unlinked. -/
theorem unlink_taken (hfits : ¬ Fits name) :
    (t.unlink (sidecarSocketPath name)).socks (boundPath name) = t.socks (boundPath name) := by
  refine Function.update_of_ne (fun heq => ?_) ..
  exact hfits ((unlinkedPath_eq_iff name).mp heq.symm)

/-- `shm_open` finds no object: the name was unlinked just before. -/
theorem shmUnlink_free (t : EndpointTable) (name : List UInt8) :
    (t.shmUnlink (metadataShmName name)).shms (slotName name) = none :=
  Function.update_self ..

/-- A bound socket is found under its path. -/
theorem bind_self (t : EndpointTable) (name : List UInt8) (p : ℕ) :
    (t.bind (sidecarSocketPath name) p).socks (boundPath name) = some p :=
  Function.update_self ..

/-- A slot that was created is found under its name. -/
theorem shmOpen_self (t : EndpointTable) (name : List UInt8) (p : ℕ) :
    (t.shmOpen (metadataShmName name) p).shms (slotName name) = some p :=
  Function.update_self ..

/-- **Creation with every call granted** succeeds where the path is free or is unlinked first. -/
theorem create_granted (hpool : ans.poolOk = true) (hall : ans.Succeed)
    (hfree : Fits name ∨ t.socks (boundPath name) = none) :
    ∃ t', t.create name p ans = (true, t') ∧ t'.socks (boundPath name) = some p ∧ t'.shms (slotName name) = some p := by
  obtain ⟨hsocket, hbind, hlisten, hopen, htruncate, hmap⟩ := hall
  -- the path was unlinked, or bound to nobody, so the bind succeeds
  have hserver : t.createServer name p ans =
      (true, (t.unlink (sidecarSocketPath name)).bind (sidecarSocketPath name) p) := by
    have hpath : (t.unlink (sidecarSocketPath name)).socks (sunPath (sidecarSocketPath name)) = none :=
      unlink_free hfree
    simp only [createServer, hsocket, hbind, hlisten, hpath]
    rfl
  -- the slot's name is free once it has been unlinked
  have hmeta : ∀ u : EndpointTable, u.createPublisher name p ans =
      (true, (u.shmUnlink (metadataShmName name)).shmOpen (metadataShmName name) p) := by
    intro u
    have hname : (u.shmUnlink (metadataShmName name)).shms (cStr (metadataShmName name)) = none :=
      u.shmUnlink_free name
    simp only [createPublisher, hopen, htruncate, hmap, hname]
    rfl
  refine ⟨(((t.unlink (sidecarSocketPath name)).bind (sidecarSocketPath name) p).shmUnlink
    (metadataShmName name)).shmOpen (metadataShmName name) p, ?_, bind_self .., shmOpen_self ..⟩
  rw [create, hpool, hserver]
  dsimp only
  rw [hmeta]
  rfl

/-- **Creation fails at a path that stays taken**: the name does not fit, so the file in the way is not the one
that is unlinked. -/
theorem create_taken (hfits : ¬ Fits name) (htaken : t.socks (boundPath name) ≠ none) :
    (t.create name p ans).1 = false := by
  -- the unlinked path is another one, so the bound path stays taken
  have hpath : (t.unlink (sidecarSocketPath name)).socks (sunPath (sidecarSocketPath name)) ≠ none := by
    show (t.unlink (sidecarSocketPath name)).socks (boundPath name) ≠ none
    rwa [unlink_taken hfits]
  have hserver : (t.createServer name p ans).1 = false := by
    unfold createServer
    dsimp only
    split_ifs with hsocket hbind hlisten
    · rfl
    · rfl
    · rfl
    · exact absurd hpath fun hne => hbind (.inr hne)
  unfold create
  split_ifs
  · rfl
  · dsimp only
    rw [if_pos (.inl hserver)]

/-! ## One service -/

/-- The names of one service. -/
def namesOf (t : EndpointTable) (name : List UInt8) : ServiceNames := ⟨t.socks (boundPath name), t.shms (slotName name)⟩

/-- Unlinking the socket, as the service's own names see it. -/
theorem namesOf_unlink (t : EndpointTable) (hfits : Fits name) :
    (t.unlink (sidecarSocketPath name)).namesOf name = (t.namesOf name).unlinkSock := by
  rw [namesOf, unlink_free (.inl hfits)]
  rfl

/-- Unlinking the slot, as the service's own names see it. -/
theorem namesOf_shmUnlink (t : EndpointTable) (name : List UInt8) :
    (t.shmUnlink (metadataShmName name)).namesOf name = (t.namesOf name).unlinkShm := by
  rw [namesOf, shmUnlink_free]
  rfl

/-- Binding the socket, as the service's own names see it. -/
theorem namesOf_bind (t : EndpointTable) (name : List UInt8) (p : ℕ) :
    (t.bind (sidecarSocketPath name) p).namesOf name = { t.namesOf name with sock := some p } := by
  rw [namesOf, bind_self]
  rfl

/-- Creating the slot, as the service's own names see it. -/
theorem namesOf_shmOpen (t : EndpointTable) (name : List UInt8) (p : ℕ) :
    (t.shmOpen (metadataShmName name) p).namesOf name = { t.namesOf name with shm := some p } := by
  rw [namesOf, shmOpen_self]
  rfl

/-- **`create_server`** does to the table what it does to the names of one service. -/
theorem namesOf_createServer (t : EndpointTable) (hfits : Fits name) (p : ℕ) (ans : CreateAnswers) :
    (t.createServer name p ans).1 = ((t.namesOf name).createServer p ans).1 ∧
      (t.createServer name p ans).2.namesOf name = ((t.namesOf name).createServer p ans).2 := by
  have hpath : (t.unlink (sidecarSocketPath name)).socks (sunPath (sidecarSocketPath name)) = none :=
    unlink_free (.inl hfits)
  unfold createServer ServiceNames.createServer
  simp only [hpath, ne_eq, not_true_eq_false, or_false]
  split_ifs
  · exact ⟨rfl, by rw [namesOf_unlink _ hfits, namesOf_unlink _ hfits]⟩
  · exact ⟨rfl, by rw [namesOf_unlink _ hfits, namesOf_unlink _ hfits]⟩
  · exact ⟨rfl, by rw [namesOf_unlink _ hfits, namesOf_bind, namesOf_unlink _ hfits]⟩
  · exact ⟨rfl, by rw [namesOf_bind, namesOf_unlink _ hfits]⟩

/-- **`create_publisher`** does to the table what it does to the names of one service. -/
theorem namesOf_createPublisher (t : EndpointTable) (name : List UInt8) (p : ℕ) (ans : CreateAnswers) :
    (t.createPublisher name p ans).1 = ((t.namesOf name).createPublisher p ans).1 ∧
      (t.createPublisher name p ans).2.namesOf name = ((t.namesOf name).createPublisher p ans).2 := by
  have hname : (t.shmUnlink (metadataShmName name)).shms (cStr (metadataShmName name)) = none :=
    t.shmUnlink_free name
  unfold createPublisher ServiceNames.createPublisher
  simp only [hname, ne_eq, not_true_eq_false, or_false]
  split_ifs
  · exact ⟨rfl, by rw [namesOf_shmUnlink, namesOf_shmUnlink]⟩
  · exact ⟨rfl, by rw [namesOf_shmUnlink, namesOf_shmUnlink, namesOf_shmOpen, namesOf_shmUnlink]⟩
  · exact ⟨rfl, by rw [namesOf_shmUnlink, namesOf_shmUnlink, namesOf_shmOpen, namesOf_shmUnlink]⟩
  · exact ⟨rfl, by rw [namesOf_shmOpen, namesOf_shmUnlink]⟩

/-- **`destroy`** does to the table what it does to the names of one service. -/
theorem namesOf_destroy (t : EndpointTable) (hfits : Fits name) (server metadata : Bool) :
    (t.destroy name server metadata).namesOf name = (t.namesOf name).destroy server metadata := by
  unfold destroy ServiceNames.destroy
  split_ifs
  · dsimp only
    rw [namesOf_shmUnlink, namesOf_unlink _ hfits]
  · exact namesOf_unlink t hfits
  · exact namesOf_shmUnlink t name
  · rfl

/-- **A service whose name fits** finds in the file system what `ServiceNames` says of the names of one service. -/
theorem namesOf_create (t : EndpointTable) (hfits : Fits name) (p : ℕ) (ans : CreateAnswers) :
    (t.create name p ans).1 = ((t.namesOf name).create p ans).1 ∧
      (t.create name p ans).2.namesOf name = ((t.namesOf name).create p ans).2 := by
  obtain ⟨hok, hserver⟩ := t.namesOf_createServer hfits p ans
  obtain ⟨hok', hmeta⟩ := (t.createServer name p ans).2.namesOf_createPublisher name p ans
  rw [hserver] at hok' hmeta
  unfold create ServiceNames.create
  dsimp only
  rw [← hok, ← hok']
  split_ifs
  · exact ⟨rfl, rfl⟩
  · exact ⟨rfl, by rw [namesOf_destroy _ hfits, hmeta]⟩
  · exact ⟨rfl, hmeta⟩

end EndpointTable

/-! ## The host -/

namespace Host

variable {s s' : Host} {a b : List UInt8} {e : HostEv}

/-- **Every entry is its publisher's own**: it is an endpoint of the service that publisher was created for. -/
structure Owned (s : Host) : Prop where
  socks : ∀ path p, s.table.socks path = some p → ∃ name, s.services[p]? = some name ∧ path = boundPath name
  shms : ∀ n p, s.table.shms n = some p → ∃ name, s.services[p]? = some name ∧ n = slotName name

/-- On an idle host there is nothing to own. -/
theorem owned_start : start.Owned := ⟨nofun, nofun⟩

/-- What a publisher changes of the file system is its own. -/
theorem Owned.change {p : ℕ} (h : s.Owned) (hchange : EndpointTable.Change a p s.table s'.table)
    (hold : ∀ (q : ℕ) name, s.services[q]? = some name → s'.services[q]? = some name)
    (hp : s'.services[p]? = some a) : s'.Owned := by
  constructor
  · intro path q hq
    -- an entry is an old one, or none, or the new one of `p`
    rcases hchange.socks path with heq | ⟨-, hnone⟩ | ⟨hpath, hnew⟩
    · obtain ⟨name, hname, hpath⟩ := h.socks path q (heq.symm.trans hq)
      exact ⟨name, hold q name hname, hpath⟩
    · cases hnone.symm.trans hq
    · obtain rfl := Option.some.inj (hnew.symm.trans hq)
      exact ⟨a, hp, hpath⟩
  · intro n q hq
    rcases hchange.shms n with heq | ⟨hn, hnone | hnew⟩
    · obtain ⟨name, hname, hn⟩ := h.shms n q (heq.symm.trans hq)
      exact ⟨name, hold q name hname, hn⟩
    · cases hnone.symm.trans hq
    · obtain rfl := Option.some.inj (hnew.symm.trans hq)
      exact ⟨a, hp, hn⟩

/-- **A step leaves every name with the service that made it.** -/
theorem Owned.step (h : s.Owned) (hs : s.step e = some s') : s'.Owned := by
  cases e with
  | create serviceName ans =>
      -- the new publisher gets the next number, and its names with it
      have hchange := s.table.create_change serviceName s.services.length ans
      dsimp only [Host.step] at hs
      generalize s.table.create serviceName s.services.length ans = r at hs hchange
      cases hs
      refine h.change hchange (fun q name hq => getElem?_snoc_of_some hq _) ?_
      exact List.getElem?_concat_length
  | destroy p =>
      rw [Host.step] at hs
      split_ifs at hs
      obtain ⟨serviceName, hservice, rfl⟩ := Option.map_eq_some_iff.mp hs
      exact h.change (EndpointTable.destroy_change _ serviceName p true true) (fun q name => id) hservice
  -- a publish leaves the table alone
  | publish p desc =>
      rw [Host.step] at hs
      split_ifs at hs
      cases hs
      exact ⟨h.socks, h.shms⟩

/-- **In every run** each name belongs to the service that made it last. -/
theorem owned_of_exec {tr : List HostEv} (hexec : hostMachine.exec .start tr = some s) : s.Owned :=
  Machine.exec_invariant hexec owned_start fun _ _ _ _ h hs _ => Owned.step h hs

/-- An endpoint that differs from the service's stands for none of its publishers. -/
theorem Owned.not_served (h : s.Owned) (hdiff : EndpointsDiffer a b) (p : ℕ)
    (hp : s.table.socks (boundPath b) = some p ∨ s.table.shms (slotName b) = some p) : s.services[p]? ≠ some a := by
  intro hname
  rcases hp with hp | hp
  · obtain ⟨name, hname', hpath⟩ := h.socks _ _ hp
    obtain rfl := Option.some.inj (hname.symm.trans hname')
    exact hdiff.1 hpath.symm
  · obtain ⟨name, hname', hn⟩ := h.shms _ _ hp
    obtain rfl := Option.some.inj (hname.symm.trans hname')
    exact hdiff.2 hn.symm

/-- What another slot shows does not change with the slot of a publisher of the service. -/
theorem Owned.seen_eq (h : s.Owned) {p : ℕ} {shows : Option TensorDescriptor} (hdiff : EndpointsDiffer a b)
    (hp : ∀ name, s.services[p]? = some name → name = a)
    (hsocks : s'.table.socks (boundPath b) = s.table.socks (boundPath b))
    (hshms : s'.table.shms (slotName b) = s.table.shms (slotName b))
    (hslots : s'.slots = Function.update s.slots p shows) : s'.seen b = s.seen b := by
  unfold seen
  rw [hsocks, hshms, hslots]
  cases hslot : s.table.shms (slotName b) with
  | none => rfl
  | some q =>
      have hne : q ≠ p := by
        rintro rfl
        obtain ⟨name, hname, hn⟩ := h.shms _ _ hslot
        rw [hp name hname] at hn
        exact hdiff.2 hn.symm
      rw [Option.bind_some, Option.bind_some, Function.update_of_ne hne]

/-- **An event of one service** changes nothing that a consumer of another finds, when their endpoints differ. -/
theorem Owned.frame (h : s.Owned) (hdiff : EndpointsDiffer a b) (he : s.Concerns a e) (hs : s.step e = some s') :
    s'.seen b = s.seen b := by
  cases e with
  | create serviceName ans =>
      obtain rfl : serviceName = a := he
      have hother := (s.table.create_change serviceName s.services.length ans).other hdiff
      dsimp only [Host.step] at hs
      generalize s.table.create serviceName s.services.length ans = r at hs hother
      cases hs
      -- the new publisher's number is new
      refine h.seen_eq hdiff (fun name hname => ?_) hother.1 hother.2 rfl
      exact absurd (List.getElem?_eq_some_iff.mp hname).1 (Nat.lt_irrefl _)
  | destroy p =>
      rw [Host.step] at hs
      split_ifs at hs
      obtain ⟨serviceName, hservice, rfl⟩ := Option.map_eq_some_iff.mp hs
      obtain rfl := Option.some.inj (hservice.symm.trans he)
      obtain ⟨hsocks, hshms⟩ := (EndpointTable.destroy_change s.table serviceName p true true).other hdiff
      unfold seen
      rw [hsocks, hshms]
  | publish p desc =>
      rw [Host.step] at hs
      split_ifs at hs
      cases hs
      refine h.seen_eq hdiff (fun name hname => ?_) rfl rfl rfl
      exact Option.some.inj (hname.symm.trans he)

/-- A creation with every call granted, on any host on which it succeeds. -/
theorem step_create_granted {ans : CreateAnswers} (hpool : ans.poolOk = true) (hall : ans.Succeed)
    (hfree : Fits a ∨ s.table.socks (boundPath a) = none) :
    ∃ s', s.step (.create a ans) = some s' ∧ s'.services = s.services ++ [a] ∧
      s'.live = s.live ++ [s.services.length] ∧
      s'.seen a = (some s.services.length, some s.services.length, none) := by
  obtain ⟨t, hcreate, hsock, hslot⟩ :=
    EndpointTable.create_granted (p := s.services.length) hpool hall hfree
  refine ⟨_, by rw [Host.step, hcreate], rfl, rfl, ?_⟩
  unfold seen
  dsimp only
  rw [hsock, hslot, Option.bind_some, Function.update_self]

/-- The first creation on a host succeeds when every call is granted, whatever the name. -/
theorem exec_first (a : List UInt8) : ∃ s, hostMachine.exec .start [.create a .obliging] = some s ∧
    s.services = [a] ∧ s.live = [0] ∧ s.seen a = (some 0, some 0, none) := by
  obtain ⟨s, hs, hservices, hlive, hseen⟩ :=
    step_create_granted (s := start) (a := a) (show CreateAnswers.obliging.poolOk = true from rfl) (by decide)
      (.inr rfl)
  exact ⟨s, by rw [Machine.exec_cons]; exact Option.bind_eq_some_iff.mpr ⟨s, hs, rfl⟩, hservices, hlive, hseen⟩

end Host

/-- Endpoints differ exactly when the names can be told apart. -/
theorem endpointsDiffer_iff (a b : List UInt8) : EndpointsDiffer a b ↔ Distinguishable a b := by
  rw [EndpointsDiffer, Distinguishable, ne_eq, ne_eq, boundPath_eq_iff, slotName_eq_iff]

/-- Services leave each other alone exactly when their endpoints differ. -/
theorem leavesAlone_iff (a b : List UInt8) : LeavesAlone a b ↔ EndpointsDiffer a b := by
  constructor
  · intro halone
    -- the first publisher of one service would be found by a consumer of the other
    obtain ⟨s, hexec, hservices, -, hseen⟩ := Host.exec_first a
    obtain ⟨-, hserved⟩ := halone _ s hexec
    have hname : s.services[0]? = some a := by rw [hservices]; rfl
    constructor
    · intro heq
      refine hserved 0 (.inl ?_) hname
      rw [← heq]
      exact congrArg Prod.fst hseen
    · intro heq
      refine hserved 0 (.inr ?_) hname
      rw [← heq]
      exact congrArg (·.2.1) hseen
  · intro hdiff tr s hexec
    have howned := Host.owned_of_exec hexec
    exact ⟨fun e s' he hs => howned.frame hdiff he hs, howned.not_served hdiff⟩

/-- A service can always be created again exactly when its name fits. -/
theorem recreatable_iff (a : List UInt8) : Recreatable a ↔ Fits a := by
  constructor
  · intro hall
    by_contra hfits
    obtain ⟨s, hexec, hservices, hlive, hseen⟩ := Host.exec_first a
    have hmem : 0 ∈ s.live := by
      rw [hlive]
      exact List.mem_singleton_self 0
    have hname : s.services[0]? = some a := by rw [hservices]; rfl
    have hdestroy : hostMachine.step s (.destroy 0) = some
        { s with table := s.table.destroy a true true, live := s.live.filter fun q => q ≠ 0 } := by
      show s.step (.destroy 0) = _
      rw [Host.step, if_pos hmem, hname, Option.map_some]
    have hexec' := hostMachine.exec_append .start [.create a .obliging] [.destroy 0]
    rw [hexec, Option.bind_some, Machine.exec_cons, hdestroy] at hexec'
    obtain ⟨s', hs', hnew, -⟩ := hall _ _ hexec' .obliging rfl (by decide)
    -- the publisher destroyed has left its socket where the next one binds
    have hleft : (s.table.destroy a true true).socks (boundPath a) = some 0 :=
      (EndpointTable.unlink_taken hfits).trans (congrArg Prod.fst hseen)
    have hfails : ((s.table.destroy a true true).create a s.services.length .obliging).1 = false :=
      EndpointTable.create_taken hfits (by rw [hleft]; exact nofun)
    dsimp only [Host.step] at hs'
    generalize (s.table.destroy a true true).create a s.services.length .obliging = r at hs' hfails
    obtain ⟨ok, t⟩ := r
    cases hfails
    cases hs'
    rw [hlive] at hnew
    cases hnew
  · intro hfits tr s _ ans hpool hgranted
    obtain ⟨s', hs', -, hlive, hseen⟩ := Host.step_create_granted (s := s) hpool hgranted (.inl hfits)
    refine ⟨s', hs', ?_, hseen⟩
    rw [hlive]
    exact List.mem_append_right _ (List.mem_singleton_self _)

/-- **Which services share no endpoint, and which paths are unlinked as they were bound.** Two services have
different endpoints, and leave each other alone in every run on one host, exactly when their names can be told
apart; the server unlinks the path it has bound, and the service can be created again in every run, exactly when
the name fits. -/
theorem services_apart_iff (a b : List UInt8) :
    (EndpointsDiffer a b ↔ Distinguishable a b) ∧ (LeavesAlone a b ↔ Distinguishable a b) ∧
      (unlinkedPath a = boundPath a ↔ Fits a) ∧ (Recreatable a ↔ Fits a) :=
  ⟨endpointsDiffer_iff a b, (leavesAlone_iff a b).trans (endpointsDiffer_iff a b), unlinkedPath_eq_iff a,
    recreatable_iff a⟩

/-- A topic and a nested topic. -/
def nestedTopic : List UInt8 := ascii ['c', 'a', 'm', '/', 'l']

/-- `cam_l`, the name of a flat topic. -/
def flatTopic : List UInt8 := ascii ['c', 'a', 'm', '_', 'l']

/-- A name one byte too long. -/
def longTopic : List UInt8 := ascii (List.replicate 93 'a')

/-- **Two services on one endpoint**: a publisher of `cam_l` takes the socket and the slot of `cam/l`, whose
publisher is alive, and its consumers find the other from then on. And a service with a name of 93 bytes leaves
its socket behind, so that it cannot be created a second time. -/
theorem services_collide : nestedTopic ≠ flatTopic ∧
    (∃ s, hostMachine.exec .start [.create nestedTopic .obliging, .create flatTopic .obliging] = some s ∧
      s.live = [0, 1] ∧ s.seen nestedTopic = (some 1, some 1, none) ∧ s.services[1]? = some flatTopic) ∧
    ¬ EndpointsDiffer nestedTopic flatTopic ∧ ¬ LeavesAlone nestedTopic flatTopic ∧
    (∃ s, hostMachine.exec .start
        [.create longTopic .obliging, .destroy 0, .create longTopic .obliging] = some s ∧
      s.services.length = 2 ∧ s.live = []) ∧
    unlinkedPath longTopic ≠ boundPath longTopic ∧ ¬ Recreatable longTopic := by
  have hsame : ¬ EndpointsDiffer nestedTopic flatTopic := by
    rw [endpointsDiffer_iff]
    decide
  refine ⟨by decide, ⟨_, rfl, rfl, ?_, rfl⟩, hsame, fun halone => hsame ((leavesAlone_iff _ _).mp halone),
    ⟨_, rfl, rfl, ?_⟩, by decide, fun hagain => absurd ((recreatable_iff _).mp hagain) (by decide)⟩
  · decide
  · decide

end Axon
