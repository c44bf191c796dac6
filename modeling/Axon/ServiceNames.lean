import Axon.Foundation.Machine

/-! # The names of a service

The publishers on one service name share two names in the file system: the path of the sidecar's socket and
the name of the metadata slot. Creation unlinks both and makes them anew, and destruction unlinks both,
whoever they belong to by then.

* **`create_spec`** is what an attempt to create a publisher does to the names.
* **`newest_resolves_iff`**: the names stand for the newest publisher, as long as it lives, exactly when no
  other publisher is destroyed meanwhile and no attempt to create one fails. -/

namespace Axon

open Foundation

/-- Whose socket and whose slot the two names of a service stand for. -/
structure ServiceNames where
  sock : Option ℕ
  shm : Option ℕ
  deriving DecidableEq

/-- What the system answers in the course of one `TensorPublisher::create`. -/
structure CreateAnswers where
  /-- The checks at its head pass: the pool's buffers have a size, and its import parameters fit. -/
  poolOk : Bool
  socket : Bool
  bind : Bool
  listen : Bool
  shmOpen : Bool
  ftruncate : Bool
  mmap : Bool
  deriving DecidableEq

namespace ServiceNames

/-- The socket's path is unlinked. -/
def unlinkSock (n : ServiceNames) : ServiceNames := { n with sock := none }

/-- The slot's name is unlinked. -/
def unlinkShm (n : ServiceNames) : ServiceNames := { n with shm := none }

/-- **`SidecarServer::create`** by publisher `p`. A server that fails is deleted, which unlinks the path
again. -/
def createServer (n : ServiceNames) (p : ℕ) (ans : CreateAnswers) : Bool × ServiceNames :=
  let n := n.unlinkSock
  if ans.socket = false then (false, n.unlinkSock)
  else if ans.bind = false then (false, n.unlinkSock)
  else
    let n := { n with sock := some p }
    if ans.listen = false then (false, n.unlinkSock) else (true, n)

/-- **`SeqlockMetadataChannel::create_publisher`** by publisher `p`. A channel that fails is deleted, which
unlinks the name again. -/
def createPublisher (n : ServiceNames) (p : ℕ) (ans : CreateAnswers) : Bool × ServiceNames :=
  let n := n.unlinkShm
  if ans.shmOpen = false then (false, n.unlinkShm)
  else
    let n := { n with shm := some p }
    if ans.ftruncate = false then (false, n.unlinkShm.unlinkShm)
    else if ans.mmap = false then (false, n.unlinkShm.unlinkShm)
    else (true, n)

/-- `~TensorPublisher`, of a publisher that has a server and a metadata channel as told. -/
def destroy (n : ServiceNames) (server metadata : Bool) : ServiceNames :=
  let n := if server = true then n.unlinkSock else n
  if metadata = true then n.unlinkShm else n

/-- **`TensorPublisher::create`** by publisher `p`, which is destroyed when it has not got both. -/
def create (n : ServiceNames) (p : ℕ) (ans : CreateAnswers) : Bool × ServiceNames :=
  if ans.poolOk = false then (false, n)
  else
    let (server, n) := n.createServer p ans
    let (metadata, n) := n.createPublisher p ans
    if server = false ∨ metadata = false then (false, n.destroy server metadata) else (true, n)

end ServiceNames

/-- Every system call of `TensorPublisher::create` succeeds. -/
def CreateAnswers.Succeed (ans : CreateAnswers) : Prop :=
  ans.socket = true ∧ ans.bind = true ∧ ans.listen = true ∧ ans.shmOpen = true ∧ ans.ftruncate = true ∧
    ans.mmap = true

/-- Whether a creation succeeds can be read off the answers. -/
instance (ans : CreateAnswers) : Decidable ans.Succeed := inferInstanceAs (Decidable (_ ∧ _))

namespace ServiceNames

/-- The server's part leaves the slot's name alone. -/
theorem createServer_spec (n : ServiceNames) (p : ℕ) (ans : CreateAnswers) :
    (n.createServer p ans).2.shm = n.shm ∧
      (((n.createServer p ans).1 = true ∧ ans.socket = true ∧ ans.bind = true ∧ ans.listen = true ∧
        (n.createServer p ans).2.sock = some p) ∨
      ((n.createServer p ans).1 = false ∧ ¬ (ans.socket = true ∧ ans.bind = true ∧ ans.listen = true) ∧
        (n.createServer p ans).2.sock = none)) := by
  unfold createServer
  dsimp only
  split_ifs with hsocket hbind hlisten
  · exact ⟨rfl, .inr ⟨rfl, fun h => absurd h.1 (Bool.eq_false_iff.mp hsocket), rfl⟩⟩
  · exact ⟨rfl, .inr ⟨rfl, fun h => absurd h.2.1 (Bool.eq_false_iff.mp hbind), rfl⟩⟩
  · exact ⟨rfl, .inr ⟨rfl, fun h => absurd h.2.2 (Bool.eq_false_iff.mp hlisten), rfl⟩⟩
  · exact ⟨rfl, .inl ⟨rfl, Bool.of_not_eq_false hsocket, Bool.of_not_eq_false hbind,
      Bool.of_not_eq_false hlisten, rfl⟩⟩

/-- The channel's part leaves the socket's path alone. -/
theorem createPublisher_spec (n : ServiceNames) (p : ℕ) (ans : CreateAnswers) :
    (n.createPublisher p ans).2.sock = n.sock ∧
      (((n.createPublisher p ans).1 = true ∧ ans.shmOpen = true ∧ ans.ftruncate = true ∧ ans.mmap = true ∧
        (n.createPublisher p ans).2.shm = some p) ∨
      ((n.createPublisher p ans).1 = false ∧
        ¬ (ans.shmOpen = true ∧ ans.ftruncate = true ∧ ans.mmap = true) ∧
        (n.createPublisher p ans).2.shm = none)) := by
  unfold createPublisher
  dsimp only
  split_ifs with hopen htruncate hmap
  · exact ⟨rfl, .inr ⟨rfl, fun h => absurd h.1 (Bool.eq_false_iff.mp hopen), rfl⟩⟩
  · exact ⟨rfl, .inr ⟨rfl, fun h => absurd h.2.1 (Bool.eq_false_iff.mp htruncate), rfl⟩⟩
  · exact ⟨rfl, .inr ⟨rfl, fun h => absurd h.2.2 (Bool.eq_false_iff.mp hmap), rfl⟩⟩
  · exact ⟨rfl, .inl ⟨rfl, Bool.of_not_eq_false hopen, Bool.of_not_eq_false htruncate,
      Bool.of_not_eq_false hmap, rfl⟩⟩

/-- **The three ways an attempt to create a publisher goes**: it is refused at once, it leaves both names
to the new publisher, or it leaves neither to anyone. -/
inductive CreateCase (n : ServiceNames) (p : ℕ) (ans : CreateAnswers) : Bool × ServiceNames → Prop
  | refused (h : ans.poolOk = false) : CreateCase n p ans (false, n)
  | created (h : ans.poolOk = true) (hall : ans.Succeed) : CreateCase n p ans (true, ⟨some p, some p⟩)
  | failed (h : ans.poolOk = true) (hfail : ¬ ans.Succeed) : CreateCase n p ans (false, ⟨none, none⟩)

/-- **The ways through `create`.** -/
theorem create_cases (n : ServiceNames) (p : ℕ) (ans : CreateAnswers) :
    CreateCase n p ans (n.create p ans) := by
  obtain ⟨-, hserver⟩ := n.createServer_spec p ans
  obtain ⟨hkept, hmeta⟩ := (n.createServer p ans).2.createPublisher_spec p ans
  unfold create
  by_cases hpool : ans.poolOk = false
  · rw [if_pos hpool]
    exact .refused hpool
  rw [if_neg hpool]
  have hpool := Bool.of_not_eq_false hpool
  generalize n.createServer p ans = server at hserver hkept hmeta ⊢
  obtain ⟨ok₁, n₁⟩ := server
  dsimp only at hserver hkept hmeta ⊢
  generalize n₁.createPublisher p ans = metadata at hkept hmeta ⊢
  obtain ⟨ok₂, sock₂, shm₂⟩ := metadata
  dsimp only at hkept hmeta ⊢
  -- the socket first, then the slot; either failure takes both names away
  obtain ⟨rfl, hsocket, hbind, hlisten, hsock⟩ | ⟨rfl, hfail, hsock⟩ := hserver
  · obtain ⟨rfl, hopen, htruncate, hmap, rfl⟩ | ⟨rfl, hfail, rfl⟩ := hmeta
    · rw [hsock] at hkept
      subst hkept
      exact .created hpool ⟨hsocket, hbind, hlisten, hopen, htruncate, hmap⟩
    · exact .failed hpool fun hall => hfail ⟨hall.2.2.2.1, hall.2.2.2.2.1, hall.2.2.2.2.2⟩
  · rw [hsock] at hkept
    subst hkept
    have hfail : ¬ ans.Succeed := fun hall => hfail ⟨hall.1, hall.2.1, hall.2.2.1⟩
    obtain ⟨rfl, -, -, -, rfl⟩ | ⟨rfl, -, rfl⟩ := hmeta
    · exact .failed hpool hfail
    · exact .failed hpool hfail

end ServiceNames

/-! ## The publishers on a service name -/

/-- A service name with its publishers. -/
structure ServiceName where
  names : ServiceNames
  live : List ℕ
  /-- The publisher created last. -/
  newest : Option ℕ
  next : ℕ
  deriving DecidableEq

/-- The publishers that come and go under one name. -/
inductive ServiceNameEv
  | create (ans : CreateAnswers)
  | destroy (p : ℕ)
  deriving DecidableEq

namespace ServiceName

/-- One event. -/
def step (s : ServiceName) : ServiceNameEv → Option ServiceName
  | .create ans =>
      match s.names.create s.next ans with
      | (true, names) =>
          some { names := names, live := s.live ++ [s.next], newest := some s.next, next := s.next + 1 }
      | (false, names) => some { s with names := names, next := s.next + 1 }
  | .destroy p =>
      if p ∈ s.live then
        some { s with names := s.names.destroy true true, live := s.live.filter fun q => q ≠ p }
      else none

/-- The publisher created last is alive. -/
def NewestLives (s : ServiceName) : Prop := ∃ p, s.newest = some p ∧ p ∈ s.live

/-- Whether the newest publisher lives can be read off the state. -/
instance (s : ServiceName) : Decidable s.NewestLives :=
  decidable_of_iff (∃ p ∈ s.newest, p ∈ s.live) Iff.rfl

/-- **A service name belongs to its newest live publisher**: as long as the publisher created last is alive,
both names stand for it. -/
def NewestResolves (s : ServiceName) : Prop :=
  ∀ p, s.newest = some p → p ∈ s.live → s.names = ⟨some p, some p⟩

/-- The names are left to the newest publisher while it is alive: no other is destroyed, and no attempt to
create another fails after it has touched the names. -/
def LeavesNewest (s : ServiceName) : ServiceNameEv → Prop
  | .create ans => s.NewestLives → ans.poolOk = false ∨ ans.Succeed
  | .destroy q => s.NewestLives → s.newest = some q

/-- Whether a step leaves the newest publisher can be read off the state. -/
instance (s : ServiceName) : (e : ServiceNameEv) → Decidable (s.LeavesNewest e)
  | .create ans => inferInstanceAs (Decidable (s.NewestLives → ans.poolOk = false ∨ ans.Succeed))
  | .destroy q => inferInstanceAs (Decidable (s.NewestLives → s.newest = some q))

end ServiceName

/-- **The publishers that come and go on one service name.** -/
def serviceNameMachine : Machine ServiceName ServiceNameEv where
  init s := s = ⟨⟨none, none⟩, [], none, 0⟩
  step := ServiceName.step

namespace ServiceName

variable {s s' : ServiceName}

/-- **Exactly the events that leave the names to the newest publisher keep them its own.** -/
theorem resolves_of_step {e : ServiceNameEv} (h : s.NewestResolves) (hs : s.step e = some s') :
    s'.NewestResolves ↔ s.LeavesNewest e := by
  cases e with
  | create ans =>
      have hcase := s.names.create_cases s.next ans
      dsimp only [step] at hs
      generalize s.names.create s.next ans = r at hcase hs
      cases hcase with
      | refused hpool =>
          cases hs
          exact iff_of_true h fun _ => .inl hpool
      | created hpool hall =>
          cases hs
          refine iff_of_true ?_ fun _ => .inr hall
          rintro p ⟨⟩ -
          rfl
      | failed hpool hfail =>
          cases hs
          constructor
          · rintro hresolves ⟨p, hnewest, hlive⟩
            cases hresolves p hnewest hlive
          · intro hleaves p hnewest hlive
            obtain hrefused | hall := hleaves ⟨p, hnewest, hlive⟩
            · cases hpool.symm.trans hrefused
            · exact absurd hall hfail
  | destroy q =>
      dsimp only [step] at hs
      split_ifs at hs with hq
      cases hs
      constructor
      · -- destroying unlinks the names, whoever has them
        rintro hresolves ⟨p, hnewest, hlive⟩
        by_contra hne
        have hpq : p ≠ q := fun hpq => hne (hpq ▸ hnewest)
        cases hresolves p hnewest (List.mem_filter.mpr ⟨hlive, decide_eq_true hpq⟩)
      · intro hleaves p hnewest hlive
        obtain ⟨hmem, hpq⟩ := List.mem_filter.mp hlive
        obtain rfl := Option.some.inj (hnewest.symm.trans (hleaves ⟨p, hnewest, hmem⟩))
        exact absurd rfl (of_decide_eq_true hpq)

end ServiceName

/-- **When a service name belongs to its newest live publisher**: all along a sequence of creations and
destructions the names stand for the newest publisher while it is alive, exactly when meanwhile no other
publisher is destroyed and no attempt to create one fails once it has touched the names. -/
theorem newest_resolves_iff {s₀ s : ServiceName} {tr : List ServiceNameEv} (h₀ : serviceNameMachine.init s₀)
    (hexec : serviceNameMachine.exec s₀ tr = some s) :
    serviceNameMachine.Meets (fun s e => ∀ s', s.step e = some s' → s'.NewestResolves) s₀ tr ↔
      serviceNameMachine.Meets ServiceName.LeavesNewest s₀ tr := by
  refine Machine.meets_keeps_iff hexec (P := ServiceName.NewestResolves) ?_
    fun s e s' h hs => ServiceName.resolves_of_step h hs
  rw [h₀]
  exact nofun

/-- Everything goes well. -/
def CreateAnswers.obliging : CreateAnswers := ⟨true, true, true, true, true, true, true⟩

/-- A publisher variable that is assigned a new publisher: the new one is created before the old one is
destroyed, and it is left without its names. -/
theorem reassigned_loses_names : ∃ s, serviceNameMachine.Run
    [.create .obliging, .create .obliging, .destroy 0] s ∧
    s.newest = some 1 ∧ 1 ∈ s.live ∧ s.names = ⟨none, none⟩ := by
  obtain ⟨s, hs⟩ : ∃ s, serviceNameMachine.exec ⟨⟨none, none⟩, [], none, 0⟩
      [.create .obliging, .create .obliging, .destroy 0] = some s := ⟨_, rfl⟩
  refine ⟨s, .of_exec rfl hs, ?_⟩
  cases hs
  decide

/-- The old publisher is destroyed before the new one is created. -/
theorem newest_resolves_iff_restart : ∃ s₀ s, serviceNameMachine.exec s₀
    [.create .obliging, .destroy 0, .create .obliging] = some s ∧ s.newest = some 1 ∧
    serviceNameMachine.Meets (fun s e => ∀ s', s.step e = some s' → s'.NewestResolves) s₀
      [.create .obliging, .destroy 0, .create .obliging] := by
  obtain ⟨s, hs⟩ : ∃ s, serviceNameMachine.exec ⟨⟨none, none⟩, [], none, 0⟩
      [.create .obliging, .destroy 0, .create .obliging] = some s := ⟨_, rfl⟩
  refine ⟨_, s, hs, ?_, (newest_resolves_iff rfl hs).mpr (by decide)⟩
  cases hs
  rfl

end Axon
