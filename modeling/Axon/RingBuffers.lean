import Axon.Ring

/-! # The buffers of a ring

As long as the pool is not reallocated, its buffers are files of their own, the owner's host views map them
in order, and every bundle that is sent names them in order. `Publication.FixedPool` is the invariant, and
`Producer.SameRing` says which steps leave the ring of buffers where it stands. -/

namespace Axon

open Foundation

/-! ## Files -/

/-- **Writing to one buffer leaves the others alone.** -/
theorem bufferOf_update {files : List File} (hnodup : files.Nodup) {j : ℕ} {f : File}
    (hf : files[j]? = some f) (mem : File → ℕ → UInt8) (c : ℕ → UInt8) :
    bufferOf files (Function.update mem f c) = Function.update (bufferOf files mem) j c := by
  funext i
  by_cases hij : i = j
  · subst hij
    rw [Function.update_self, bufferOf, hf]
    show Function.update mem f c f = c
    rw [Function.update_self]
  · rw [Function.update_of_ne hij, bufferOf, bufferOf]
    cases hi : files[i]? with
    | none => rfl
    | some g =>
        -- the same file in two places would make the places the same
        have hne : g ≠ f := by
          rintro rfl
          obtain ⟨hlt, -⟩ := List.getElem?_eq_some_iff.mp hi
          exact hij ((List.getElem?_inj hlt hnodup).mp (hi.trans hf.symm))
        show Function.update mem f c g = mem g
        rw [Function.update_of_ne hne]

/-! ## The producer's side -/

/-- The ring of buffers stands where it stood. -/
structure Producer.SameRing (p p' : Producer) : Prop where
  pool : p'.pool = p.pool
  sys : p'.sys = p.sys
  hostViews : p'.pub.hostViews = p.pub.hostViews
  nextIndex : p'.pub.nextIndex = p.pub.nextIndex

/-- The descriptor of a frame that has been accepted and is not yet given to the slot. -/
def PublishPhase.pending : PublishPhase → Option TensorDescriptor
  | .stamped desc _ => some desc
  | .fenced desc => some desc
  | _ => none

namespace Publication

variable {R : Type} [DecidableEq R] {s s' : Publication R} {e : PublicationEv R}

/-- Publishing, and whatever happens on the connections, leaves the ring where it stands. -/
theorem sameRing_of_step (hs : s.step e = some s') (he : ∀ e', e = .prod e' → e'.isConnection = true) :
    s.prod.SameRing s'.prod := by
  cases step_cases hs with
  | prod e prod hno hprod =>
      have hconn := he e rfl
      cases e with
      | handshake =>
          obtain ⟨r, hr, rfl⟩ := Option.map_eq_some_iff.mp hprod
          obtain ⟨r', -, rfl⟩ := Option.map_eq_some_iff.mp hr
          exact ⟨rfl, rfl, TensorPublisher.cachePool_hostViews _ _ _,
            TensorPublisher.cachePool_nextIndex _ _ _⟩
      | connect | acceptFails | read | hangup =>
          obtain rfl := Option.some.inj hprod
          exact ⟨rfl, rfl, rfl, rfl⟩
      -- these events are not ones of the connections
      | acquire | publish | reallocate | reannounce => cases hconn
  | sendFence desc syncFd pub hphase hsend =>
      obtain ⟨clients, rfl, -⟩ := TensorPublisher.sendFence_spec hsend
      exact ⟨rfl, rfl, rfl, rfl⟩
  | pickUp pub hphase hpick =>
      obtain ⟨r, -, rfl⟩ := Option.map_eq_some_iff.mp hpick
      exact ⟨rfl, rfl, TensorPublisher.cachePool_hostViews _ _ _, TensorPublisher.cachePool_nextIndex _ _ _⟩
  -- the rest of a publish changes counters and the slot alone
  | refuse | stamp | call | ret | access => exact ⟨rfl, rfl, rfl, rfl⟩

/-- The publisher announces `a`, and the frame in the making is one that it may announce. -/
structure Announcing (a : Announcement) (s : Publication R) : Prop where
  announces : s.prod.Announces a
  pending : ∀ d, s.phase.pending = some d → d.FitsIn a.size ∧ d.poolGeneration ≤ a.upTo

/-- What is announced stays the same as long as the pool is not reallocated. -/
theorem Announcing.step {a : Announcement} (h : Announcing a s) (hs : s.step e = some s')
    (he : ∀ n, e ≠ .prod (.reallocate n)) : Announcing a s' := by
  cases step_cases hs with
  | prod e prod hno hprod =>
      refine ⟨Producer.announces_step_of_kept h.announces ?_ hprod, h.pending⟩
      rintro n rfl
      exact he n rfl
  | refuse => exact ⟨⟨h.announces.pub.setCounters _ _, h.announces.pool⟩, h.pending⟩
  | stamp now d syncFd hphase hcheck =>
      refine ⟨⟨h.announces.pub.setCounters _ _, h.announces.pool⟩, ?_⟩
      rintro desc ⟨⟩
      -- the frame has passed the checks with the announced size
      have hfit := fitsIn_of_descriptorError hcheck
      rw [h.announces.pub.size] at hfit
      exact ⟨hfit, h.announces.pool.upTo.ge⟩
  | sendFence desc syncFd pub hphase hsend =>
      refine ⟨⟨h.announces.pub.sendFence hsend, h.announces.pool⟩, ?_⟩
      rintro d ⟨⟩
      exact h.pending desc (by rw [hphase]; rfl)
  -- the frame written is the one that was stamped
  | call desc slot hphase hslot =>
      obtain ⟨hfit, hgen⟩ := h.pending desc (by rw [hphase]; rfl)
      exact ⟨⟨h.announces.pub.writeMeta hfit hgen, h.announces.pool⟩, nofun⟩
  | ret desc slot hphase hslot => exact ⟨h.announces, nofun⟩
  | access a slot hcall hret hslot => exact ⟨h.announces, h.pending⟩
  | pickUp pub hphase hpick =>
      exact ⟨⟨(h.announces.pub.pickUpConsumers h.announces.pool hpick).1, h.announces.pool⟩, nofun⟩

/-- **The pool of a ring**: its buffers are the files `files`, its views map them, and every bundle sent is
of these files. -/
structure FixedPool (files : List File) (s : Publication R) : Prop where
  holds : s.prod.pool.Holds s.prod.sys
  files : s.prod.pool.dmaBufFds.map (·.file) = files
  views : ViewsOf s.prod s.prod.pool.generation
  announced : ∃ a, Announcing a s ∧ a.first = a.upTo

namespace FixedPool

variable {files : List File}

omit [DecidableEq R] in
/-- The pool has a buffer for each file. -/
theorem length_eq (h : FixedPool files s) : s.prod.pool.dmaBufFds.length = files.length := by
  rw [← h.files, List.length_map]

/-- A pool stays fixed while it is not reallocated. -/
theorem congr (h : FixedPool files s) (hpool : s'.prod.pool = s.prod.pool) (hsys : s'.prod.sys = s.prod.sys)
    (hviews : s'.prod.pub.hostViews = s.prod.pub.hostViews) (hs : s.step e = some s')
    (he : ∀ n, e ≠ .prod (.reallocate n)) : FixedPool files s' := by
  obtain ⟨a, ha, hfirst⟩ := h.announced
  refine ⟨?_, ?_, ?_, a, ha.step hs he, hfirst⟩
  · rw [hpool, hsys]
    exact h.holds
  · rw [hpool]
    exact h.files
  · rw [hpool]
    exact h.views.congr hpool hsys hviews

omit [DecidableEq R] in
/-- Every bundle that has been sent is one of these files. -/
theorem sent (h : FixedPool files s) {header : PoolHandshakeHeader} {fs : List File} {ext : List UInt8}
    (hsent : s.prod.pub.server.Sent (.pool header fs ext)) : fs = files := by
  obtain ⟨a, ⟨ha, -⟩, hfirst⟩ := h.announced
  obtain ⟨-, -, g, hge, hle, -, rfl⟩ := (ha.pub.sent.of_sent hsent).announced
  obtain rfl : g = a.upTo := le_antisymm hle (hfirst ▸ hge)
  rw [ha.pool.upTo, ha.pool.buffers, h.files]

omit [DecidableEq R] in
/-- A host view maps the file of its buffer. -/
theorem view (h : FixedPool files s) {i : ℕ} {m : Mapping}
    (hm : s.prod.pub.hostViews[i]? = some (some m)) : files[i]? = some m.file := by
  obtain ⟨fd, hfd, hfile⟩ := h.views.current rfl i m hm
  rw [← h.files, List.getElem?_map, hfd, hfile]
  rfl

end FixedPool

omit [DecidableEq R] in
/-- A new publisher on a new pool. -/
theorem fixedPool_of_create {build : BuildConfig} {cfg : TensorPoolConfig} {sys : Sys} (hsound : sys.Sound)
    (hcreate : Producer.create build cfg sys = some s.prod) (hphase : s.phase = .idle) :
    FixedPool (s.prod.pool.dmaBufFds.map (·.file)) s ∧ 0 < s.prod.pool.dmaBufFds.length := by
  have hholds := Producer.holds_of_create hsound hcreate
  obtain ⟨sys₁, hpool, hpub⟩ := Producer.create_parts hcreate
  obtain ⟨length, sys₂, hviews⟩ := TensorPublisher.views_of_create hpub
  have hann := Producer.announces_of_create ⟨build, cfg, sys, hcreate⟩
  refine ⟨⟨hholds, rfl, .of_mapped hholds hviews, _, ⟨hann, ?_⟩, rfl⟩,
    (TensorPool.length_of_create hsound hpool).2⟩
  rw [hphase]
  exact nofun

end Publication

end Axon
