import Axon.Foundation.Timespec
import Axon.Rt.Setup

/-! # Sleeping until a deadline, and touching a view

`rt_sleep_until_prewarmed` sleeps until shortly before a deadline and spins up to it. All it knows of the time is what
its calls of `rt_now_ns` return; a sleep may end early. The readings of the clock are a list here, in the order of the
calls. `rt_prefault_dma_buf_view` reads a view ahead of the loop that uses it.

* **`rt_sleep_spec`** says when the function returns, with which reading, and for how long it asks to sleep.
* **`rt_prefault_spec`** says that `rt_prefault_dma_buf_view` is on every page of the view, and nowhere else. -/

namespace Axon.Rt

open Foundation

/-! ## Sleeping -/

/-- What a call has done: the last reading, the sleeps asked for, and the readings left. -/
structure Slept where
  now : UInt64
  sleeps : List Timespec
  rest : List UInt64

/-- The time for which to sleep is not over. -/
def Sleeps (deadlineNs spinNs now : UInt64) : Prop := spinNs < deadlineNs ∧ now < deadlineNs - spinNs

/-- Whether the thread sleeps is a comparison of times. -/
instance (deadlineNs spinNs now : UInt64) : Decidable (Sleeps deadlineNs spinNs now) :=
  inferInstanceAs (Decidable (_ ∧ _))

/-- The first loop: sleep what remains, measured anew after each sleep. -/
def sleepLoop (deadlineNs spinNs : UInt64) : UInt64 → List UInt64 → Option Slept
  | now, [] => if Sleeps deadlineNs spinNs now then none else some ⟨now, [], []⟩
  | now, next :: rest =>
      if Sleeps deadlineNs spinNs now then
        (sleepLoop deadlineNs spinNs next rest).map fun r =>
          { r with sleeps := .ofNs (deadlineNs - spinNs - now).toNat :: r.sleeps }
      else some ⟨now, [], next :: rest⟩

/-- The second loop. -/
def spinLoop (deadlineNs : UInt64) : UInt64 → List UInt64 → Option UInt64
  | now, [] => if now < deadlineNs then none else some now
  | now, next :: rest => if now < deadlineNs then spinLoop deadlineNs next rest else some now

/-- **`rt_sleep_until_prewarmed`**: the reading returned and the sleeps asked for; `none` as long as it has not
returned. -/
def rtSleepUntilPrewarmed (deadlineNs : UInt64) (spinUs : UInt32) : List UInt64 →
    Option (UInt64 × List Timespec)
  | [] => none
  | now :: readings =>
      (sleepLoop deadlineNs (spinUs.toUInt64 * 1000) now readings).bind fun r =>
        (spinLoop deadlineNs r.now r.rest).map fun now => (now, r.sleeps)

/-- A reading at which to sleep is as long before the deadline as there is to spin, and longer. -/
theorem sleeps_iff {deadlineNs spinNs now : UInt64} :
    Sleeps deadlineNs spinNs now ↔ now.toNat + spinNs.toNat < deadlineNs.toNat := by
  unfold Sleeps
  rw [UInt64.lt_iff_toNat_lt, UInt64.lt_iff_toNat_lt]
  constructor
  · rintro ⟨hspin, hnow⟩
    rw [UInt64.toNat_sub_of_le _ _ (UInt64.le_iff_toNat_le.mpr hspin.le)] at hnow
    omega
  · intro h
    have hspin : spinNs.toNat < deadlineNs.toNat := by omega
    refine ⟨hspin, ?_⟩
    rw [UInt64.toNat_sub_of_le _ _ (UInt64.le_iff_toNat_le.mpr hspin.le)]
    omega

/-- What is left to sleep at such a reading. -/
theorem Sleeps.toNat_rem {deadlineNs spinNs now : UInt64} (h : Sleeps deadlineNs spinNs now) :
    (deadlineNs - spinNs - now).toNat = deadlineNs.toNat - spinNs.toNat - now.toNat := by
  rw [UInt64.toNat_sub_of_le _ _ (UInt64.le_iff_toNat_le.mpr (UInt64.lt_iff_toNat_lt.mp h.2).le),
    UInt64.toNat_sub_of_le _ _ (UInt64.le_iff_toNat_le.mpr (UInt64.lt_iff_toNat_lt.mp h.1).le)]

/-- **The first loop** goes on as long as there is something to sleep, and asks for just that. -/
theorem sleepLoop_spec (deadlineNs spinNs now : UInt64) (readings : List UInt64) :
    match sleepLoop deadlineNs spinNs now readings with
    | none => ∀ x ∈ now :: readings, Sleeps deadlineNs spinNs x
    | some r => ∃ before, now :: readings = before ++ r.now :: r.rest ∧
        (∀ x ∈ before, Sleeps deadlineNs spinNs x) ∧ ¬ Sleeps deadlineNs spinNs r.now ∧
        r.sleeps = before.map fun x => .ofNs (deadlineNs - spinNs - x).toNat := by
  -- on the readings to come
  induction readings generalizing now with
  | nil =>
      unfold sleepLoop
      by_cases h : Sleeps deadlineNs spinNs now
      · rw [if_pos h]
        simpa using h
      · rw [if_neg h]
        exact ⟨[], rfl, nofun, h, rfl⟩
  | cons next rest ih =>
      unfold sleepLoop
      by_cases h : Sleeps deadlineNs spinNs now
      -- a sleep, and then the loop from the next reading on
      · rw [if_pos h]
        have ih := ih next
        cases hr : sleepLoop deadlineNs spinNs next rest with
        | none =>
            rw [hr] at ih
            exact List.forall_mem_cons.mpr ⟨h, ih⟩
        | some r =>
            rw [hr] at ih
            obtain ⟨before, hsplit, hbefore, hafter, hsleeps⟩ := ih
            refine ⟨now :: before, ?_, List.forall_mem_cons.mpr ⟨h, hbefore⟩, hafter, ?_⟩
            · rw [hsplit]
              rfl
            · show _ :: r.sleeps = _
              rw [hsleeps]
              rfl
      · rw [if_neg h]
        exact ⟨[], rfl, nofun, h, rfl⟩

/-- **The second loop** ends with the first reading that has reached the deadline. -/
theorem spinLoop_eq (deadlineNs now : UInt64) (readings : List UInt64) :
    spinLoop deadlineNs now readings = (now :: readings).find? (deadlineNs ≤ ·) := by
  -- on the readings to come; the first one that is late enough ends the loop
  induction readings generalizing now with
  | nil =>
      unfold spinLoop
      by_cases h : now < deadlineNs
      · simp [h, UInt64.not_le.mpr h]
      · simp [h, UInt64.not_lt.mp h]
  | cons next rest ih =>
      unfold spinLoop
      by_cases h : now < deadlineNs
      · rw [if_pos h, ih]
        have hnow : ¬ decide (deadlineNs ≤ now) = true := by simpa using h
        exact (List.find?_cons_of_neg (p := fun x => decide (deadlineNs ≤ x)) hnow).symm
      · rw [if_neg h]
        have hnow : decide (deadlineNs ≤ now) = true := by simpa using UInt64.not_lt.mp h
        exact (List.find?_cons_of_pos (p := fun x => decide (deadlineNs ≤ x)) hnow).symm

/-- **Sleeping until a deadline.** Whatever the clock reads, the function returns once a reading has reached the
deadline, and with the first that has. Each reading up to the first that is within `spinUs` of the deadline is
followed by one sleep, which is asked to last just up to that point; every time asked for is positive and normal. -/
theorem rt_sleep_spec (deadlineNs : UInt64) (spinUs : UInt32) (readings : List UInt64) :
    (rtSleepUntilPrewarmed deadlineNs spinUs readings).map (·.1) = readings.find? (deadlineNs ≤ ·) ∧
    ∀ now sleeps, rtSleepUntilPrewarmed deadlineNs spinUs readings = some (now, sleeps) →
      sleeps.map Timespec.ns =
        (readings.takeWhile fun x => decide (x.toNat + spinUs.toNat * 1000 < deadlineNs.toNat)).map
          (fun x => (deadlineNs.toNat - spinUs.toNat * 1000 - x.toNat : ℤ)) ∧
      ∀ t ∈ sleeps, t.Normal ∧ 0 < t.ns := by
  have hspin : (spinUs.toUInt64 * 1000).toNat = spinUs.toNat * 1000 := by
    have := spinUs.toNat_lt
    rw [UInt64.toNat_mul, UInt32.toNat_toUInt64]
    exact Nat.mod_eq_of_lt (by show _ * 1000 < 2 ^ 64; omega)
  cases readings with
  | nil => exact ⟨rfl, nofun⟩
  | cons now readings =>
      have hloop := sleepLoop_spec deadlineNs (spinUs.toUInt64 * 1000) now readings
      -- a reading at which to sleep has not reached the deadline
      have hlate : ∀ x, Sleeps deadlineNs (spinUs.toUInt64 * 1000) x → ¬ deadlineNs ≤ x := by
        intro x hx
        rw [UInt64.le_iff_toNat_le]
        have := sleeps_iff.mp hx
        omega
      cases hr : sleepLoop deadlineNs (spinUs.toUInt64 * 1000) now readings with
      | none =>
          rw [hr] at hloop
          have hret : rtSleepUntilPrewarmed deadlineNs spinUs (now :: readings) = none := by
            simp only [rtSleepUntilPrewarmed, hr, Option.bind_none]
          rw [hret]
          refine ⟨?_, nofun⟩
          rw [eq_comm, Option.map_none, List.find?_eq_none]
          intro x hx
          simpa using hlate x (hloop x hx)
      | some r =>
          rw [hr] at hloop
          obtain ⟨before, hsplit, hbefore, hafter, hsleeps⟩ := hloop
          have hret : rtSleepUntilPrewarmed deadlineNs spinUs (now :: readings) =
              ((r.now :: r.rest).find? (deadlineNs ≤ ·)).map fun now => (now, r.sleeps) := by
            simp only [rtSleepUntilPrewarmed, hr, Option.bind_some, spinLoop_eq]
          rw [hret]
          constructor
          · have hnone : before.find? (deadlineNs ≤ ·) = none := by
              rw [List.find?_eq_none]
              intro x hx
              simpa using hlate x (hbefore x hx)
            rw [hsplit, List.find?_append, hnone, Option.none_or, Option.map_map]
            exact Option.map_id'
          · intro last sleeps hret
            obtain ⟨_, -, heq⟩ := Option.map_eq_some_iff.mp hret
            obtain ⟨-, rfl⟩ := Prod.mk.inj heq
            have htake : ((now :: readings).takeWhile fun x =>
                decide (x.toNat + spinUs.toNat * 1000 < deadlineNs.toNat)) = before := by
              rw [hsplit, List.takeWhile_append_of_pos, List.takeWhile_cons_of_neg, List.append_nil]
              · rw [← hspin, decide_eq_true_iff, ← sleeps_iff]
                exact hafter
              · intro x hx
                rw [← hspin, decide_eq_true_iff, ← sleeps_iff]
                exact hbefore x hx
            rw [htake, hsleeps, List.map_map]
            constructor
            · refine List.map_congr_left fun x hx => ?_
              have hx := hbefore x hx
              have hlt := sleeps_iff.mp hx
              rw [Function.comp_apply, Timespec.ns_ofNs, hx.toNat_rem, hspin]
              rw [hspin] at hlt
              omega
            · intro t ht
              obtain ⟨x, hx, rfl⟩ := List.mem_map.mp ht
              have hx := hbefore x hx
              have hlt := sleeps_iff.mp hx
              refine ⟨Timespec.normal_ofNs _, ?_⟩
              rw [Timespec.ns_ofNs, hx.toNat_rem]
              omega

/-! ## Touching a view -/

/-- **`rt_prefault_dma_buf_view`**: the addresses that are read. A view that is not mapped has none. -/
def rtPrefaultDmaBufView (sysconfPage : ℤ) (mappedView : Option ℕ) (size : ℕ) : Except ErrNo (List ℕ) :=
  match mappedView with
  | none => .error EINVAL
  | some p => if size = 0 then .error EINVAL else .ok ((touchPages sysconfPage size).map (p + ·))

/-- `touch_pages` does not leave the bytes it is given. -/
theorem lt_of_mem_touchPages {sysconfPage : ℤ} {n t : ℕ} (h : t ∈ touchPages sysconfPage n) : t < n := by
  have hpage := pageSize_pos sysconfPage
  unfold touchPages at h
  rcases List.mem_append.mp h with h | h
  · obtain ⟨i, hi, rfl⟩ := List.mem_map.mp h
    have hi := (Nat.lt_div_iff_mul_lt hpage).mp (List.mem_range.mp hi)
    omega
  · by_cases hn : 0 < n
    · rw [if_pos hn, List.mem_singleton] at h
      omega
    · rw [if_neg hn] at h
      exact absurd h List.not_mem_nil

/-- **Every page of the view is read**, and nothing outside the view is. -/
theorem rt_prefault_spec (sysconfPage : ℤ) (p size : ℕ) (hsize : 0 < size) :
    ∃ addrs, rtPrefaultDmaBufView sysconfPage (some p) size = .ok addrs ∧ (∀ a ∈ addrs, p ≤ a ∧ a < p + size) ∧
      ∀ a, p ≤ a → a < p + size → ∃ t ∈ addrs, t / pageSize sysconfPage = a / pageSize sysconfPage := by
  refine ⟨_, if_neg hsize.ne', ?_, ?_⟩
  · intro a ha
    obtain ⟨t, ht, rfl⟩ := List.mem_map.mp ha
    have := lt_of_mem_touchPages ht
    omega
  · intro a hle hlt
    obtain ⟨t, ht, -, hpage⟩ := everyPage_touchPages sysconfPage size p (a - p) (by omega)
    rw [Nat.add_sub_cancel' hle] at hpage
    exact ⟨p + t, List.mem_map_of_mem ht, hpage⟩

end Axon.Rt
