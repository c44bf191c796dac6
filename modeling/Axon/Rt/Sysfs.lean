import Mathlib.Data.List.DropRight
import Mathlib.Data.PNat.Basic
import Mathlib.Tactic.Common

/-! # Reading and writing sysfs

What the runtime helpers read from sysfs is one line, of which they take the first 63 bytes. A byte is a
character here. -/

namespace Axon.Rt

/-- The `errno` of a call that has failed. It is not zero. -/
abbrev ErrNo := ℕ+

/-- Input or output has failed. -/
def EIO : ErrNo := 5

/-- There is no memory. -/
def ENOMEM : ErrNo := 12

/-- There is no such device. -/
def ENODEV : ErrNo := 19

/-- The argument makes no sense. -/
def EINVAL : ErrNo := 22

/-- A file of a CPU. -/
def cpuAttr (cpu : Int32) (rel : String) : String :=
  "/sys/devices/system/cpu/cpu" ++ toString cpu ++ "/" ++ rel

/-- **`read_line`**, on what opening and reading the file gives: newline and blanks at the end are stripped, and
an empty value is an error. -/
def readLine (file : Except ErrNo (List Char)) : Except ErrNo (List Char) :=
  match file with
  | .error e => .error e
  | .ok bytes =>
      let out := (bytes.take 63).rdropWhile fun c => c == '\n' || c == ' '
      if out = [] then .error EIO else .ok out

/-- What the kernel shows for a value. -/
def shown (v : List Char) : List Char := v ++ ['\n']

/-- **A value as sysfs shows it**: not empty, no newline or blank at its end, and short enough for `read_line`. -/
structure SysfsValue (v : List Char) : Prop where
  ne_nil : v ≠ []
  last : ∀ h : v ≠ [], v.getLast h ≠ '\n' ∧ v.getLast h ≠ ' '
  short : v.length ≤ 63

/-- What is read is not empty. -/
theorem ne_nil_of_readLine {file : Except ErrNo (List Char)} {line : List Char} (h : readLine file = .ok line) :
    line ≠ [] := by
  unfold readLine at h
  split at h
  · cases h
  · dsimp only at h
    split_ifs at h with hempty
    cases h
    exact hempty

/-- **A value is read as it is.** -/
theorem readLine_shown {v : List Char} (h : SysfsValue v) : readLine (.ok (shown v)) = .ok v := by
  have hstrip : ((shown v).take 63).rdropWhile (fun c => c == '\n' || c == ' ') = v := by
    -- a value has no blank or newline at its end
    have hself : v.rdropWhile (fun c => c == '\n' || c == ' ') = v := by
      refine List.rdropWhile_eq_self_iff.mpr fun hne hblank => ?_
      obtain ⟨hnewline, hspace⟩ := h.last hne
      simp [hnewline, hspace] at hblank
    rw [shown]
    -- the newline is cut off with the 64th byte, or stripped
    rcases Nat.lt_or_ge v.length 63 with hlt | hge
    · have hlen : (v ++ ['\n']).length ≤ 63 := by
        rw [List.length_append, List.length_singleton]
        exact hlt
      rw [List.take_of_length_le hlen, List.rdropWhile_concat_pos _ _ _ (by decide)]
      exact hself
    · rw [List.take_left' (Nat.le_antisymm h.short hge)]
      exact hself
  unfold readLine
  dsimp only
  rw [hstrip, if_neg h.ne_nil]

end Axon.Rt
