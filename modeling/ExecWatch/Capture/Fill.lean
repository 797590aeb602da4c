import ExecWatch.Capture.Argv
import ExecWatch.Capture.Parent
import ExecWatch.Exec.Record

/-!
# Filling a record

The record of one exec, written over whatever the slot held before. Every field is written: the
path and the argument vector are cleared first, so a read that fails leaves a shorter text.
-/

namespace ExecWatch

/-- Who execs: process and thread id in the halves of one word, group and user id in those of
another, the parent's id, and the task's name. -/
structure Task where
  pidTgid : UInt64
  uidGid : UInt64
  ppid : UInt32
  comm : Field 16

namespace Task

/-- The process id, in the upper half. -/
def pid (t : Task) : UInt32 := (t.pidTgid >>> 32).toUInt32

/-- The user id, in the lower half. -/
def uid (t : Task) : UInt32 := t.uidGid.toUInt32

/-- The group id, in the upper half. -/
def gid (t : Task) : UInt32 := (t.uidGid >>> 32).toUInt32

end Task

namespace Argv

theorem length_separate (i : Nat) (p : Progress) :
    (separate i p).buffer.length = p.buffer.length := by
  unfold separate
  split <;> simp

theorem length_append (mem : UserMemory) (address : UInt64) (p : Progress)
    (h : p.used ≤ p.buffer.length) :
    (append mem address p).1.buffer.length = p.buffer.length := by
  unfold append
  simp only
  split <;> simp [mem.length_string] <;> omega

theorem length_visit (mem : UserMemory) (vector : UInt64) (slots i : Nat) (p : Progress) :
    (visit mem vector slots i p).buffer.length = p.buffer.length := by
  induction slots generalizing i p with
  | zero => rfl
  | succ slots ih =>
    unfold visit
    split
    · rfl
    · simp only
      split
      · rfl
      · rename_i string _
        split
        · rfl
        · split
          · exact length_separate _ _
          · rename_i hroom
            have hused : (separate i { p with seen := .userPointer (slotAddress vector i) :: p.seen }).used
                ≤ (separate i { p with seen := .userPointer (slotAddress vector i) :: p.seen }).buffer.length := by
              omega
            have hlen := length_append mem string _ hused
            split
            · rename_i heq
              rw [heq] at hlen
              exact hlen.trans (length_separate _ _)
            · rename_i heq
              rw [heq] at hlen
              rw [ih]
              exact hlen.trans (length_separate _ _)

@[simp] theorem length_join (mem : UserMemory) (vector : UInt64) (buffer : Bytes)
    (seen : List Access) : (join mem vector buffer seen).buffer.length = buffer.length := by
  unfold join
  simp only [List.length_set]
  split
  · rfl
  · exact length_visit ..

end Argv

namespace Record

/-- The path field written over `field`: cleared, then written by one string read when there is a path
to read. -/
def readPath (mem : UserMemory) (path : UInt64) (field : Field 256) (seen : List Access) :
    Field 256 × List Access :=
  let field := field.cleared
  if path = 0 then (field, seen)
  else
    (⟨(mem.string seen path field.bytes).window,
      (mem.length_string seen path _).trans field.length_eq⟩,
      .userString path 256 :: seen)

/-- The argument field written over `field`: cleared, then written by the join. -/
def readArgv (mem : UserMemory) (vector : UInt64) (field : Field 256) (seen : List Access) :
    Field 256 × List Access :=
  let field := field.cleared
  let joined := Argv.join mem vector field.bytes seen
  (⟨joined.buffer, (Argv.length_join mem vector _ seen).trans field.length_eq⟩, joined.seen)

/-- The record `slot` after it was filled for `task`, and the accesses made, latest first. -/
def fill (task : Task) (mem : UserMemory) (slot : Record) (path vector : UInt64)
    (seen : List Access) : Record × List Access :=
  let slot := { slot with pid := task.pid, ppid := task.ppid, uid := task.uid, gid := task.gid }
  let slot := { slot with comm := task.comm.terminated }
  let (filename, seen) := readPath mem path slot.filename seen
  let slot := { slot with filename }
  let (argv, seen) := readArgv mem vector slot.argv seen
  ({ slot with argv }, seen)

end Record

end ExecWatch
