import ExecWatch.Capture.Memory

/-!
# The parent's process id

The kernel keeps a pointer to a task's parent, and in the parent its process id, at offsets that
differ between kernels. A zero offset is one that could not be resolved; then nothing is read and
the parent is reported as 0, as it is when a read fails.
-/

namespace ExecWatch

/-- Byte offsets of the parent pointer and of the process id in the kernel's task structure. -/
structure TaskOffsets where
  realParent : UInt32
  tgid : UInt32
deriving Repr, DecidableEq

namespace TaskOffsets

def unresolved : TaskOffsets := ⟨0, 0⟩

/-- Both offsets are known. -/
def isResolved (o : TaskOffsets) : Bool :=
  o.realParent ≠ 0 && o.tgid ≠ 0

end TaskOffsets

/-- The parent's process id, or 0, and the accesses made, in order. -/
def parentId (mem : KernelMemory) (task : UInt64) (offsets : TaskOffsets) :
    UInt32 × List Access :=
  if task = 0 || !offsets.isResolved then (0, [])
  else
    let slot := task + offsets.realParent.toUInt64
    match mem.pointer slot with
    | none => (0, [.kernelPointer slot])
    | some parent =>
      if parent = 0 then (0, [.kernelPointer slot])
      else
        let field := parent + offsets.tgid.toUInt64
        let reads := [.kernelPointer slot, .kernelInt field]
        match mem.int field with
        | some tgid => (if 0 < tgid then tgid.toUInt32 else 0, reads)
        | none => (0, reads)

end ExecWatch
