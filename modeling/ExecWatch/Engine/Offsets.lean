import ExecWatch.Files.Tree
import ExecWatch.Log.Basic
import ExecWatch.Text.Hex
import ExecWatch.TypeTable.Offset

/-!
# The offsets behind a parent's process id

They are read from the running kernel's type table. Where that is reported to fail, the probe runs
without them and its records carry 0 for the parent. Where a sum of offsets passes a word, nothing
runs at all.
-/

namespace ExecWatch

/-- Why the offsets are not known. -/
inductive OffsetsError where
  | noTable (path : String)
  | table (e : TypeTable.Error)
deriving Repr, DecidableEq

namespace OffsetsError

/-- The messages of an error, the outermost first. -/
def messages : OffsetsError → List String
  | .noTable path => ["Failed to read " ++ path, Files.Error.notFound.message]
  | .table e => [e.message]

end OffsetsError

namespace TaskOffsets

/-- Where the kernel shows its type table. -/
def kernelTablePath : String := "/sys/kernel/btf/vmlinux"

/-- The offsets in the type table at a path, if there is one. -/
def ofFile (path : String) : Option Bytes → Except (TypeTable.Failure OffsetsError) TaskOffsets
  | none => .error (.reported (.noTable path))
  | some data => (taskOffsetsOf data).mapError (.map .table)

/-- The offsets in the running kernel's type table, 0 where they cannot be read, and what is logged.
There is no answer where a sum of offsets passes a word. -/
def resolve (types : Option Bytes) : Option (TaskOffsets × LogLine) :=
  match ofFile kernelTablePath types with
  | .ok o => some (o, ⟨.info, .agent, "task_struct offsets: real_parent=" ++
      Hex.ofNat o.realParent.toNat ++ " tgid=" ++ Hex.ofNat o.tgid.toNat⟩)
  | .error (.reported e) => some (unresolved, ⟨.warn, .agent,
      "Failed to resolve task_struct offsets, ppid will be 0: " ++ String.intercalate ": " e.messages⟩)
  | .error .overflow => none

end TaskOffsets

end ExecWatch
