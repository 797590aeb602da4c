import ExecWatch.Engine.Basic
import ExecWatch.Engine.Offsets
import ExecWatch.Settings.Basic

/-!
# Starting the engine

A start checks the kernel, resolves the task offsets and loads the object with them. A kernel whose
limit on locked memory cannot be raised is only warned about; one whose type table has offsets that add
up to more than a word holds ends it.
-/

namespace ExecWatch

/-- An engine whose object is loaded, with the offsets put into it. -/
structure Engine where
  settings : Settings
  code : ProbeCode
  offsets : TaskOffsets
deriving Repr, DecidableEq

namespace Engine

/-- The host takes the object: its variable for the offsets has the right size and each of its maps can
be created. -/
def accepts (h : Host) (code : ProbeCode) : Bool :=
  code.offsetsSize = some ProbeCode.offsetsWidth &&
    !(h.refusals.map.any fun map => map ∈ code.createdMaps)

/-- Logged at every start: the object's programs do not log. -/
def noProgramLogs : LogLine :=
  ⟨.warn, .agent, "Failed to initialize eBPF logger: log event array AYA_LOGS doesn't exist"⟩

/-- Loads an object. -/
def load (h : Host) : ProbeObject → Action ProbeCode
  | .missing => throw .noObject
  | .unreadable => throw .objectRefused
  | .code code => if accepts h code then return code else throw .objectRefused

/-- Starts the engine. -/
def start (settings : Settings) (object : ProbeObject) (h : Host) : Action Engine := do
  if object = .missing then throw .noObject
  let some version := h.kernelVersion? | throw .unknownKernel
  checkKernel version
  log ⟨.info, .agent, "Running on kernel " ++ version.describe⟩
  let some (offsets, line) := TaskOffsets.resolve h.types | throw .offsetOverflow
  log line
  if !h.canLockMemory then log ⟨.warn, .agent, "Failed to increase rlimit"⟩
  let code ← load h object
  log noProgramLogs
  return ⟨settings, code, offsets⟩

end Engine

end ExecWatch
