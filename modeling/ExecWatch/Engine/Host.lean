import ExecWatch.Capture.Parent
import ExecWatch.Engine.KernelVersion
import ExecWatch.Text.Bytes

/-!
# The host and the probe object

What the engine finds on the host it runs on, and in the object that holds the probe's programs.
-/

namespace ExecWatch

/-! ## The object -/

/-- Types of programs. -/
inductive ProgramType where
  | tracepoint
  | kprobe
deriving Repr, DecidableEq

/-- The number under which the kernel knows ring buffers among the types of maps. -/
def ringBufferType : Nat := 27

/-- A compiled probe: its programs and maps by name, with their types, and the size in bytes of the
variable that receives the task offsets, if it has one. -/
structure ProbeCode where
  programs : List (String × ProgramType)
  maps : List (String × Nat)
  offsetsSize : Option Nat
deriving Repr, DecidableEq

/-- What is embedded as the probe. -/
inductive ProbeObject where
  /-- Nothing was embedded. -/
  | missing
  /-- Something that is no object. -/
  | unreadable
  | code (code : ProbeCode)
deriving Repr, DecidableEq

namespace ProbeCode

/-- Size of the variable that receives the task offsets: two words. -/
def offsetsWidth : Nat := 8

/-- The map behind the object's constants, the task offsets among them. -/
def constantsMap : String := ".rodata"

/-- Name of the variable that receives the task offsets. -/
def offsetsGlobal : String := "TASK_OFFSETS"

/-- Name of the map that carries the records. -/
def eventsMap : String := "EXEC_EVENTS"

/-- Size in bytes of that map. -/
def eventsSize : Nat := 0x1000000

/-- The maps that are created when the object is loaded. -/
def createdMaps (code : ProbeCode) : List String :=
  constantsMap :: code.maps.map Prod.fst

end ProbeCode

/-! ## The host -/

/-- Where a tracing file system may be mounted. -/
inductive TraceMount where
  | tracing
  | debug
deriving Repr, DecidableEq

/-- A tracepoint among the system calls, and the text of its id file. -/
structure Tracepoint where
  mount : TraceMount
  name : String
  idText : String
deriving Repr, DecidableEq

/-- What the kernel refuses. -/
structure Refusals where
  /-- The map that cannot be created. -/
  map : Option String := none
  /-- The program that cannot be loaded. -/
  program : Option String := none
  /-- No program can be attached. -/
  attaching : Bool := false
deriving Repr, DecidableEq

structure Host where
  release : String := ""
  version : String := ""
  signature : Option String := none
  /-- The kernel's type table, if it shows one. -/
  types : Option Bytes := none
  /-- The limit on locked memory can be raised. -/
  canLockMemory : Bool := true
  tracepoints : List Tracepoint := []
  refusals : Refusals := {}
deriving Repr, DecidableEq

namespace Host

def kernelVersion? (h : Host) : Option KernelVersion :=
  KernelVersion.ofKernelTexts? h.signature h.version h.release

/-- The text of a tracepoint's id file, that of the first mount if both show the tracepoint. -/
def idText? (h : Host) (name : String) : Option String :=
  let below (mount : TraceMount) :=
    (h.tracepoints.find? fun t => t.mount = mount && t.name = name).map (·.idText)
  (below .tracing).or (below .debug)

/-- A tracepoint's id. -/
def tracepointId? (h : Host) (name : String) : Option Nat := do
  Integer.unsigned? 32 (Text.trim (← h.idText? name).toList)

end Host

end ExecWatch
