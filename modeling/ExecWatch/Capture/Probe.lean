import ExecWatch.Capture.Fill
import ExecWatch.Exec.Syscall
import ExecWatch.Log.Basic

/-!
# The probe

The probe fires at the entry of an exec call. It takes a free slot of the event ring, reads the two
arguments it needs out of the tracepoint's context, fills the slot and publishes it. When no slot is
free the exec is not recorded: nothing is read and the loss is logged.

The ring is a queue of bounded length: a slot can be taken exactly when fewer records than its
capacity are queued, and published records are consumed in order.
-/

namespace ExecWatch

namespace Context

/-- Bytes of the header before the arguments. -/
def headerSize : Nat := 16

/-- Argument `i` of the call whose tracepoint context is given; 0 when the context ends before it. -/
def argument (context : Bytes) (i : Nat) : UInt64 :=
  (Bytes.word64? (context.drop (headerSize + 8 * i))).getD 0

end Context

namespace Probe

/-- Everything one firing depends on. A task name that cannot be had counts as empty. -/
structure Firing where
  call : Syscall
  context : Bytes
  task : UInt64
  pidTgid : UInt64
  uidGid : UInt64
  comm : Option (Field 16)
  user : UserMemory
  kernel : KernelMemory

/-- The event ring and the offsets that the loader has set. -/
structure State where
  capacity : Nat
  queue : List Record
  offsets : TaskOffsets

namespace State

/-- An empty ring; the offsets are not resolved yet. -/
def empty (capacity : Nat) : State := ⟨capacity, [], .unresolved⟩

/-- A slot can be taken. -/
def hasRoom (s : State) : Bool := s.queue.length < s.capacity

end State

/-- What a firing leaves behind besides the queue: the accesses in order, the lines that are logged, and
the number that is returned to the kernel. -/
structure Trace where
  accesses : List Access
  logs : List LogLine
  status : UInt32

/-- The line logged for a record that found no slot. -/
def lostLine (pid : UInt32) : LogLine :=
  ⟨.debug, .execProbe, "exec ring full, dropped record for pid " ++ toString pid.toNat⟩

/-- The record of a firing, written over `slot`, and the accesses made for it in order. -/
def record (offsets : TaskOffsets) (slot : Record) (f : Firing) : Record × List Access :=
  let (ppid, kernelReads) := parentId f.kernel f.task offsets
  let task : Task := ⟨f.pidTgid, f.uidGid, ppid, f.comm.getD (.zero 16)⟩
  let path := Context.argument f.context f.call.pathArg
  let vector := Context.argument f.context f.call.argvArg
  let (record, seen) := Record.fill task f.user slot path vector kernelReads.reverse
  (record, seen.reverse)

/-- Fires the probe; a slot that is taken held `slot` before. -/
def fire (slot : Record) (s : State) (f : Firing) : State × Trace :=
  if s.hasRoom then
    let (record, accesses) := record s.offsets slot f
    ({ s with queue := s.queue ++ [record] }, ⟨accesses, [], 0⟩)
  else (s, ⟨[], [lostLine (f.pidTgid >>> 32).toUInt32], 0⟩)

/-- With room, one record is published. -/
theorem fire_room {s : State} (h : s.queue.length < s.capacity) (slot : Record) (f : Firing) :
    fire slot s f = ({ s with queue := s.queue ++ [(record s.offsets slot f).1] },
      ⟨(record s.offsets slot f).2, [], 0⟩) := by
  simp only [fire, State.hasRoom, h, decide_true, ↓reduceIte]

/-- Without room, nothing is read and the loss is logged. -/
theorem fire_full {s : State} (h : ¬ s.queue.length < s.capacity) (slot : Record) (f : Firing) :
    fire slot s f = (s, ⟨[], [lostLine (f.pidTgid >>> 32).toUInt32], 0⟩) := by
  simp only [fire, State.hasRoom, h, decide_false, Bool.false_eq_true, ↓reduceIte]

/-- Takes the oldest record off the ring. -/
def consume (s : State) : State × Option Record :=
  match s.queue with
  | [] => (s, none)
  | r :: rest => ({ s with queue := rest }, some r)

/-- One thing that happens to the probe and its ring. -/
inductive Step where
  | setOffsets (offsets : TaskOffsets)
  | fire (firing : Firing)
  | consume

/-- What a step shows. -/
inductive Answer where
  | done
  | fired (queued : Nat) (trace : Trace)
  | consumed (record : Option Record)

/-- One step, where every slot taken held `slot` before. -/
def step (slot : Record) (s : State) : Step → State × Answer
  | .setOffsets offsets => ({ s with offsets }, .done)
  | .fire f =>
    let (s, trace) := fire slot s f
    (s, .fired s.queue.length trace)
  | .consume =>
    let (s, record) := consume s
    (s, .consumed record)

/-- The answers of a run of steps, in order. -/
def run (slot : Record) : State → List Step → List Answer
  | _, [] => []
  | s, step :: rest =>
    let (s, answer) := Probe.step slot s step
    answer :: run slot s rest

end Probe

end ExecWatch
