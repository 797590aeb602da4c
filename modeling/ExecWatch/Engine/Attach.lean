import ExecWatch.Engine.Start

/-!
# Attaching the probe

Each watched call's program is loaded and attached to the tracepoint at the call's entry. A tracepoint
that the kernel does not show is skipped; any other failure ends the run.
-/

namespace ExecWatch.Engine

/-- The tracepoint's name with its category. -/
def tracepointPath (separator : String) (call : Syscall) : String :=
  Syscall.category ++ separator ++ call.tracepoint

/-- Finds a program and loads it into the kernel. -/
def loadProgram (h : Host) (code : ProbeCode) (program : String) : Action Unit := do
  match code.programs.lookup program with
  | none => throw (.noProgram program)
  | some type =>
    if type ≠ .tracepoint ∨ h.refusals.program = some program then throw (.programRefused program)
    modify fun a => { a with loaded := a.loaded ++ [program] }

/-- Attaches a loaded program to a tracepoint. -/
def attachProgram (h : Host) (program tracepoint : String) : Action Unit := do
  match h.tracepointId? tracepoint with
  | none => throw (.notAttached tracepoint)
  | some id =>
    if h.refusals.attaching then throw (.notAttached tracepoint)
    modify fun a => { a with attached := a.attached ++ [(program, id)] }

/-- Attaches one call's program; says whether there is a tracepoint for it. -/
def attachCall (h : Host) (code : ProbeCode) (call : Syscall) : Action Bool := do
  if (h.idText? call.tracepoint).isNone then
    log ⟨.warn, .probes, "Tracepoint " ++ tracepointPath ":" call ++ " not available; skipping " ++
      call.programName⟩
    return false
  log ⟨.info, .probes, "Loading program " ++ call.programName⟩
  loadProgram h code call.programName
  attachProgram h call.programName call.tracepoint
  log ⟨.info, .probes, "Attached tracepoint: " ++ tracepointPath "/" call⟩
  return true

/-- Attaches the programs of `calls` in order and counts them. -/
def attachCalls (h : Host) (code : ProbeCode) : List Syscall → Action Nat
  | [] => return 0
  | call :: rest => do
    let attached ← attachCall h code call
    let others ← attachCalls h code rest
    return others + attached.toNat

end ExecWatch.Engine
