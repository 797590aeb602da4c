import ExecWatch.Exec.Syscall
import ExecWatch.Rule.Basic

/-!
# Settings

What the agent can be told: how much to log, which system calls to watch, how many alerts may wait
for the sink, where metrics go, and the rules.
-/

namespace ExecWatch

/-- Which of the two calls are watched. -/
structure ProbeToggles where
  execve : Bool := true
  execveat : Bool := true
deriving Repr, DecidableEq

namespace ProbeToggles

def isEnabled (t : ProbeToggles) : Syscall → Bool
  | .execve => t.execve
  | .execveat => t.execveat

/-- The calls that are watched, in the order in which they are attached. -/
def calls (t : ProbeToggles) : List Syscall :=
  Syscall.all.filter t.isEnabled

end ProbeToggles

structure Settings where
  logLevel : Option String := none
  probes : ProbeToggles := {}
  /-- Alerts that may wait for the sink. -/
  channelCapacity : Nat := 64
  endpoint : Option String := none
  rules : List Rule := []
deriving Repr, DecidableEq

namespace Settings

/-- The rules that are evaluated. -/
def processRules (s : Settings) : List Rule :=
  s.rules.filter (·.isProcess)

/-- The filter of log lines when none is asked for otherwise. -/
def logFilter (s : Settings) (verbose : Bool) : String :=
  s.logLevel.getD (if verbose then "info" else "warn")

end Settings

end ExecWatch
