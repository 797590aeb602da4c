import ExecWatch.CommandLine.Flag

/-!
# The agent's command line

A configuration file may be named, by a flag or by a variable, and more may be logged.
-/

namespace ExecWatch.CommandLine

/-- What the agent is told to do. -/
structure AgentOptions where
  config : Option String
  verbose : Bool
deriving Repr, DecidableEq

namespace AgentOptions

/-- The program's name. -/
def program : String := "tripwire"

/-- The program's version. -/
def version : String := "0.1.0"

def flags : List Flag :=
  [ { long := "config", short := some 'c', kind := .value false,
      standIn := some "TRIPWIRE_CONFIG" },
    { long := "verbose", short := some 'v', kind := .switch },
    { long := "version", short := some 'V', kind := .version } ]

/-- Reads the arguments behind the program's name. -/
def ofArguments (environment : Environment) (args : List String) :
    Except Refusal AgentOptions := do
  let r ← read flags environment args
  return ⟨r.value? "config", r.hasSwitch "verbose"⟩

end AgentOptions

end ExecWatch.CommandLine
