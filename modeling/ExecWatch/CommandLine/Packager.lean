import ExecWatch.CommandLine.Flag

/-!
# The packager's command line

The first argument is the command, to build or to package; the command's flags follow it.
-/

namespace ExecWatch.CommandLine

/-- What the packager is told to do. -/
inductive PackagerCommand where
  | build (release : Bool) (target : Option String)
  | package (target : Option String) (output : String)
deriving Repr, DecidableEq

namespace PackagerCommand

/-- Where packages go when nothing else is asked for. -/
def defaultOutput : String := "dist"

/-- The names of the commands. -/
def names : List String := ["build", "package"]

def buildFlags : List Flag :=
  [ { long := "release", kind := .switch },
    { long := "target", kind := .value true } ]

def packageFlags : List Flag :=
  [ { long := "target", kind := .value true },
    { long := "output", kind := .value true } ]

/-- Why arguments that do not start with a command are refused. -/
def refusal : List String → Refusal
  | [] => .noCommand
  | ["--"] => .noCommand
  | "--" :: arg :: _ => if arg ∈ names then .unknownArgument else .unknownCommand
  | "-" :: _ => .unknownCommand
  | arg :: _ => if "-".isPrefixOf arg then .unknownArgument else .unknownCommand

/-- Reads the arguments behind the program's name. -/
def ofArguments : List String → Except Refusal PackagerCommand
  | "build" :: args => do
    let r ← read buildFlags [] args
    return .build (r.hasSwitch "release") (r.value? "target")
  | "package" :: args => do
    let r ← read packageFlags [] args
    return .package (r.value? "target") ((r.value? "output").getD defaultOutput)
  | args => .error (refusal args)

end PackagerCommand

end ExecWatch.CommandLine
