import ExecWatch.Agent

/-!
# The program

Reads the arguments, the environment and the files that the agent may ask for, runs it, and writes what
it wrote.
-/

namespace ExecWatch.Main

/-- A variable as the kernel shows it, name and value around the first `=`. -/
def variableOf (text : List Char) : String × String :=
  (String.ofList (text.takeWhile (· ≠ '=')), String.ofList ((text.dropWhile (· ≠ '=')).drop 1))

/-- The variables in the text that the kernel shows of them, each behind the one before and a NUL. -/
def environmentOf (text : List Char) : Environment :=
  ((Text.pieces (· = '\x00') text).filter (!·.isEmpty)).map variableOf

/-- The process's environment. -/
def readEnvironment : IO Environment := do
  let bytes ← IO.FS.readBinFile "/proc/self/environ"
  return environmentOf (Utf8.lossy bytes.toList)

/-- Those of the named files that can be read. -/
def readFiles (names : List String) : IO Settings.Directory :=
  names.filterMapM fun (name : String) => do
    try return some (name, ← IO.FS.readFile name)
    catch _ => return none

/-- The files that the agent may ask for. -/
def wantedFiles (environment : Environment) (args : List String) : List String :=
  let config :=
    match CommandLine.AgentOptions.ofArguments environment args with
    | .ok options => options.config
    | .error _ => none
  Settings.envFileName :: (config.map Settings.candidates).getD []

end ExecWatch.Main

def main (args : List String) : IO UInt32 := do
  let environment ← ExecWatch.Main.readEnvironment
  let files ← ExecWatch.Main.readFiles (ExecWatch.Main.wantedFiles environment args)
  match ExecWatch.Agent.run files environment args with
  | .ok ended =>
    (← IO.getStdout).putStr ended.output
    (← IO.getStderr).putStr ended.errors
    return UInt32.ofNat ended.code
  | .error _ =>
    (← IO.getStderr).putStr "error: invalid arguments\n"
    return 2
