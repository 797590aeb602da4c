import ExecWatch.CommandLine.Agent
import ExecWatch.Engine.Start
import ExecWatch.Log.Filter
import ExecWatch.Settings.Load
import ExecWatch.Telemetry.Endpoint

/-!
# The agent

The whole program: it reads its command line, loads its settings, sets up logging and metrics, and
starts the engine. This build embeds no probe, so every start ends with an error.
-/

namespace ExecWatch.Agent

/-- How a program ended: its exit code and what it wrote. -/
structure Ended where
  code : Nat
  output : String := ""
  errors : String := ""
deriving Repr, DecidableEq

/-- The variable that holds a filter of log lines. -/
def filterVariable : String := "RUST_LOG"

/-- One of several causes, which are numbered from 0. -/
def numberedCause (i : Nat) (cause : String) : String :=
  let number := toString i
  String.ofList (List.replicate (5 - number.length) ' ') ++ number ++ ": " ++
    String.ofList (cause.toList.flatMap fun c => if c = '\n' then '\n' :: List.replicate 7 ' ' else [c])

/-- What is written of an error with the given messages, the outermost first. -/
def errorReport : List String → String
  | [] => "Error: \n"
  | [message] => "Error: " ++ message ++ "\n"
  | [message, cause] => "Error: " ++ message ++ "\n\nCaused by:\n    " ++
      String.ofList (LogLine.indented cause.toList) ++ "\n"
  | message :: causes => "Error: " ++ message ++ "\n\nCaused by:\n" ++
      String.intercalate "\n" (causes.mapIdx numberedCause) ++ "\n"

/-- The filter of log lines: the variable's, else that of the settings. -/
def filterText (settings : Settings) (verbose : Bool) (environment : Environment) : String :=
  (environment.lookup filterVariable).getD (settings.logFilter verbose)

/-- Sets metrics up; a failure is only logged. -/
def metricsLines (settings : Settings) (environment : Environment) : List LogLine :=
  match Telemetry.start settings.endpoint environment with
  | (lines, .ok ()) => lines
  | (lines, .error e) => lines ++
      [⟨.warn, .agent, "Failed to initialize metrics: " ++ e.message ++ ": " ++ e.cause⟩]

/-- Runs the agent with settings. -/
def runWith (settings : Settings) (verbose : Bool) (environment : Environment)
    (object : ProbeObject) (h : Host) : Ended :=
  let (filter, warnings) := Filter.ofText (filterText settings verbose environment)
  let (result, activity) := (Engine.start settings object h).outcome
  let lines := (metricsLines settings environment ++ activity.logs).filter filter.passes
  let shown := String.join (warnings.map fun w => "warning: " ++ w ++ ", ignoring it\n") ++
    String.join (lines.map LogLine.render)
  match result with
  | .ok _ => { code := 0, errors := shown }
  | .error e => { code := 1, errors := shown ++ errorReport e.messages }

/-- Runs the agent in a directory, with no probe embedded. A command line that is refused is not run. -/
def run (directory : Settings.Directory) (environment : Environment) (args : List String) :
    Except CommandLine.Refusal Ended :=
  match CommandLine.AgentOptions.ofArguments environment args with
  | .error .versionAsked =>
    .ok { code := 0, output := CommandLine.AgentOptions.program ++ " " ++
      CommandLine.AgentOptions.version ++ "\n" }
  | .error e => .error e
  | .ok options =>
    match Settings.load directory options.config environment with
    | .error e =>
      .ok { code := 1, errors := errorReport ["Failed to load configuration", e.message] }
    | .ok settings =>
      .ok (runWith settings options.verbose (Settings.fullEnvironment directory environment)
        .missing {})

end ExecWatch.Agent
