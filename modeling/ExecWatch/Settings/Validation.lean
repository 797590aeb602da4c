import ExecWatch.Pattern.Glob
import ExecWatch.Settings.Basic

/-!
# Validation

Settings are checked as a whole and every problem is reported, in the order of the settings and,
within the rules, of the rules.
-/

namespace ExecWatch

/-- What is wrong with a rule. -/
inductive Rule.Problem where
  | noName
  | type (given : String)
  | severity (given : String)
  | target (given : String) (cause : Glob.Error)
deriving Repr, DecidableEq

namespace Rule

def Problem.message : Problem → String
  | .noName => "name is required"
  | .type given =>
    "type " ++ Text.quoted given ++ " must be one of: " ++ ", ".intercalate types
  | .severity given =>
    "severity " ++ Text.quoted given ++ " must be one of: " ++ ", ".intercalate severities
  | .target given cause =>
    "target " ++ Text.quoted given ++ " is not a valid glob: " ++ cause.message

/-- The problem with the target: only the targets of rules that are evaluated are globs. -/
def targetProblems (r : Rule) : List Problem :=
  if r.isProcess && !r.target.isEmpty then
    match Glob.compile r.target with
    | .ok _ => []
    | .error cause => [.target r.target cause]
  else []

/-- Everything that is wrong with a rule. -/
def problems (r : Rule) : List Problem :=
  (if r.name.isEmpty then [.noName] else []) ++
    (if r.type ∈ types then [] else [.type r.type]) ++
    (if r.severity ∈ severities then [] else [.severity r.severity]) ++
    r.targetProblems

end Rule

/-- What is wrong with the settings. -/
inductive Settings.Problem where
  | logLevel (given : String)
  | noCapacity
  | rule (index : Nat) (problem : Rule.Problem)
deriving Repr, DecidableEq

namespace Settings

/-- The log levels that may be set. -/
def logLevels : List String := ["debug", "info", "warn", "error"]

def Problem.message : Problem → String
  | .logLevel given =>
    "log_level " ++ Text.quoted given ++ " must be one of: " ++ ", ".intercalate logLevels
  | .noCapacity => "alert_channel_capacity must be greater than zero"
  | .rule index problem => "rules[" ++ toString index ++ "]: " ++ problem.message

def logLevelProblems (s : Settings) : List Problem :=
  match s.logLevel with
  | some level => if level ∈ logLevels then [] else [.logLevel level]
  | none => []

def capacityProblems (s : Settings) : List Problem :=
  if s.channelCapacity = 0 then [.noCapacity] else []

/-- The problems of rules, the first of which has index `index`. -/
def ruleProblems : (index : Nat) → List Rule → List Problem
  | _, [] => []
  | index, r :: rest => r.problems.map (.rule index) ++ ruleProblems (index + 1) rest

/-- Everything that is wrong with the settings. -/
def problems (s : Settings) : List Problem :=
  s.logLevelProblems ++ s.capacityProblems ++ ruleProblems 0 s.rules

/-- The report of problems. -/
def report (problems : List Problem) : String :=
  "; ".intercalate (problems.map (·.message))

end Settings

end ExecWatch
