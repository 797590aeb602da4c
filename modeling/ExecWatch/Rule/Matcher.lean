import ExecWatch.Exec.Info
import ExecWatch.Pattern.Glob
import ExecWatch.Rule.Basic
import ExecWatch.Rule.PathName

/-!
# Matching rules

A compiled rule matches a name when its glob matches the name's last path element or the whole
name; a rule without a glob matches everything. Of several rules the first that matches wins, and an
exec's path is tried on all rules before its task name.
-/

namespace ExecWatch

/-- A compiled rule. -/
structure ProcessRule where
  name : String
  severity : String
  pattern : Option Regex
deriving Repr, DecidableEq

namespace ProcessRule

/-- Why a rule cannot be compiled. -/
structure Error where
  rule : String
  cause : Glob.Error
deriving Repr, DecidableEq

def Error.message (e : Error) : String := "Invalid target for rule " ++ e.rule

def compile (r : Rule) : Except Error ProcessRule :=
  if r.target.isEmpty then .ok ⟨r.name, r.severity, none⟩
  else
    match Glob.compile r.target with
    | .ok pattern => .ok ⟨r.name, r.severity, some pattern⟩
    | .error cause => .error ⟨r.name, cause⟩

/-- The rule matches the path or task name. -/
def isMatch (r : ProcessRule) (name : List Char) : Bool :=
  match r.pattern with
  | none => true
  | some pattern => pattern.isMatch (PathName.baseName name) || pattern.isMatch name

end ProcessRule

/-- Compiled rules in order of their configuration. -/
structure Matcher where
  rules : List ProcessRule
deriving Repr, DecidableEq

namespace Matcher

/-- Compiles the process rules among `rules`; the first that cannot be compiled is the error. -/
def ofRules (rules : List Rule) : Except ProcessRule.Error Matcher := do
  return ⟨← (rules.filter (·.isProcess)).mapM ProcessRule.compile⟩

/-- The first rule that matches the name. -/
def matchName (m : Matcher) (name : String) : Option ProcessRule :=
  m.rules.find? (·.isMatch name.toList)

/-- The rule for an exec: by its path, else by its task name. -/
def matchExec (m : Matcher) (info : ExecInfo) : Option ProcessRule :=
  (m.matchName info.filename).or (m.matchName info.comm)

end Matcher

end ExecWatch
