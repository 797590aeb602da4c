/-!
# Rules

A rule names what to watch for and how severe a hit is. Rules of three types may be configured;
only `PROCESS` rules are evaluated here.
-/

namespace ExecWatch

structure Rule where
  name : String
  type : String
  /-- Glob for the executable; empty for every process. -/
  target : String
  severity : String
deriving Repr, DecidableEq

namespace Rule

/-- The type of the rules that are evaluated. -/
def processType : String := "PROCESS"

/-- The types a rule may have. -/
def types : List String := ["FILE", "NETWORK", processType]

/-- The severities a rule may have. -/
def severities : List String := ["INFO", "WARN", "CRITICAL"]

def isProcess (r : Rule) : Bool := r.type = processType

end Rule

end ExecWatch
