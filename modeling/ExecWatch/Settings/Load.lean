import ExecWatch.Settings.EnvFile
import ExecWatch.Settings.File
import ExecWatch.Settings.KeyPath
import ExecWatch.Settings.OfValue
import ExecWatch.Settings.Validation

/-!
# Loading settings

Settings come from three layers: the defaults, the file that is asked for, and the environment, to
which a file of variables in the working directory has added those that were not set. Each layer goes
over the one before it, and the whole is read and checked.
-/

namespace ExecWatch.Settings

/-- Why settings cannot be loaded. -/
inductive LoadError where
  | file (e : FileError)
  | mismatch (e : Mismatch)
  | invalid (problems : List Problem)

def LoadError.message : LoadError → String
  | .file e => e.message
  | .mismatch e => e.message
  | .invalid problems => report problems

/-- Name of the file of variables. -/
def envFileName : String := ".env"

/-- The environment with what the file of variables adds. -/
def fullEnvironment (directory : Directory) (environment : Environment) : Environment :=
  match directory.lookup envFileName with
  | some file => EnvFile.addTo environment file
  | none => environment

/-- The members of the file that is asked for, if any. -/
def fileMembers (directory : Directory) : Option String → Except FileError Members
  | none => .ok []
  | some path => readFile directory path

/-- Everything that is set, later layers over earlier ones. -/
def gather (file : Members) (environment : Environment) : Members :=
  (Members.overlay [] file).overlay (ofEnvironment environment)

/-- Settings without problems. -/
def validate (s : Settings) : Except LoadError Settings :=
  if s.problems.isEmpty then .ok s else .error (.invalid s.problems)

/-- Loads the settings of a program that runs in `directory` with `environment`. -/
def load (directory : Directory) (path : Option String) (environment : Environment) :
    Except LoadError Settings := do
  let file ← (fileMembers directory path).mapError .file
  let members := gather file (fullEnvironment directory environment)
  let settings ← (ofMembers members).mapError .mismatch
  settings.validate

end ExecWatch.Settings
