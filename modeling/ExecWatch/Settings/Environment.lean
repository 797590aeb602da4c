import ExecWatch.Number.Integer
import ExecWatch.Settings.Value

/-!
# Settings from the environment

Every variable may set something: its name in lower case, with a point for each `__`, is the path, and
its text is read as a boolean, a whole number of 64 bits, a number, or else a string.
-/

namespace ExecWatch

/-- The variables of a process, names first. -/
abbrev Environment := List (String × String)

namespace Settings

/-- Writes a point for each `__`, from left to right. -/
def pointSeparators : List Char → List Char
  | '_' :: '_' :: rest => '.' :: pointSeparators rest
  | c :: rest => c :: pointSeparators rest
  | [] => []

/-- The name under which a variable sets something. -/
def variableKey (name : String) : String :=
  String.ofList (pointSeparators (Text.lowerCase name).toList)

/-- The value that a variable's text stands for. -/
def variableValue (text : String) : Value :=
  let lower := Text.lowerCase text
  let source := some Source.environment
  if lower = "true" then .bool source true
  else if lower = "false" then .bool source false
  else
    match Integer.signed? 10 64 text.toList with
    | some n => .int source n
    | none =>
      match Binary64.ofText? text.toList with
      | some x => .real source x
      | none => .string source text

/-- What the environment sets. -/
def ofEnvironment (environment : Environment) : List (String × Value) :=
  environment.map fun (name, text) => (variableKey name, variableValue text)

end Settings

end ExecWatch
