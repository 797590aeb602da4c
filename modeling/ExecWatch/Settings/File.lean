import ExecWatch.Files.Path
import ExecWatch.Settings.Value
import ExecWatch.Yaml.Document

/-!
# Settings files

A settings file holds one YAML document, a mapping, or none. It is found under the name asked for, or
under that name with an extension of YAML files behind it.
-/

namespace ExecWatch.Settings

/-- Why a settings file cannot be used. -/
inductive FileError where
  | notFound (path : String)
  | malformed
  /-- A key that is neither a string nor a whole number. -/
  | unusableKey
deriving Repr, DecidableEq

def FileError.message : FileError → String
  | .notFound path => "configuration file \x22" ++ path ++ "\x22 not found"
  | .malformed => "malformed configuration file"
  | .unusableKey => "unusable key in configuration file"

/-! ## Contents -/

/-- The name that a key stands for. -/
def keyName : Yaml.Node → Except FileError String
  | .string s => .ok s
  | .int n => .ok (toString n)
  | _ => .error .unusableKey

mutual

/-- The value of a node of the file. -/
def ofNode (source : Source) : Yaml.Node → Except FileError Value
  | .null | .invalid => .ok (.null source)
  | .bool b => .ok (.bool source b)
  | .int n => .ok (.int source n)
  | .real text =>
    match Binary64.ofText? text.toList with
    | some x => .ok (.real source x)
    | none => .error .malformed
  | .string s => .ok (.string source s)
  | .sequence items => do return .list source (← ofNodes source items)
  | .mapping members => do return .table source (← ofMembersFrom source [] members)

/-- The values of nodes of the file. -/
def ofNodes (source : Source) : List Yaml.Node → Except FileError (List Value)
  | [] => .ok []
  | node :: rest => do return (← ofNode source node) :: (← ofNodes source rest)

/-- The members of a mapping, put over those that stand before them. -/
def ofMembersFrom (source : Source) (before : Members) :
    List (Yaml.Node × Yaml.Node) → Except FileError Members
  | [] => .ok before
  | (key, node) :: rest => do
    let name ← keyName key
    let value ← ofNode source node
    ofMembersFrom source (before.set name value) rest

end

/-- What the text of a settings file sets. -/
def ofFile (name text : String) : Except FileError Members :=
  match Yaml.read? text with
  | none => .error .malformed
  | some none => .ok []
  | some (some root) => do
    match ← ofNode (.file name) root with
    | .table _ members => return members
    | _ => throw .malformed

/-! ## Names -/

/-- Files by name. -/
abbrev Directory := List (String × String)

/-- The parts of a path between slashes, without those that stand for the place itself. -/
def pathParts (path : String) : List String :=
  (Files.names path).filter (· ≠ ".")

/-- The name of a file in the directory, if the path is relative and leads to one. -/
def fileName? (path : String) : Option String :=
  if Files.isAbsolute path then none
  else
    match pathParts path with
    | [name] => some name
    | _ => none

/-- The extensions that a settings file may have besides those in its name. -/
def extensions : List String := [".yaml", ".yml"]

/-- The names under which the file asked for may be found. -/
def candidates (path : String) : List String :=
  match fileName? path with
  | none => []
  | some name =>
    let isDirectory := ['/'].isSuffixOf path.toList || ['/', '.'].isSuffixOf path.toList
    let exact := if isDirectory then [] else [name]
    exact ++ extensions.map (name ++ ·)

/-- The name and text of the first file found. -/
def findFile (directory : Directory) (path : String) : Except FileError (String × String) :=
  match (candidates path).findSome? fun name => (directory.lookup name).map (name, ·) with
  | some found => .ok found
  | none => .error (.notFound path)

/-- What a file sets; a byte order mark at its front is no part of it. -/
def readFile (directory : Directory) (path : String) : Except FileError Members := do
  let (name, text) ← findFile directory path
  let chars := text.toList
  ofFile name (if chars.head? = some '\uFEFF' then String.ofList chars.tail else text)

end ExecWatch.Settings
