import ExecWatch.Log.Basic
import ExecWatch.Text.CharClass
import ExecWatch.Text.Pieces

/-!
# Log filters

Which log lines are written. A filter is a list of directives `component=level`, set apart by commas;
a directive may name a level only, which then holds for all components, or a component only, of which
then everything is written. Of the directives for a component the one with the longest name decides.
What follows a slash must stand in the message. Directives that cannot be read are left out with a
warning.
-/

namespace ExecWatch

/-- Up to which level a component is written; without one nothing is. -/
structure Directive where
  /-- What component paths begin with; missing for every component. -/
  name : Option String
  level : Option Level
deriving Repr, DecidableEq

structure Filter where
  directives : List Directive := []
  /-- What stands in the messages. -/
  text : Option String := none
deriving Repr, DecidableEq

namespace Directive

/-- The directive is about a component. -/
def covers (d : Directive) (component : String) : Bool :=
  match d.name with
  | none => true
  | some name => name.toList.isPrefixOf component.toList

/-- How narrow the directive is: the bytes of its name. -/
def weight (d : Directive) : Nat := (d.name.map String.utf8ByteSize).getD 0

/-- Lines of a level pass. -/
def passes (d : Directive) (level : Level) : Bool :=
  match d.level with
  | none => false
  | some highest => level.rank ≤ highest.rank

/-- The directive that is written as `d` goes over one for the same components in `ds`, in its place. -/
def addTo (ds : List Directive) (d : Directive) : List Directive :=
  if ds.any (·.name = d.name) then ds.map fun other => if other.name = d.name then d else other
  else ds ++ [d]

/-! ## Reading -/

/-- Errors only, of all components. -/
def errors : Directive := ⟨none, some .error⟩

/-- A level by its name in any case, `off` among them. -/
def level? (text : List Char) : Option (Option Level) :=
  let name := String.ofList (text.map Char.toUpper)
  if name = "OFF" then some none else (Level.all.find? (·.name = name)).map some

/-- A warning about text that cannot be read. -/
def warning (text : List Char) : String :=
  "invalid logging spec '" ++ String.ofList text ++ "'"

/-- Reads one directive; the error is a warning. -/
def ofText (text : List Char) : Except String Directive :=
  match Text.pieces (· = '=') text with
  | [name] =>
    match level? name with
    | some level => .ok ⟨none, level⟩
    | none => .ok ⟨some (String.ofList name), some .trace⟩
  | [name, level] =>
    let level := Text.trim level
    if level.isEmpty then .ok ⟨some (String.ofList name), some .trace⟩
    else
      match level? level with
      | some level => .ok ⟨some (String.ofList name), level⟩
      | none => .error (warning level)
  | _ => .error (warning text)

end Directive

namespace Filter

/-- The texts of the directives. -/
def directiveTexts (text : List Char) : List (List Char) :=
  ((Text.pieces (· = ',') text).map Text.trim).filter (!·.isEmpty)

/-- Reads a filter, with the warnings about what is left out. -/
def ofText (text : String) : Filter × List String :=
  match Text.pieces (· = '/') text.toList with
  | directives :: rest =>
    if 1 < rest.length then ({}, [Directive.warning text.toList ++ " (too many '/'s)"])
    else
      let read := (directiveTexts directives).map Directive.ofText
      let kept := read.filterMap Except.toOption
      let warnings := read.filterMap fun
        | .error warning => some warning
        | .ok _ => none
      (⟨kept.foldl Directive.addTo [], rest.head?.map String.ofList⟩, warnings)
  | [] => ({}, [])

/-- The directive that decides on a component: the narrowest, of several the last. -/
def deciding? (f : Filter) (component : String) : Option Directive :=
  let directives := if f.directives.isEmpty then [Directive.errors] else f.directives
  (directives.filter (·.covers component)).foldl (fun best d =>
    match best with
    | none => some d
    | some b => if b.weight ≤ d.weight then some d else some b) none

/-- A log line is written. -/
def passes (f : Filter) (l : LogLine) : Bool :=
  ((f.deciding? l.component.path).any (·.passes l.level)) &&
    f.text.all fun text => Text.holds text.toList l.message.toList

end Filter

namespace LogLine

/-- Sets the lines of a text after the first in by four blanks. -/
def indented (text : List Char) : List Char :=
  text.flatMap fun c => if c = '\n' then '\n' :: List.replicate 4 ' ' else [c]

/-- The line as it is written: level, component and message. -/
def render (l : LogLine) : String :=
  let level := l.level.name
  "[" ++ level ++ String.ofList (List.replicate (5 - level.length) ' ') ++ " " ++ l.component.path ++
    "] " ++ String.ofList (indented l.message.toList) ++ "\n"

end LogLine

end ExecWatch
