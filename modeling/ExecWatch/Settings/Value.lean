import ExecWatch.Number.Binary64
import ExecWatch.Text.LowerCase

/-!
# Values of settings

What is gathered from the sources of settings before they are read: a tree of values, each of which
knows where it comes from. A later source is put over an earlier one key by key: tables are merged,
anything else replaces what stood there. Keys are in lower case, except in lists.
-/

namespace ExecWatch.Settings

/-- Where a value comes from. -/
inductive Source where
  | environment
  | file (name : String)
deriving Repr, DecidableEq

/-- How messages name a source. -/
def Source.text : Source → String
  | .environment => "the environment"
  | .file name => name

/-- A value; a container that was put together here comes from no source. -/
inductive Value where
  | null (source : Option Source)
  | bool (source : Option Source) (b : Bool)
  | int (source : Option Source) (n : Int)
  | real (source : Option Source) (x : Binary64)
  | string (source : Option Source) (s : String)
  | list (source : Option Source) (items : List Value)
  | table (source : Option Source) (members : List (String × Value))
deriving Inhabited

/-- The members of a table, in the order in which they are put over others. A program may take them in
any other; that counts only where two of them meet, with keys that are alike in lower case or with paths
that go the same way. -/
abbrev Members := List (String × Value)

namespace Members

/-- Changes the member of the given key, which is `dflt` if it is missing. -/
def update (key : String) (dflt : Value) (f : Value → Value) : Members → Members
  | [] => [(key, f dflt)]
  | (k, v) :: rest => if k = key then (k, f v) :: rest else (k, v) :: update key dflt f rest

/-- Sets the member of the given key. -/
def set (key : String) (value : Value) (members : Members) : Members :=
  update key value (fun _ => value) members

end Members

namespace Value

/-- An empty table. -/
def empty : Value := .table none []

/-- The table itself, or an empty one in place of anything else. -/
def toTable : Value → Value
  | .table source members => .table source members
  | _ => empty

/-- The items of a list, or none of anything else. -/
def items : Value → List Value
  | .list _ items => items
  | _ => []

/-- Where a list comes from; a list that takes the place of something else comes from nowhere. -/
def listSource : Value → Option Source
  | .list source _ => source
  | _ => none

/-- Changes the members of a table, which takes the place of anything else. -/
def onMembers (f : Members → Members) (value : Value) : Value :=
  match value.toTable with
  | .table source members => .table source (f members)
  | other => other

end Value

mutual

/-- Puts a value over the member of the given key. A table is merged member by member. -/
def Members.merge (members : Members) (key : String) : Value → Members
  | .table _ incoming =>
    Members.update (Text.lowerCase key) Value.empty (fun old => Value.mergeAll old incoming) members
  | value => Members.set (Text.lowerCase key) value members

/-- Puts the members of a table over a value; a value that is no table gives way to the first. -/
def Value.mergeAll (old : Value) : Members → Value
  | [] => old
  | (key, value) :: rest =>
    Value.mergeAll (old.onMembers fun members => Members.merge members key value) rest

end

end ExecWatch.Settings
