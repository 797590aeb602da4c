import ExecWatch.Number.Integer
import ExecWatch.Settings.Value

/-!
# Key paths

A path to a value among settings: a key, then keys behind points and indices in brackets. Putting a
value at a path makes the containers on the way, in place of anything else that stands there. A name
that is no path is a key.
-/

namespace ExecWatch.Settings

/-- A step down from a value: to a member, or to an item; negative indices count from the end. -/
inductive KeyStep where
  | member (key : String)
  | item (index : Int)
deriving Repr, DecidableEq

/-- A path: the first key, and the steps from there. -/
structure KeyPath where
  root : String
  steps : List KeyStep
deriving Repr, DecidableEq

namespace KeyPath

/-! ## Reading -/

/-- The character may stand in a key of a path. -/
def isKeyChar (c : Char) : Bool :=
  c.isAlphanum || c = '_' || c = '-' || c = ' '

def isSpace (c : Char) : Bool := c = ' ' || c = '\t'

/-- Reads steps up to the end of the name. -/
def readSteps : (fuel : Nat) → List Char → Option (List KeyStep)
  | _, [] => some []
  | fuel + 1, '.' :: rest => do
    let key := rest.takeWhile isKeyChar
    if key.isEmpty then none
    else return .member (String.ofList key) :: (← readSteps fuel (rest.dropWhile isKeyChar))
  | fuel + 1, '[' :: rest => do
    let rest := rest.dropWhile isSpace
    let index := rest.takeWhile fun c => c.isDigit || c = '-'
    let rest := (rest.drop index.length).dropWhile isSpace
    match rest with
    | ']' :: rest => return .item (← Integer.signed? 10 64 index) :: (← readSteps fuel rest)
    | _ => none
  | _, _ => none

/-- The path that a name spells, if it is well formed. -/
def parse? (name : List Char) : Option KeyPath := do
  let root := name.takeWhile isKeyChar
  if root.isEmpty then none
  else return ⟨String.ofList root, ← readSteps name.length (name.dropWhile isKeyChar)⟩

/-- The path that a name stands for. -/
def ofName (name : String) : KeyPath :=
  (parse? name.toList).getD ⟨name, []⟩

/-! ## Putting values -/

/-- Changes the item at the given index of a list, which is made long enough; an index before the
front is ignored. -/
def updateItem (index : Int) (f : Value → Value) (value : Value) : Value :=
  let items := value.items
  let place := if index < 0 then items.length + index else index
  if place < 0 then .list value.listSource items
  else
    let items := items ++ List.replicate (place.toNat + 1 - items.length) (.null none)
    .list value.listSource (items.modify place.toNat f)

/-- Puts `new` at the end of the steps that start from a value. -/
def putBelow (new : Value) : List KeyStep → Value → Value
  | [], _ => new
  | [.member key], value => value.onMembers fun members => Members.merge members key new
  | .member key :: steps, value =>
    value.onMembers fun members => Members.update key (.null none) (putBelow new steps) members
  | .item index :: steps, value => updateItem index (putBelow new steps) value

/-- Puts a value at a path. -/
def put (path : KeyPath) (new : Value) (members : Members) : Members :=
  if path.steps.isEmpty then Members.merge members path.root new
  else Members.update path.root (.null none) (putBelow new path.steps) members

end KeyPath

/-- Puts each entry of a source over the members, one after the other, at the path that its name stands
for. -/
def Members.overlay (members : Members) (entries : List (String × Value)) : Members :=
  entries.foldl (fun members e => (KeyPath.ofName e.1).put e.2 members) members

end ExecWatch.Settings
