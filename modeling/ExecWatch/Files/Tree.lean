import ExecWatch.Files.Path

/-!
# Trees of files

Directories and text files, each at its place: the names that lead to it from the root, without `.`
and `..`. Paths are followed name by name, so every directory on the way must be there.
-/

namespace ExecWatch.Files

/-- Why an operation on files fails. -/
inductive Error where
  | notFound
  | denied
  | alreadyThere
  | notDirectory
  | isDirectory
  | notRegular
deriving Repr, DecidableEq

def Error.message : Error → String
  | .notFound => "No such file or directory (os error 2)"
  | .denied => "Permission denied (os error 13)"
  | .alreadyThere => "File exists (os error 17)"
  | .notDirectory => "Not a directory (os error 20)"
  | .isDirectory => "Is a directory (os error 21)"
  | .notRegular => "the source path is neither a regular file nor a symlink to a regular file"

/-- Where something stands: the names that lead there from the root. -/
abbrev Place := List String

inductive Entry where
  | file (text : String)
  | directory
deriving Repr, DecidableEq

/-- Everything below the root. -/
structure Tree where
  entries : List (Place × Entry) := []
deriving Repr, DecidableEq

namespace Tree

/-- What stands at a place. -/
def entry? (t : Tree) (place : Place) : Option Entry :=
  if place.isEmpty then some .directory else t.entries.lookup place

/-- Puts an entry at a place, over what stands there. -/
def put (t : Tree) (place : Place) (entry : Entry) : Tree :=
  ⟨t.entries.filter (·.1 ≠ place) ++ [(place, entry)]⟩

/-- Follows one name from a place, which must be a directory. -/
def follow (t : Tree) (place : Place) (name : String) : Except Error Place :=
  match t.entry? place with
  | none => .error .notFound
  | some (.file _) => .error .notDirectory
  | some .directory =>
    if name = "." then .ok place
    else if name = ".." then .ok place.dropLast
    else .ok (place ++ [name])

/-- Follows names from a place. -/
def walk (t : Tree) (start : Place) (names : List String) : Except Error Place :=
  names.foldlM t.follow start

/-- Where a path leads from the working directory `dir`. Nothing need stand there. -/
def locate (t : Tree) (dir : Place) (path : String) : Except Error Place :=
  t.walk (if isAbsolute path then [] else dir) (names path)

/-- What a path leads to. -/
def find? (t : Tree) (dir : Place) (path : String) : Option Entry :=
  match t.locate dir path with
  | .ok place => t.entry? place
  | .error _ => none

def isThere (t : Tree) (dir : Place) (path : String) : Bool := (t.find? dir path).isSome

/-! ## Directories -/

/-- Makes the directory to which the names lead. -/
def makeDirectory (t : Tree) (start : Place) (names : List String) : Except Error Tree := do
  let place ← t.walk start names
  match t.entry? place with
  | some _ => throw .alreadyThere
  | none => return t.put place .directory

/-- The names lead to a directory. -/
def isDirectory (t : Tree) (start : Place) (names : List String) : Bool :=
  match t.walk start names with
  | .ok place => t.entry? place = some .directory
  | .error _ => false

/-- The names that lead to what holds the thing they lead to. -/
def parentNames (names : List String) : List String :=
  (names.filter (· ≠ ".")).dropLast

/-- Makes the directory to which the names lead, if it is not there. -/
def ensureDirectory (t : Tree) (start : Place) (names : List String) : Except Error Tree :=
  match t.makeDirectory start names with
  | .ok t => .ok t
  | .error e => if t.isDirectory start names then .ok t else .error e

/-- Makes the directory to which the names lead, and those above it that are not there. -/
def makeDirectories (t : Tree) (start : Place) (names : List String) : Except Error Tree :=
  match t.ensureDirectory start names with
  | .error .notFound =>
    if _h : names = [] then .error .notFound
    else do
      let t ← t.makeDirectories start (parentNames names)
      t.ensureDirectory start names
  | result => result
termination_by names.length
decreasing_by
  have := List.length_filter_le (· ≠ ".") names
  have := List.length_pos_iff.2 ‹¬names = []›
  simp only [parentNames, List.length_dropLast]
  omega

/-- Makes the directory at a path, and those above it. -/
def makePath (t : Tree) (dir : Place) (path : String) : Except Error Tree :=
  t.makeDirectories (if isAbsolute path then [] else dir) (names path)

/-- Takes away the directory at a path with everything in it. -/
def removeAll (t : Tree) (dir : Place) (path : String) : Except Error Tree := do
  let place ← t.locate dir path
  match t.entry? place with
  | none => throw .notFound
  | some (.file _) => throw .notDirectory
  | some .directory => return ⟨t.entries.filter fun e => !place.isPrefixOf e.1⟩

/-! ## Files -/

/-- Writes a file, over the one that is there. -/
def writeFile (t : Tree) (dir : Place) (path text : String) : Except Error Tree := do
  let place ← t.locate dir path
  if t.entry? place = some .directory then throw .isDirectory
  return t.put place (.file text)

/-- Writes a file and makes the directories above it, as far as that works. -/
def plant (t : Tree) (dir : Place) (path text : String) : Tree :=
  let above := (names path).dropLast
  match t.makeDirectories (if isAbsolute path then [] else dir) above with
  | .ok t => (t.writeFile dir path text).toOption.getD t
  | .error _ => t

/-- Copies a file. -/
def copyFile (t : Tree) (dir : Place) (source target : String) : Except Error Tree := do
  match t.entry? (← t.locate dir source) with
  | none => throw .notFound
  | some .directory => throw .notRegular
  | some (.file text) => t.writeFile dir target text

/-- The text of a file. -/
def text? (t : Tree) (dir : Place) (path : String) : Option String :=
  match t.find? dir path with
  | some (.file text) => some text
  | _ => none

/-- What stands below a place, with the names that lead there from it. -/
def below (t : Tree) (place : Place) : List (Place × Entry) :=
  t.entries.filterMap fun (other, entry) =>
    if place.isPrefixOf other && other ≠ place then some (other.drop place.length, entry) else none

end Tree

end ExecWatch.Files
