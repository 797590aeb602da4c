import ExecWatch.Text.Pieces

/-!
# Paths

Paths as text: names between slashes. Joining two paths keeps their text as it is.
-/

namespace ExecWatch.Files

/-- The path starts at the root. -/
def isAbsolute (path : String) : Bool := "/".isPrefixOf path

/-- `part` below `path`. An absolute part stands for itself, and an empty one leaves a slash that the
next part needs no more. -/
def join (path part : String) : String :=
  if isAbsolute part then part
  else if path.isEmpty || path.toList.getLast? = some '/' then path ++ part
  else path ++ "/" ++ part

/-- Joins several parts. -/
def joinAll (path : String) (parts : List String) : String :=
  parts.foldl join path

/-- The names in a path, in order, `.` and `..` among them. -/
def names (path : String) : List String :=
  ((Text.pieces (· = '/') path.toList).filter (!·.isEmpty)).map String.ofList

end ExecWatch.Files
