/-!
# Path names

The last element of a path, trailing slashes aside.
-/

namespace ExecWatch.PathName

/-- `path` without the slashes at its end. -/
def trimSlashes (path : List Char) : List Char :=
  (path.reverse.dropWhile (· = '/')).reverse

/-- What stands behind the last slash, all of it when there is none. -/
def afterLastSlash (path : List Char) : List Char :=
  (path.reverse.takeWhile (· ≠ '/')).reverse

/-- The last element of `path`: `.` for the empty path, `/` for one of slashes only. -/
def baseName (path : List Char) : List Char :=
  if path.isEmpty then ['.']
  else
    let trimmed := trimSlashes path
    if trimmed.isEmpty then ['/'] else afterLastSlash trimmed

end ExecWatch.PathName
