import ExecWatch.Files.Tree

/-!
# Commands

Running other programs. What a program does is not known here: a shell says what it prints, how it
leaves the tree of files, and how it exits.
-/

namespace ExecWatch

open Files

/-- A command line, run in a directory; `environment` goes over what is set already. -/
structure Command where
  program : String
  directory : String
  arguments : List String
  environment : List (String × String) := []
deriving Repr, DecidableEq

namespace Command

/-- How a command ends. -/
inductive Exit where
  | code (n : Nat)
  /-- The kernel killed it. -/
  | killed
deriving Repr, DecidableEq

namespace Exit

def isSuccess (e : Exit) : Bool := e = .code 0

def describe : Exit → String
  | .code n => "exit status: " ++ toString n
  | .killed => "signal: 9 (SIGKILL)"

end Exit

/-- What a command that could be run did. -/
structure Effect where
  exit : Exit
  printed : String
  tree : Tree
deriving Repr, DecidableEq

/-- What commands do on a tree of files; the error is why a command cannot be run. -/
abbrev Shell := Command → Tree → Except Files.Error Effect

end Command

end ExecWatch
