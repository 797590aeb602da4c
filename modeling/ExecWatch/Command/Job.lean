import ExecWatch.Command.Basic

/-!
# Programs that work on files

A program changes files, runs commands and prints. It stops at its first error, with everything done
before it in place.
-/

namespace ExecWatch

open Files

/-- The files a program works on, what it printed, and the commands it ran, in order. -/
structure Job where
  tree : Tree
  output : String := ""
  errors : String := ""
  ran : List Command := []
deriving Repr, DecidableEq

/-- A step of a program that works on files and stops at its first error. -/
abbrev Work (ε : Type) := ExceptT ε (StateM Job)

namespace Work

variable {ε : Type}

/-- What a program did on a tree of files, and how it ended. -/
def outcome {α : Type} (work : Work ε α) (tree : Tree) : Except ε α × Job :=
  (ExceptT.run work).run { tree }

/-- Prints a line. -/
def say (line : String) : Work ε Unit :=
  modify fun j => { j with output := j.output ++ line ++ "\n" }

/-- Prints a line beside the output. -/
def warn (line : String) : Work ε Unit :=
  modify fun j => { j with errors := j.errors ++ line ++ "\n" }

/-- Changes the tree; a failure becomes the program's error. -/
def files (change : Tree → Except Files.Error Tree) (onError : Files.Error → ε) : Work ε Unit := do
  match change (← get).tree with
  | .ok tree => modify fun j => { j with tree }
  | .error e => throw (onError e)

/-- Runs a command, if it can be run. -/
def execute (shell : Command.Shell) (c : Command) : Work ε (Except Files.Error Command.Exit) := do
  match shell c (← get).tree with
  | .ok effect =>
    modify fun j => { j with
      tree := effect.tree, output := j.output ++ effect.printed, ran := j.ran ++ [c] }
    return .ok effect.exit
  | .error e => return .error e

end Work

end ExecWatch
