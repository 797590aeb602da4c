import ExecWatch.Yaml.Lexer.State

/-!
# Block scalars

Scalars that stand as lines of their own below `|` or `>`, indented deeper than what they belong to.
A literal scalar keeps its breaks; a folded one joins lines that do not start with a blank. What
happens to the breaks at the end is said behind the `|` or `>`.
-/

namespace ExecWatch.Yaml

/-- What happens to the breaks at the end. -/
inductive Chomping where
  | clip
  | strip
  | keep
deriving Repr, DecidableEq

/-- A block scalar under way: its text, the break behind its last line, and the empty lines after
that; whether the last line starts with a blank. -/
structure BlockText where
  text : List Char := []
  lastBreak : Bool := false
  breaks : Nat := 0
  blankStart : Bool := false

namespace Lex

/-- The chomping indicator, if there is one. -/
def chomping? : Lex (Option Chomping) := do
  match ← peek with
  | '+' =>
    skip
    return some .keep
  | '-' =>
    skip
    return some .strip
  | _ => return none

/-- The indentation indicator, 0 if there is none. -/
def indentation : Lex Nat := do
  let c ← peek
  if c.isDigit then
    require (c ≠ '0')
    skip
    return c.toNat - '0'.toNat
  else return 0

/-- The indicators behind `|` or `>`, in either order. -/
def blockHeader : Lex (Chomping × Nat) := do
  match ← chomping? with
  | some c => return (c, ← indentation)
  | none =>
    let n ← indentation
    if n = 0 then return (.clip, 0) else return ((← chomping?).getD .clip, n)

/-- Passes at most `n` spaces. -/
def skipSpaces : (n : Nat) → Lex Unit
  | 0 => pure ()
  | n + 1 => do
    if (← peek) = ' ' then
      skipBlank
      skipSpaces n

/-- Passes empty lines and the indentation of the next; the number of lines passed. -/
def skipEmptyLines (indent : Nat) : (fuel breaks : Nat) → Lex Nat
  | 0, breaks => return breaks
  | fuel + 1, breaks => do
    skipSpaces (indent - (← get).column)
    if isBreak (← peek) then
      skipBreak
      skipEmptyLines indent fuel (breaks + 1)
    else return breaks

/-- Passes empty lines and the blanks in front of the first other line; the number of lines passed and
the deepest column reached. -/
def findIndent : (fuel breaks deepest : Nat) → Lex (Nat × Nat)
  | 0, breaks, deepest => return (breaks, deepest)
  | fuel + 1, breaks, deepest => do
    skipSpaces (← get).rest.length
    let deepest := max deepest (← get).column
    if isBreak (← peek) then
      skipBreak
      findIndent fuel (breaks + 1) deepest
    else return (breaks, deepest)

/-- The breaks that a number stands for. -/
def breaksText (n : Nat) : List Char := List.replicate n '\n'

/-- The lines of a block scalar with the given indentation. -/
def blockLines (literal : Bool) (indent : Nat) : (fuel : Nat) → BlockText → Lex BlockText
  | 0, b => return b
  | fuel + 1, b => do
    let s ← get
    let c ← peek
    if s.column ≠ indent || isEnd c || (indent = 0 && (← atDocumentMark '.')) then return b
    let folds := !literal && b.lastBreak && !b.blankStart && !isBlank c
    let gap :=
      if folds then (if b.breaks = 0 then [' '] else breaksText b.breaks)
      else (if b.lastBreak then ['\n'] else []) ++ breaksText b.breaks
    let line ← takeWhile (!isBreakOrEnd ·)
    let b := { text := b.text ++ gap ++ line.toList, blankStart := isBlank c : BlockText }
    if isEnd (← peek) then return b
    skipBreak
    let breaks ← skipEmptyLines indent (← Lex.fuel) 0
    blockLines literal indent fuel { b with lastBreak := true, breaks }

/-- The text of a block scalar without any line. -/
def emptyBlock (chomping : Chomping) (sameLine : Bool) (firstBreak : Bool) (breaks : Nat) :
    List Char :=
  let first := if firstBreak then ['\n'] else []
  match chomping with
  | .strip => []
  | .clip => if sameLine then [] else first
  | .keep => if sameLine then [] else if breaks = 0 then first else breaksText breaks

/-- A block scalar. -/
def blockScalar (literal : Bool) : Lex Unit := do
  saveKey
  allowKey
  let start ← get
  skip
  unrollOneColumn (← get).indents
  let (chomping, increment) ← blockHeader
  let _ ← skipBlanks true
  require (isBreakOrEnd (← peek))
  let firstBreak := isBreak (← peek)
  skipBreak
  require ((← peek) ≠ '\t')
  let outer := (← get).indent
  let (breaks, indent) ←
    if 0 < increment then do
      let indent := if 0 ≤ outer then outer.toNat + increment else increment
      pure (← skipEmptyLines indent (← Lex.fuel) 0, indent)
    else do
      let (breaks, deepest) ← findIndent (← Lex.fuel) 0 0
      let indent := max deepest (outer + 1).toNat
      pure (breaks, if 0 < outer then max indent 1 else indent)
  let s ← get
  if isEnd (← peek) then
    let text := emptyBlock chomping (s.line = start.line) firstBreak breaks
    pushAt start.column (.scalar false (String.ofList text))
  else
    require (!(s.column < indent && outer < s.column))
    let b ← blockLines literal indent (← Lex.fuel) { breaks }
    let s ← get
    let atEnd := isEnd (← peek)
    let clipped :=
      (if b.lastBreak then ['\n'] else []) ++
        (if atEnd && max indent 1 ≤ s.column then ['\n'] else [])
    let tail :=
      match chomping with
      | .strip => []
      | .clip => clipped
      | .keep => clipped ++ breaksText b.breaks
    pushAt start.column (.scalar false (String.ofList (b.text ++ tail)))

end Lex

end ExecWatch.Yaml
