import ExecWatch.Text.Hex
import ExecWatch.Yaml.Lexer.State

/-!
# Quoted and plain scalars

Scalars that stand in the flow of the text. Where such a scalar goes on in another line, the blanks
around the break are dropped and the break is folded: a single one to a space, several to one less.
-/

namespace ExecWatch.Yaml

/-- A scalar under way: its text, and the blanks and breaks behind it that count only if more
follows. -/
structure Folding where
  text : List Char := []
  blanks : List Char := []
  /-- A break was passed. -/
  broken : Bool := false
  /-- Breaks after the first. -/
  breaks : Nat := 0

namespace Folding

/-- The text with what stands for the blanks and breaks behind it. -/
def settle (f : Folding) : Folding :=
  let gap :=
    if f.broken then if f.breaks = 0 then [' '] else List.replicate f.breaks '\n'
    else f.blanks
  { text := f.text ++ gap }

def add (f : Folding) (c : Char) : Folding := { f with text := f.text ++ [c] }

end Folding

namespace Lex

/-! ## Escapes -/

/-- The character that one behind a backslash stands for. -/
def escaped? : Char → Option Char
  | '0' => some '\x00'
  | 'a' => some '\x07'
  | 'b' => some '\x08'
  | 't' | '\t' => some '\t'
  | 'n' => some '\n'
  | 'v' => some '\x0b'
  | 'f' => some '\x0c'
  | 'r' => some '\r'
  | 'e' => some '\x1b'
  | ' ' => some ' '
  | '\x22' => some '\x22'
  | '/' => some '/'
  | '\\' => some '\\'
  | 'N' => some '\u0085'
  | '_' => some '\u00a0'
  | 'L' => some '\u2028'
  | 'P' => some '\u2029'
  | _ => none

/-- Digits of the number behind a backslash and a letter. -/
def escapeDigits? : Char → Option Nat
  | 'x' => some 2
  | 'u' => some 4
  | 'U' => some 8
  | _ => none

/-- The number of `n` hexadecimal digits, after `value`. -/
def hexNumber : (n value : Nat) → Lex Nat
  | 0, value => return value
  | n + 1, value => do
    match Hex.value? (← peek) with
    | some d =>
      skip
      hexNumber n (16 * value + d)
    | none => malformed

/-- A backslash and what it escapes. -/
def escape : Lex Char := do
  skip
  let c ← peek
  skip
  match escapeDigits? c with
  | some n =>
    let value ← hexNumber n 0
    require (value.isValidChar)
    return Char.ofNat value
  | none =>
    match escaped? c with
    | some c => return c
    | none => malformed

/-! ## Quoted scalars -/

/-- The characters up to a blank, a break or the closing quote. True when they end in an escaped
break. -/
def quotedRun (single : Bool) : (fuel : Nat) → Folding → Lex (Folding × Bool)
  | 0, _ => malformed
  | fuel + 1, f => do
    let c ← peek
    if isBlankOrBreakOrEnd c then return (f, false)
    else if single then
      if c = '\'' then
        if (← peekAt 1) = '\'' then
          skipN 2
          quotedRun single fuel (f.add '\'')
        else return (f, false)
      else
        skip
        quotedRun single fuel (f.add c)
    else if c = '\x22' then return (f, false)
    else if c = '\\' then
      if isBreak (← peekAt 1) then
        skip
        skipBreak
        return (f, true)
      else
        let c ← escape
        quotedRun single fuel (f.add c)
    else
      skip
      quotedRun single fuel (f.add c)

/-- Blanks and breaks inside a quoted scalar. After an escaped break, blanks are dropped and further
breaks are kept. -/
def quotedBlanks (escapedBreak : Bool) : (fuel : Nat) → Folding → Lex Folding
  | 0, _ => malformed
  | fuel + 1, f => do
    let c ← peek
    if isBlank c then
      if f.broken || escapedBreak then
        let s ← get
        require (!(c = '\t' && s.column < s.indent))
        skipBlank
        quotedBlanks escapedBreak fuel f
      else
        skipBlank
        quotedBlanks escapedBreak fuel { f with blanks := f.blanks ++ [c] }
    else if isBreak c then
      skipBreak
      if f.broken || escapedBreak then
        quotedBlanks escapedBreak fuel { f with breaks := f.breaks + 1 }
      else quotedBlanks escapedBreak fuel { f with blanks := [], broken := true }
    else return f

/-- The gap after an escaped break is the further breaks alone. -/
def settleQuoted (escapedBreak : Bool) (f : Folding) : Folding :=
  if escapedBreak then { text := f.text ++ List.replicate f.breaks '\n' } else f.settle

/-- The rest of a quoted scalar, up to its closing quote. -/
def quotedText (single : Bool) : (fuel : Nat) → Folding → Lex (List Char)
  | 0, _ => malformed
  | fuel + 1, f => do
    require (!(← atAnyDocumentMark))
    require (!isEnd (← peek))
    let s ← get
    require (s.indent ≤ s.column)
    let (f, escapedBreak) ← quotedRun single (← Lex.fuel) f
    if (← peek) = (if single then '\'' else '\x22') then return f.text
    let f ← quotedBlanks escapedBreak (← Lex.fuel) f
    quotedText single fuel (settleQuoted escapedBreak f)

/-- A quoted scalar and the blanks behind it, where only certain things may follow. -/
def quotedScalar (single : Bool) : Lex Unit := do
  saveKey
  forbidKey
  let start ← get
  skip
  let text ← quotedText single (← Lex.fuel) {}
  skip
  let _ ← skipBlanks true
  let c ← peek
  let s ← get
  let inFlow := !s.flow.isEmpty
  require (isBreakOrEnd c || (inFlow && (c = ',' || c = '\x7d' || c = ']')) ||
    (c = ':' && (inFlow || start.line = s.line)))
  skipToToken (← Lex.fuel)
  modify fun s => { s with adjacentAt := some s.index }
  pushAt start.column (.scalar false (String.ofList text))

/-! ## Plain scalars -/

/-- The character ahead, no blank or break, can go on a plain scalar. -/
def plainGoesOn : Lex Bool := do
  let c ← peek
  let next ← peekAt 1
  let inFlow ← inFlow
  if c = ':' then return !(isBlankOrBreakOrEnd next || (inFlow && isFlow next))
  else return !(inFlow && isFlow c)

/-- The characters up to a blank, a break, or what ends a plain scalar. -/
def plainRun : (fuel : Nat) → Folding → Lex Folding
  | 0, _ => malformed
  | fuel + 1, f => do
    let c ← peek
    if !isBlankOrBreakOrEnd c && (← plainGoesOn) then
      skip
      plainRun fuel (f.add c)
    else return f

/-- Blanks and breaks behind the text of a plain scalar. A tab may not indent what follows. -/
def plainBlanks (indent : Int) : (fuel : Nat) → Folding → Lex Folding
  | 0, _ => malformed
  | fuel + 1, f => do
    let c ← peek
    if isBlank c then
      let s ← get
      if !s.blankLine then
        skipBlank
        plainBlanks indent fuel { f with blanks := f.blanks ++ [c] }
      else if s.column < indent && c = '\t' then
        let _ ← skipBlanks true
        require (isBreak (← peek))
        plainBlanks indent fuel f
      else
        skipBlank
        plainBlanks indent fuel f
    else if isBreak c then
      let s ← get
      skipBreak
      if s.blankLine then plainBlanks indent fuel { f with breaks := f.breaks + 1 }
      else plainBlanks indent fuel { f with blanks := [], broken := true }
    else return f

/-- The rest of a plain scalar. -/
def plainText (indent : Int) : (fuel : Nat) → Folding → Lex Folding
  | 0, _ => malformed
  | fuel + 1, f => do
    let c ← peek
    if (← atAnyDocumentMark) || c = '#' then return f
    let inFlow ← inFlow
    require (!(inFlow && c = '-' && isFlow (← peekAt 1)))
    let f ←
      if !isBlankOrBreakOrEnd c && (← plainGoesOn) then plainRun (← Lex.fuel) f.settle
      else pure f
    let c ← peek
    if !(isBlank c || isBreak c) then return f
    let f ← plainBlanks indent (← Lex.fuel) f
    let s ← get
    if !inFlow && s.column < indent then return f
    plainText indent fuel f

/-- A plain scalar. -/
def plainScalar : Lex Unit := do
  saveKey
  forbidKey
  unrollOneColumn (← get).indents
  let start ← get
  let indent := start.indent + 1
  require (!(!start.flow.isEmpty && start.column < indent))
  let f ← plainText indent (← Lex.fuel) {}
  if (← get).blankLine then allowKey
  pushAt start.column (.scalar true (String.ofList f.text))

end Lex

end ExecWatch.Yaml
