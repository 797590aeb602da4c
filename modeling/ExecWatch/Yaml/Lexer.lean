import ExecWatch.Yaml.Lexer.Block
import ExecWatch.Yaml.Lexer.Quoted
import ExecWatch.Yaml.Lexer.Tag

/-!
# The lexer

Takes a text apart into tokens. Each step passes what stands between tokens, closes the indentations
that the next token's column leaves, and puts that token.
-/

namespace ExecWatch.Yaml

namespace Lex

/-! ## Documents -/

/-- The end of the text, which counts as a new line. A key that must be followed by `:` cannot stand
here. -/
def streamEnd : Lex Unit := do
  modify fun s => if s.column = 0 then s else { s with column := 0, line := s.line + 1 }
  let s ← get
  require (!(s.key :: s.outerKeys).any fun k => k.possible && k.required)
  unrollIndent (-1)

def documentMark (token : Token) : Lex Unit := do
  unrollIndent (-1)
  removeKey
  forbidKey
  skipN 3
  pushAt 0 token

/-! ## Flow collections -/

def flowStart (kind : FlowKind) (token : Token) : Lex Unit := do
  saveKey
  rollOneColumn
  enterFlow kind
  allowKey
  let column := (← get).column
  skip
  let _ ← skipBlanks true
  pushAt column token

def flowEnd (token : Token) : Lex Unit := do
  removeKey
  leaveFlow
  forbidKey
  let column := (← get).column
  skip
  let _ ← skipBlanks true
  if ← inFlow then modify fun s => { s with adjacentAt := some s.index }
  pushAt column token

def flowEntry : Lex Unit := do
  removeKey
  allowKey
  let column := (← get).column
  skip
  let _ ← skipBlanks true
  pushAt column .flowEntry

/-! ## Block collections -/

/-- An entry of a block sequence. A tab behind the `-` cannot indent another entry. -/
def blockEntry : Lex Unit := do
  let s ← get
  require (s.flow.isEmpty && s.keyAllowed)
  let property := s.tokens.back?.any fun l => l.token.isProperty && l.column = 0
  require (!(property && s.column = 0 && -1 < s.indent))
  skip
  rollIndent s.column none .blockSequenceStart
  let seen ← skipBlanks true
  require (!(seen.tab && (← peek) = '-' && isBlankOrBreakOrEnd (← peekAt 1)))
  let c ← peek
  if isBreak c || isFlow c then rollOneColumn
  removeKey
  allowKey
  push .blockEntry

/-! ## Keys and values -/

/-- Passes spaces, breaks and comments, at least one. -/
def skipSpacesAndLines : (fuel : Nat) → Lex Unit
  | 0 => pure ()
  | fuel + 1 => do
    match ← peek with
    | ' ' =>
      skipBlank
      skipSpacesAndLines fuel
    | '#' =>
      skipLine
      skipSpacesAndLines fuel
    | c =>
      if isBreak c then
        skipBreak
        unless ← inFlow do allowKey
        skipSpacesAndLines fuel

/-- A `?` in front of a key. -/
def explicitKey : Lex Unit := do
  let s ← get
  if s.flow.isEmpty then
    require s.keyAllowed
    rollIndent s.column none .blockMappingStart
  removeKey
  if s.flow.isEmpty then allowKey else forbidKey
  skip
  let c ← peek
  require (c = ' ' || isBreak c)
  skipSpacesAndLines (← fuel)
  require ((← peek) ≠ '\t')
  pushAt s.column .key

/-- A `:` in front of a value. If a possible key stands before it, that is the key; it must stand in
the same line within a flow sequence. -/
def valueMark : Lex Unit := do
  let start ← get
  skip
  if (← peek) = '\t' then
    let seen ← skipBlanks true
    require (seen.space || !isWord (← peek))
  let key := start.key
  if key.possible then
    insert key.place key.column .key
    require (!(start.flow.head? = some .sequence && key.line < start.line))
    rollIndent key.column (some key.place) .blockMappingStart
    rollOneColumn
    modify fun s => { s with key := { s.key with possible := false } }
    forbidKey
  else
    if start.flow.isEmpty then
      require start.keyAllowed
      rollIndent start.column none .blockMappingStart
    rollOneColumn
    if start.flow.isEmpty then allowKey else forbidKey
  pushAt start.column .value

/-! ## All tokens -/

/-- The token that starts with the character ahead. -/
def nextToken : Lex Unit := do
  let c ← peek
  let next ← peekAt 1
  let s ← get
  let apart := isBlankOrBreakOrEnd next
  let inFlow := !s.flow.isEmpty
  match c with
  | '[' => flowStart .sequence .flowSequenceStart
  | '\x7b' => flowStart .mapping .flowMappingStart
  | ']' => flowEnd .flowSequenceEnd
  | '\x7d' => flowEnd .flowMappingEnd
  | ',' => flowEntry
  | '*' => anchor .alias
  | '&' => anchor .anchor
  | '!' => tag
  | '\'' => quotedScalar true
  | '\x22' => quotedScalar false
  | '%' | '@' | '\x60' => malformed
  | '-' => if apart then blockEntry else plainScalar
  | '?' => if apart then explicitKey else plainScalar
  | ':' =>
    if apart || (inFlow && (isFlow next || s.adjacentAt = some s.index)) then valueMark
    else plainScalar
  | '|' => if inFlow then plainScalar else blockScalar true
  | '>' => if inFlow then plainScalar else blockScalar false
  | _ => plainScalar

/-- One step; false at the end of the text. -/
def step : Lex Bool := do
  skipToToken (← fuel)
  dropStaleKey
  unrollIndent (← get).column
  let c ← peek
  if isEnd c then
    streamEnd
    return false
  else if (← get).column = 0 && c = '%' then directive
  else if ← atDocumentMark '-' then documentMark .documentStart
  else if ← atDocumentMark '.' then
    documentMark .documentEnd
    let _ ← skipBlanks true
    require (isBreakOrEnd (← peek))
  else
    let s ← get
    require (s.indent ≤ s.column)
    nextToken
  return true

/-- Steps to the end of the text; each passes a character at least. -/
def steps : (fuel : Nat) → Lex Unit
  | 0 => malformed
  | fuel + 1 => do
    if ← step then steps fuel

end Lex

/-- The tokens of a text; none when it is malformed. -/
def tokens? (text : List Char) : Option (List Token) := do
  let text := text.takeWhile (!isEnd ·)
  let (_, s) ← StateT.run (Lex.steps (text.length + 1)) { rest := text }
  return (s.tokens.map (·.token)).toList

end ExecWatch.Yaml
