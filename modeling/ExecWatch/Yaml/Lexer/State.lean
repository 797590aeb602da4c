import ExecWatch.Yaml.Token

/-!
# The lexer's state

Where the lexer stands in the text, which indentations are open, and where a key may begin. A scalar
or flow collection may turn out to be a key once a `:` follows; until then its place among the tokens
is remembered, for each level of flow collections.
-/

namespace ExecWatch.Yaml

/-- An open indentation: the one outside it, and whether it belongs to a block collection. -/
structure Indent where
  outer : Int
  isBlock : Bool
deriving Repr

/-- A possible key: its place in the text and among the tokens. A required key must be followed by
`:`. -/
structure KeyMark where
  possible : Bool := false
  required : Bool := false
  place : Nat := 0
  index : Nat := 0
  line : Nat := 0
  column : Nat := 0
deriving Repr

/-- An open flow collection. -/
inductive FlowKind where
  | sequence
  | mapping
deriving Repr, DecidableEq

structure Lexer where
  rest : List Char
  index : Nat := 0
  line : Nat := 0
  column : Nat := 0
  /-- Nothing but blanks so far in this line. -/
  blankLine : Bool := true
  tokens : Array Lexeme := #[]
  indent : Int := -1
  indents : List Indent := []
  /-- Open flow collections, innermost first. -/
  flow : List FlowKind := []
  /-- The possible key of each level, innermost first. -/
  key : KeyMark := {}
  outerKeys : List KeyMark := []
  keyAllowed : Bool := true
  /-- A `:` here needs no blank behind it. -/
  adjacentAt : Option Nat := none

/-- A step of the lexer; none when the text is malformed. -/
abbrev Lex := StateT Lexer Option

namespace Lex

/-! ## The text -/

/-- The text is malformed. -/
def malformed {α : Type} : Lex α := failure

/-- Goes on only if the text is well formed here. -/
def require (ok : Bool) : Lex Unit :=
  if ok then pure () else malformed

/-- The character `n` places ahead. -/
def peekAt (n : Nat) : Lex Char := return (← get).rest.getD n endMark

def peek : Lex Char := peekAt 0

/-- Passes a blank. -/
def skipBlank : Lex Unit :=
  modify fun s => { s with rest := s.rest.tail, index := s.index + 1, column := s.column + 1 }

/-- Passes a character that is no blank. -/
def skip : Lex Unit := do
  skipBlank
  modify fun s => { s with blankLine := false }

/-- Passes `n` characters that are no blanks. -/
def skipN : Nat → Lex Unit
  | 0 => pure ()
  | n + 1 => do
    skip
    skipN n

/-- Passes a line break, two characters of which count as one. -/
def skipBreak : Lex Unit := do
  if (← peek) = '\r' ∧ (← peekAt 1) = '\n' then skipBlank
  if isBreak (← peek) then
    modify fun s => { s with
      rest := s.rest.tail, index := s.index + 1, line := s.line + 1, column := 0,
      blankLine := true }

/-- A number of steps that no loop over the rest of the text exceeds. -/
def fuel : Lex Nat := return (← get).rest.length + 1

/-- The characters up to the first that is not `p`, which are passed. -/
def takeWhile (p : Char → Bool) : Lex String := do
  let taken := (← get).rest.takeWhile p
  skipN taken.length
  return String.ofList taken

/-- Passes the rest of a line. -/
def skipLine : Lex Unit := do
  let _ ← takeWhile (!isBreakOrEnd ·)

/-- What blanks were passed. -/
structure Blanks where
  tab : Bool := false
  space : Bool := false

/-- Passes blanks and a comment; a comment must follow a blank. -/
def skipToLineEnd : (fuel : Nat) → (tabs : Bool) → Blanks → Lex Blanks
  | 0, _, seen => return seen
  | fuel + 1, tabs, seen => do
    match ← peek with
    | ' ' =>
      skipBlank
      skipToLineEnd fuel tabs { seen with space := true }
    | '\t' =>
      if tabs then
        skipBlank
        skipToLineEnd fuel tabs { seen with tab := true }
      else return seen
    | '#' =>
      require (seen.tab || seen.space)
      skipLine
      return seen
    | _ => return seen

/-- Passes blanks and a comment. -/
def skipBlanks (tabs : Bool) : Lex Blanks := do
  skipToLineEnd (← fuel) tabs {}

/-! ## Tokens -/

/-- Puts a token at the end. -/
def push (token : Token) : Lex Unit :=
  modify fun s => { s with tokens := s.tokens.push ⟨s.column, token⟩ }

/-- Puts a token that starts in column `column` at the end. -/
def pushAt (column : Nat) (token : Token) : Lex Unit :=
  modify fun s => { s with tokens := s.tokens.push ⟨column, token⟩ }

/-- Puts a token at the place `place`. -/
def insert (place column : Nat) (token : Token) : Lex Unit :=
  modify fun s => { s with
    tokens := (s.tokens.extract 0 place).push ⟨column, token⟩ ++
      s.tokens.extract place s.tokens.size }

/-! ## Indentation -/

def inFlow : Lex Bool := return !(← get).flow.isEmpty

/-- The innermost open indentation belongs to a block collection. -/
def inBlock : Lex Bool := return (← get).indents.head?.any (·.isBlock)

/-- Closes the innermost indentation. -/
def popIndent : Lex Unit :=
  modify fun s =>
    match s.indents with
    | [] => s
    | i :: outer => { s with indent := i.outer, indents := outer }

/-- Opens a block collection in column `column` if that is deeper; its token stands at `place`, else
at the end. -/
def rollIndent (column : Nat) (place : Option Nat) (token : Token) : Lex Unit := do
  unless ← inFlow do
    let s ← get
    if s.indent ≤ column && s.indents.head?.any (!·.isBlock) then popIndent
    let s ← get
    if s.indent < column then
      set { s with indent := column, indents := ⟨s.indent, true⟩ :: s.indents }
      match place with
      | some place => insert place column token
      | none => pushAt column token

/-- Opens an indentation one column deeper that belongs to no collection of its own. -/
def rollOneColumn : Lex Unit := do
  if !(← inFlow) && (← inBlock) then
    modify fun s => { s with indent := s.indent + 1, indents := ⟨s.indent, false⟩ :: s.indents }

/-- Closes the given indentations while they are deeper than `column`. -/
def unrollFrom (column : Int) : List Indent → Lex Unit
  | [] => pure ()
  | i :: outer => do
    if column < (← get).indent then
      popIndent
      if i.isBlock then push .blockEnd
      unrollFrom column outer

/-- Closes all indentations deeper than `column`. -/
def unrollIndent (column : Int) : Lex Unit := do
  unless ← inFlow do unrollFrom column (← get).indents

/-- Closes the innermost indentations that belong to no collection. -/
def unrollOneColumn : List Indent → Lex Unit
  | [] => pure ()
  | i :: outer => do
    unless i.isBlock do
      popIndent
      unrollOneColumn outer

/-! ## Possible keys -/

def allowKey : Lex Unit := modify fun s => { s with keyAllowed := true }

def forbidKey : Lex Unit := modify fun s => { s with keyAllowed := false }

/-- What starts here may be a key. -/
def saveKey : Lex Unit := do
  let s ← get
  if s.keyAllowed then
    let required := s.flow.isEmpty && s.indent = s.column && s.indents.head?.any (·.isBlock)
    set { s with key := ⟨true, required, s.tokens.size, s.index, s.line, s.column⟩ }

/-- What was a possible key is none. -/
def removeKey : Lex Unit := do
  let s ← get
  require (!(s.key.possible && s.key.required))
  set { s with key := { s.key with possible := false } }

/-- Outside of flow collections a key ends in its line and after 1024 characters at most. -/
def dropStaleKey : Lex Unit := do
  let s ← get
  if s.flow.isEmpty && s.key.possible && (s.key.line < s.line || s.key.index + 1024 < s.index) then
    require (!s.key.required)
    set { s with key := { s.key with possible := false } }

/-- Opens a flow collection. -/
def enterFlow (kind : FlowKind) : Lex Unit :=
  modify fun s => { s with flow := kind :: s.flow, key := {}, outerKeys := s.key :: s.outerKeys }

/-- Closes the innermost flow collection, if one is open. -/
def leaveFlow : Lex Unit :=
  modify fun s =>
    match s.flow, s.outerKeys with
    | _ :: flow, key :: outer => { s with flow, key, outerKeys := outer }
    | _, _ => s

/-! ## Between tokens -/

/-- Passes everything up to the next token. A tab may not indent the contents of a block
collection. -/
def skipToToken : (fuel : Nat) → Lex Unit
  | 0 => pure ()
  | fuel + 1 => do
    match ← peek with
    | ' ' =>
      skipBlank
      skipToToken fuel
    | '\t' =>
      let s ← get
      if !s.indents.isEmpty && s.blankLine && s.column < s.indent then
        let _ ← skipBlanks true
        require (isBreakOrEnd (← peek))
      else skipBlank
      skipToToken fuel
    | '#' =>
      skipLine
      skipToToken fuel
    | c =>
      if isBreak c then
        skipBreak
        unless ← inFlow do allowKey
        skipToToken fuel

/-- The three characters ahead mark a document's start or end, at the start of a line. -/
def atDocumentMark (c : Char) : Lex Bool := do
  let s ← get
  return s.column = 0 && s.rest.take 3 = [c, c, c] && isBlankOrBreakOrEnd (s.rest.getD 3 endMark)

def atAnyDocumentMark : Lex Bool := return (← atDocumentMark '-') || (← atDocumentMark '.')

end Lex

end ExecWatch.Yaml
