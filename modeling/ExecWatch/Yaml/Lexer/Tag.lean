import ExecWatch.Text.Hex
import ExecWatch.Text.Utf8
import ExecWatch.Yaml.Lexer.State

/-!
# Directives, anchors and tags

The parts of YAML that say something about a document or a node.
-/

namespace ExecWatch.Yaml.Lex

/-- One byte written as `%` and two hexadecimal digits. -/
def percentByte : Lex UInt8 := do
  require ((← peek) = '%')
  match Hex.value? (← peekAt 1), Hex.value? (← peekAt 2) with
  | some a, some b =>
    skipN 3
    return UInt8.ofNat (16 * a + b)
  | _, _ => malformed

/-- `n` bytes written that way. -/
def percentBytes : (n : Nat) → Lex Bytes
  | 0 => return []
  | n + 1 => do
    let b ← percentByte
    return b :: (← percentBytes n)

/-- Bytes of the character whose first byte is `b`; 0 for no such byte. -/
def encodedLength (b : UInt8) : Nat :=
  if b < 0x80 then 1 else if b < 0xC0 then 0 else if b < 0xE0 then 2 else if b < 0xF0 then 3
  else if b < 0xF8 then 4 else 0

/-- A character written by its bytes. -/
def percentChar : Lex Char := do
  let b ← percentByte
  let length := encodedLength b
  require (0 < length)
  match Utf8.decode? (b :: (← percentBytes (length - 1))) with
  | some [c] => return c
  | _ => malformed

/-- Characters that are `p`, some of them written by their bytes. -/
def uriChars (p : Char → Bool) : (fuel : Nat) → List Char → Lex (List Char)
  | 0, text => return text
  | fuel + 1, text => do
    let c ← peek
    if !p c then return text
    else if c = '%' then
      let c ← percentChar
      uriChars p fuel (text ++ [c])
    else
      skip
      uriChars p fuel (text ++ [c])

def uri (p : Char → Bool) : Lex String := do
  return String.ofList (← uriChars p (← fuel) [])

/-- A tag's handle: `!`, and if it ends in another `!` the word between them. -/
def tagHandle : Lex String := do
  require ((← peek) = '!')
  skip
  let word ← takeWhile isWord
  if (← peek) = '!' then
    skip
    return "!" ++ word ++ "!"
  else return "!" ++ word

/-! ## Directives -/

/-- A number of up to nine digits. -/
def versionNumber : Lex Unit := do
  let digits ← takeWhile Char.isDigit
  require (0 < digits.length && digits.length ≤ 9)

def versionDirective : Lex Token := do
  let _ ← takeWhile isBlank
  versionNumber
  require ((← peek) = '.')
  skip
  versionNumber
  return .versionDirective

def tagDirective : Lex Token := do
  let _ ← takeWhile isBlank
  let handle ← tagHandle
  require (handle = "!" || handle.endsWith "!")
  let _ ← takeWhile isBlank
  let c ← peek
  require (c = '!' || isTagChar c)
  let first ← if c = '%' then percentChar else do
    skip
    pure c
  let rest ← uri isUriChar
  require (isBlankOrBreakOrEnd (← peek))
  return .tagDirective handle (String.ofList (first :: rest.toList))

/-- A directive; unknown ones are passed. -/
def directive : Lex Unit := do
  unrollIndent (-1)
  removeKey
  forbidKey
  skip
  let name ← takeWhile isWord
  require (!name.isEmpty && isBlankOrBreakOrEnd (← peek))
  let token ←
    match name with
    | "YAML" => versionDirective
    | "TAG" => tagDirective
    | _ => do
      skipLine
      pure (.tagDirective "" "")
  let _ ← skipBlanks true
  require (isBreakOrEnd (← peek))
  skipBreak
  pushAt 0 token

/-! ## Anchors, aliases and tags -/

/-- The character may stand in the name of an anchor. -/
def isAnchorChar (c : Char) : Bool :=
  !isBlankOrBreakOrEnd c && !isFlow c && c ≠ '\uFEFF'

/-- An anchor or an alias. -/
def anchor (token : String → Token) : Lex Unit := do
  saveKey
  forbidKey
  let column := (← get).column
  skip
  let name ← takeWhile isAnchorChar
  require (!name.isEmpty)
  pushAt column (token name)

/-- A tag: in angle brackets, after a handle, or with the handle `!`. -/
def tagText : Lex Token := do
  if (← peekAt 1) = '<' then
    skipN 2
    let suffix ← uri isUriChar
    require ((← peek) = '>')
    skip
    return .tag "" suffix
  else
    let handle ← tagHandle
    if 2 ≤ handle.length && handle.endsWith "!" then
      let suffix ← uri isTagChar
      require (!suffix.isEmpty)
      return .tag handle suffix
    else
      let suffix := (handle.drop 1).toString ++ (← uri isTagChar)
      if suffix.isEmpty then return .tag "" "!" else return .tag "!" suffix

def tag : Lex Unit := do
  saveKey
  forbidKey
  let column := (← get).column
  let token ← tagText
  let c ← peek
  require (isBlankOrBreakOrEnd c || ((← inFlow) && isFlow c))
  pushAt column token

end ExecWatch.Yaml.Lex
