/-!
# Tokens of YAML

What the text of a YAML document consists of. Block collections have no brackets in the text: a start
is put where a deeper indentation begins and an end where it is left. A key's token is put in front of
it, wherever its `:` is found.
-/

namespace ExecWatch.Yaml

inductive Token where
  | versionDirective
  | tagDirective (handle replacement : String)
  | documentStart
  | documentEnd
  | blockSequenceStart
  | blockMappingStart
  | blockEnd
  | flowSequenceStart
  | flowSequenceEnd
  | flowMappingStart
  | flowMappingEnd
  | blockEntry
  | flowEntry
  | key
  | value
  | alias (name : String)
  | anchor (name : String)
  | tag (handle suffix : String)
  | scalar (plain : Bool) (text : String)
deriving Repr, DecidableEq

/-- A token and the column in which it starts. -/
structure Lexeme where
  column : Nat
  token : Token
deriving Repr, DecidableEq

/-- The token gives a node a property. -/
def Token.isProperty : Token → Bool
  | .anchor _ | .tag .. => true
  | _ => false

/-! ## Characters -/

/-- Stands for the end of the text; a text ends at the first such character in it. -/
def endMark : Char := '\x00'

def isEnd (c : Char) : Bool := c = endMark

def isBreak (c : Char) : Bool := c = '\n' || c = '\r'

def isBreakOrEnd (c : Char) : Bool := isBreak c || isEnd c

def isBlank (c : Char) : Bool := c = ' ' || c = '\t'

def isBlankOrBreakOrEnd (c : Char) : Bool := isBlank c || isBreakOrEnd c

/-- The character is part of the notation of flow collections. -/
def isFlow (c : Char) : Bool :=
  c = ',' || c = '[' || c = ']' || c = '\x7b' || c = '\x7d'

/-- The character may stand in a directive's name or a tag's handle. -/
def isWord (c : Char) : Bool :=
  c.isAlphanum || c = '_' || c = '-'

/-- The character may stand in a tag. -/
def isTagChar (c : Char) : Bool :=
  c.isAlphanum || "-#;/?:@&=+$_.~*'()%".toList.contains c

/-- The character may stand in the replacement of a tag's handle or in a tag in angle brackets. -/
def isUriChar (c : Char) : Bool :=
  isTagChar c || c = '!' || c = ',' || c = '[' || c = ']'

end ExecWatch.Yaml
