import ExecWatch.Settings.Environment
import ExecWatch.Text.CharClass

/-!
# Files of variables

A file of lines `NAME=value`. A value may be quoted, and may then go on over lines; outside of single
quotes `$NAME` and `$` with a name in braces stand for variables. A variable that is already set is
left as it is, and the first malformed line ends the file.
-/

namespace ExecWatch.EnvFile

/-! ## Lines -/

/-- Where a line stands between quotes, for finding its end. -/
inductive LinePlace where
  | plain
  | blank
  | escaped
  | strong
  | strongEscaped
  | weak
  | weakEscaped
deriving Repr, DecidableEq

/-- One character further; nothing where a comment starts. -/
def LinePlace.next (place : LinePlace) (c : Char) : Option LinePlace :=
  let opened : LinePlace :=
    if c = '\\' then .escaped else if c = '\x22' then .weak else if c = '\'' then .strong else .plain
  match place with
  | .plain => some (if Text.isBlank c && c ≠ '\n' && c ≠ '\r' then .blank else opened)
  | .blank => if c = '#' then none else some opened
  | .escaped => some .plain
  | .weak => some (if c = '\\' then .weakEscaped else if c = '\x22' then .plain else .weak)
  | .weakEscaped => some .weak
  | .strong => some (if c = '\\' then .strongEscaped else if c = '\'' then .plain else .strong)
  | .strongEscaped => some .strong

/-- The place at the end of a piece of text, or the part of it in front of a comment. -/
def LinePlace.scan (place : LinePlace) (before : List Char) :
    List Char → LinePlace ⊕ List Char
  | [] => .inl place
  | c :: rest =>
    match place.next c with
    | some place => scan place (before ++ [c]) rest
    | none => .inr before

/-- Splits a text behind each line break. -/
def splitLines : (line : List Char) → List Char → List (List Char)
  | line, [] => if line.isEmpty then [] else [line]
  | line, '\n' :: rest => (line ++ ['\n']) :: splitLines [] rest
  | line, c :: rest => splitLines (line ++ [c]) rest

/-- A line without the break that ends it. -/
def dropBreak (line : List Char) : List Char :=
  match line.reverse with
  | '\n' :: '\r' :: rest => rest.reverse
  | '\n' :: rest => rest.reverse
  | _ => line

/-- Puts lines of text together while a quote is open or the line ends in a blank or backslash; a text
that ends so is malformed, which is `none` at the end. -/
def joinLines : (place : LinePlace) → (line : List Char) → List (List Char) →
    List (Option (List Char))
  | place, line, [] => if place = .plain && line.isEmpty then [] else [none]
  | place, line, piece :: rest =>
    let whole := line ++ piece
    if (whole.dropWhile Text.isBlank).head? = some '#' then some [] :: joinLines .plain [] rest
    else
      match place.scan [] piece with
      | .inl .plain => some (dropBreak whole) :: joinLines .plain [] rest
      | .inl place => joinLines place whole rest
      | .inr before => some (line ++ before) :: joinLines .plain [] rest

/-! ## Values -/

/-- How a variable's name is being read: not at all, after `$`, or in braces. -/
inductive NamePlace where
  | none
  | bare
  | braced
deriving Repr, DecidableEq

/-- A value under way. -/
structure Reading where
  strong : Bool := false
  weak : Bool := false
  escaped : Bool := false
  /-- A blank ended the value; only a comment may follow. -/
  ended : Bool := false
  place : NamePlace := .none
  name : List Char := []
  text : List Char := []

namespace Reading

/-- Puts in what the name just read stands for. -/
def substitute (look : String → String) (r : Reading) : Reading :=
  { r with text := r.text ++ (look (String.ofList r.name)).toList, name := [], place := .none }

/-- A character of a variable's name, or the one behind it. -/
def nameStep (look : String → String) (r : Reading) (c : Char) : Reading :=
  if Text.isAlphanumeric c then { r with name := r.name ++ [c] }
  else
    match r.place with
    | .braced => if c = '\x7d' then r.substitute look else { r with name := r.name ++ [c] }
    | _ =>
      if c = '\x7b' && r.name.isEmpty then { r with place := .braced }
      else
        let r := r.substitute look
        if c = '$' then { r with place := .bare } else { r with text := r.text ++ [c] }

/-- One character further; nothing where the line is malformed. -/
def step (look : String → String) (r : Reading) (c : Char) : Option Reading :=
  let add (c : Char) : Reading := { r with text := r.text ++ [c] }
  if r.ended then if c = ' ' || c = '\t' then some r else none
  else if r.escaped then
    let r' := { r with escaped := false }
    if c = '\\' || c = '\'' || c = '\x22' || c = '$' || c = ' ' then
      some { r' with text := r.text ++ [c] }
    else if c = 'n' then some { r' with text := r.text ++ ['\n'] }
    else none
  else if r.strong then some (if c = '\'' then { r with strong := false } else add c)
  else if r.place ≠ .none then some (r.nameStep look c)
  else if c = '$' then some { r with place := .bare }
  else if r.weak then
    some (if c = '\x22' then { r with weak := false }
      else if c = '\\' then { r with escaped := true } else add c)
  else if c = '\'' then some { r with strong := true }
  else if c = '\x22' then some { r with weak := true }
  else if c = '\\' then some { r with escaped := true }
  else if c = ' ' || c = '\t' then some { r with ended := true }
  else some (add c)

/-- Reads the characters left. -/
def run (look : String → String) (r : Reading) : List Char → Option Reading
  | [] => some r
  | c :: rest =>
    if r.ended && c = '#' then some r
    else
      match r.step look c with
      | some r => run look r rest
      | none => none

/-- The value, if nothing is left open. -/
def finish (look : String → String) (r : Reading) : Option String :=
  if r.place = .braced || r.strong || r.weak then none
  else some (String.ofList (r.substitute look).text)

end Reading

/-- The value that a text spells; `look` gives the values of variables. -/
def readValue (look : String → String) (text : List Char) : Option String := do
  (← Reading.run look {} text).finish look

/-! ## Assignments -/

def isNameStart (c : Char) : Bool := c.isAlpha || c = '_'

def isNameChar (c : Char) : Bool := c.isAlphanum || c = '_' || c = '.'

/-- A name and the text behind it, blanks aside. -/
def readName (text : List Char) : Option (String × List Char) :=
  if text.head?.any isNameStart then
    some (String.ofList (text.takeWhile isNameChar),
      (text.dropWhile isNameChar).dropWhile Text.isBlank)
  else none

/-- The text behind `=`. -/
def afterEqual : List Char → Option (List Char)
  | '=' :: rest => some rest
  | _ => none

/-- The name that a line sets and the text of its value: nothing for an empty line, and none for a
malformed one. The word `export` may stand in front. -/
def readLine (line : List Char) : Option (Option (String × List Char)) :=
  let text := Text.trim line
  if text.isEmpty || text.head? = some '#' then some none
  else do
    let (name, rest) ← readName text
    let (name, value) ←
      match afterEqual rest with
      | some value => some (name, value)
      | none =>
        if name = "export" then do
          let (name, rest) ← readName rest
          return (name, ← afterEqual rest)
        else none
    return some (name, value.dropWhile Text.isBlank)

/-- A variable's value: of the environment, or else as the file has set it so far. -/
def lookUp (environment set : Environment) (name : String) : String :=
  match environment.lookup name with
  | some value => value
  | none => (set.lookup name).getD ""

/-- The environment after the given lines were added to it; `set` is what the file has set so far. -/
def addLines : (set environment : Environment) → List (Option (List Char)) → Environment
  | _, environment, [] => environment
  | _, environment, none :: _ => environment
  | set, environment, some line :: rest =>
    match readLine line with
    | none => environment
    | some none => addLines set environment rest
    | some (some (name, text)) =>
      let value? :=
        if text.isEmpty || text.head? = some '#' then some ""
        else readValue (lookUp environment set) text
      match value? with
      | none => environment
      | some value =>
        let added :=
          if (environment.lookup name).isSome then environment else environment ++ [(name, value)]
        addLines ((name, value) :: set) added rest

/-- The environment after a file of variables was added to it. -/
def addTo (environment : Environment) (file : String) : Environment :=
  let text := file.toList
  let text := if text.head? = some '\uFEFF' then text.tail else text
  addLines [] environment (joinLines .plain [] (splitLines [] text))

end ExecWatch.EnvFile
