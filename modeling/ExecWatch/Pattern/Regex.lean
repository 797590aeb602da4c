/-!
# Anchored regular expressions

The dialect of regular expressions that globs are compiled to: `^`, then characters and character
classes, each possibly starred, then `$`. A backslash makes the next character plain. Inside a
class, `a-b` is a range and `--` removes what follows it from what stands before it, from left to
right; a `-` that makes neither is itself. Anchors stand for the very ends of the text, and a
negated class stands for every other character.

Nested classes, `&` and `~` without a backslash in classes, groups and the other operators are not part of the
dialect; texts that use them are refused.
-/

namespace ExecWatch

/-! ## Classes -/

/-- An item of a class. -/
inductive ClassItem where
  | char (c : Char)
  | range (low high : Char)
deriving Repr, DecidableEq

/-- The character is the item or in it. -/
def ClassItem.mem (c : Char) : ClassItem → Bool
  | .char d => c = d
  | .range low high => low ≤ c && c ≤ high

/-- A character class: items, and groups of items removed from them in turn. -/
structure CharClass where
  negated : Bool
  items : List ClassItem
  removed : List (List ClassItem)
deriving Repr, DecidableEq

namespace CharClass

/-- The character is in the class before negation. -/
def listed (cls : CharClass) (c : Char) : Bool :=
  cls.items.any (·.mem c) && !cls.removed.any (·.any (·.mem c))

/-- The class matches the character. -/
def mem (cls : CharClass) (c : Char) : Bool :=
  cls.listed c != cls.negated

/-- The class of one character. -/
def single (c : Char) : CharClass := ⟨false, [.char c], []⟩

end CharClass

/-! ## Expressions and what they match -/

/-- One character of a class, or a run of them. -/
inductive Regex.Piece where
  | one (cls : CharClass)
  | run (cls : CharClass)
deriving Repr, DecidableEq

/-- An expression anchored at both ends. -/
structure Regex where
  pieces : List Regex.Piece
deriving Repr, DecidableEq

namespace Regex

/-- The text splits into consecutive parts, one for each piece in order. -/
inductive Matches : List Piece → List Char → Prop where
  | nil : Matches [] []
  | one {cls c pieces text} : cls.mem c = true → Matches pieces text →
      Matches (.one cls :: pieces) (c :: text)
  | runEnd {cls pieces text} : Matches pieces text → Matches (.run cls :: pieces) text
  | runChar {cls c pieces text} : cls.mem c = true → Matches (.run cls :: pieces) text →
      Matches (.run cls :: pieces) (c :: text)

/-- Verdicts for the suffixes of a text, the whole text first: does the suffix match? From the
verdicts of some pieces, those of the same pieces with one more in front. -/
def Piece.verdicts : Piece → List Char → List Bool → List Bool
  | .one cls, c :: text, _ :: after => (cls.mem c && after.headD false) :: verdicts (.one cls) text after
  | .one _, _, _ => [false]
  | .run cls, c :: text, here :: after =>
    let later := verdicts (.run cls) text after
    (here || (cls.mem c && later.headD false)) :: later
  | .run _, _, after => after

/-- The expression matches the whole text. -/
def isMatch (r : Regex) (text : List Char) : Bool :=
  let atEnd := text.map (fun _ => false) ++ [true]
  (r.pieces.foldr (fun piece after => piece.verdicts text after) atEnd).headD false

/-! ## Reading -/

/-- A character of an expression, with or without a backslash. -/
inductive Token where
  | plain (c : Char)
  | escaped (c : Char)
deriving Repr, DecidableEq

def Token.char : Token → Char
  | .plain c => c
  | .escaped c => c

/-- Why an expression is refused. -/
inductive Error where
  | loneBackslash
  | unclosedClass
  | decreasingRange
  | notInDialect
deriving Repr, DecidableEq

/-- Splits a text into tokens. -/
def tokens : List Char → Except Error (List Token)
  | [] => .ok []
  | ['\\'] => .error .loneBackslash
  | '\\' :: c :: rest => (tokens rest).map (.escaped c :: ·)
  | c :: rest => (tokens rest).map (.plain c :: ·)

/-- Characters that stand for themselves only after a backslash. -/
def isOperator (c : Char) : Bool :=
  "\\.+*?()|[]\x7b\x7d^$".toList.contains c

/-- A class under way: the items of its last group, and the groups before it. -/
structure OpenClass where
  negated : Bool
  current : List ClassItem
  earlier : List (List ClassItem)

namespace OpenClass

def start (negated : Bool) : OpenClass := ⟨negated, [], []⟩

def add (o : OpenClass) (item : ClassItem) : OpenClass :=
  { o with current := o.current ++ [item] }

/-- Starts a group that is removed from what stands before it. -/
def remove (o : OpenClass) : OpenClass :=
  { o with current := [], earlier := o.earlier ++ [o.current] }

def close (o : OpenClass) : CharClass :=
  match o.earlier with
  | [] => ⟨o.negated, o.current, []⟩
  | items :: removed => ⟨o.negated, items, removed ++ [o.current]⟩

end OpenClass

/-- What was read last inside a class: nothing that waits, a `-`, a character, or a character and a
`-` behind it. -/
inductive Waiting where
  | nothing
  | dash
  | char (c : Char)
  | charDash (c : Char)

/-- Where in an expression the reader is: before an item, behind one that a star may follow, behind
an opening bracket, inside a class, or behind the `$`. -/
inductive State where
  | between
  | after (cls : CharClass)
  | opened
  | inside (cls : OpenClass) (waiting : Waiting)
  | ended

/-- A token where a new item may start. -/
def stepBetween : Token → Except Error State
  | .plain '[' => .ok .opened
  | .plain '$' => .ok .ended
  | .plain c => if isOperator c then .error .notInDialect else .ok (.after (.single c))
  | .escaped c => .ok (.after (.single c))

/-- A token inside a class. -/
def stepInside (cls : OpenClass) : Waiting → Token → Except Error State
  | .nothing, .plain ']' => .ok (.after cls.close)
  | .dash, .plain ']' => .ok (.after (cls.add (.char '-')).close)
  | .char c, .plain ']' => .ok (.after (cls.add (.char c)).close)
  | .charDash c, .plain ']' => .ok (.after ((cls.add (.char c)).add (.char '-')).close)
  | .nothing, .plain '-' => .ok (.inside cls .dash)
  | .dash, .plain '-' => .ok (.inside cls.remove .nothing)
  | .char c, .plain '-' => .ok (.inside cls (.charDash c))
  | .charDash c, .plain '-' => .ok (.inside (cls.add (.char c)).remove .nothing)
  | waiting, token =>
    if token = .plain '[' ∨ token = .plain '&' ∨ token = .plain '~' then .error .notInDialect
    else
      match waiting with
      | .nothing => .ok (.inside cls (.char token.char))
      | .dash => .ok (.inside (cls.add (.char '-')) (.char token.char))
      | .char c => .ok (.inside (cls.add (.char c)) (.char token.char))
      | .charDash c =>
        if c ≤ token.char then .ok (.inside (cls.add (.range c token.char)) .nothing)
        else .error .decreasingRange

/-- One token: the pieces it completes and the next state. -/
def step : State → Token → Except Error (List Piece × State)
  | .between, t => (stepBetween t).map ([], ·)
  | .after cls, .plain '*' => .ok ([.run cls], .between)
  | .after cls, t => (stepBetween t).map ([.one cls], ·)
  | .opened, .plain '^' => .ok ([], .inside (.start true) .nothing)
  | .opened, t => (stepInside (.start false) .nothing t).map ([], ·)
  | .inside cls waiting, t => (stepInside cls waiting t).map ([], ·)
  | .ended, _ => .error .notInDialect

/-- Reads pieces from a state on, up to the final `$`. -/
def readPieces : State → List Token → Except Error (List Piece)
  | .ended, [] => .ok []
  | .opened, [] | .inside .., [] => .error .unclosedClass
  | _, [] => .error .notInDialect
  | state, token :: rest => do
    let (pieces, state) ← step state token
    return pieces ++ (← readPieces state rest)

/-- Reads an expression. -/
def parse (text : List Char) : Except Error Regex := do
  match ← tokens text with
  | .plain '^' :: rest => return ⟨← readPieces .between rest⟩
  | _ => throw .notInDialect

end Regex

end ExecWatch
