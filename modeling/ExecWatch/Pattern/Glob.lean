import ExecWatch.Pattern.Regex
import ExecWatch.Text.Quoted

/-!
# Globs

Shell patterns for paths: `*` and `?` stay inside one path element, `[...]` is a character class,
negated by `^` or `!`, and `\` makes the next character plain. A glob stands for an anchored
regular expression; a negated class never matches `/`.
-/

namespace ExecWatch.Glob

/-- Why a glob is refused. -/
inductive Error where
  | trailingBackslash
  | unclosedClass (glob : String)
  | notCompiled (glob : String) (cause : Regex.Error)
deriving Repr, DecidableEq

def Error.message : Error → String
  | .trailingBackslash => "Trailing backslash in glob"
  | .unclosedClass glob => "Unterminated character class in glob " ++ Text.quoted glob
  | .notCompiled glob _ => "Failed to compile glob " ++ Text.quoted glob

/-- Characters that are written with a backslash in expressions. -/
def needsEscape (c : Char) : Bool :=
  "\\.+*?()|[]\x7b\x7d^$#&-~".toList.contains c

/-- The expression that matches just this character. -/
def escape (c : Char) : List Char :=
  if needsEscape c then ['\\', c] else [c]

/-- Why the reading of a glob stops. -/
inductive Stop where
  | trailingBackslash
  | unclosedClass
deriving Repr, DecidableEq

/-- Where in a glob its reading stands. -/
inductive Place where
  | outside
  | classStart
  | inClass
deriving Repr, DecidableEq

/-- The expression of the rest of a glob. The first character of a class never closes it and never makes a
range; a `-` before the closing bracket stands for itself. -/
def expressionFrom : Place → List Char → Except Stop (List Char)
  | .outside, [] => .ok ['$']
  | .outside, '*' :: rest => (expressionFrom .outside rest).map ("[^/]*".toList ++ ·)
  | .outside, '?' :: rest => (expressionFrom .outside rest).map ("[^/]".toList ++ ·)
  | _, ['\\'] => .error .trailingBackslash
  | .outside, '\\' :: c :: rest => (expressionFrom .outside rest).map (escape c ++ ·)
  | .outside, '[' :: '^' :: rest => (expressionFrom .classStart rest).map ("[^/".toList ++ ·)
  | .outside, '[' :: '!' :: rest => (expressionFrom .classStart rest).map ("[^/".toList ++ ·)
  | .outside, '[' :: rest => (expressionFrom .classStart rest).map ('[' :: ·)
  | .outside, c :: rest => (expressionFrom .outside rest).map (escape c ++ ·)
  | _, [] => .error .unclosedClass
  | .inClass, ']' :: rest => (expressionFrom .outside rest).map (']' :: ·)
  | .inClass, '-' :: rest =>
    if rest.headD ']' = ']' then (expressionFrom .inClass rest).map (escape '-' ++ ·)
    else (expressionFrom .inClass rest).map ('-' :: ·)
  | _, '\\' :: c :: rest => (expressionFrom .inClass rest).map (escape c ++ ·)
  | _, c :: rest => (expressionFrom .inClass rest).map (escape c ++ ·)
termination_by structural _ glob => glob

/-- The expression of a glob. -/
def expression (glob : String) : Except Error String :=
  match expressionFrom .outside glob.toList with
  | .ok text => .ok (String.ofList ('^' :: text))
  | .error .trailingBackslash => .error .trailingBackslash
  | .error .unclosedClass => .error (.unclosedClass glob)

/-- Compiles a glob. -/
def compile (glob : String) : Except Error Regex := do
  match Regex.parse (← expression glob).toList with
  | .ok r => return r
  | .error cause => throw (.notCompiled glob cause)

end ExecWatch.Glob
