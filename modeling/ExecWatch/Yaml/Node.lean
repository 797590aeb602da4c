import ExecWatch.Number.Binary64
import ExecWatch.Number.Integer

/-!
# YAML values

The values that YAML documents hold, and how the text of a plain scalar is read as one. A number with
a fraction or beyond 64 bits is kept as its text.
-/

namespace ExecWatch.Yaml

inductive Node where
  | null
  | bool (b : Bool)
  | int (n : Int)
  | real (text : String)
  | string (s : String)
  | sequence (items : List Node)
  | mapping (members : List (Node × Node))
  /-- The value of a scalar that is not what its tag says. -/
  | invalid
deriving Inhabited

namespace Node

mutual

/-- The values are alike. -/
def alike : Node → Node → Bool
  | .null, .null => true
  | .bool a, .bool b => a = b
  | .int a, .int b => a = b
  | .real a, .real b => a = b
  | .string a, .string b => a = b
  | .sequence as, .sequence bs => alikeItems as bs
  | .mapping as, .mapping bs => alikeMembers as bs
  | .invalid, .invalid => true
  | _, _ => false

def alikeItems : List Node → List Node → Bool
  | [], [] => true
  | a :: as, b :: bs => alike a b && alikeItems as bs
  | _, _ => false

def alikeMembers : List (Node × Node) → List (Node × Node) → Bool
  | [], [] => true
  | (k, v) :: as, (l, w) :: bs => alike k l && alike v w && alikeMembers as bs
  | _, _ => false

end

/-! ## Plain scalars -/

/-- A whole number: decimal, or in base 16 or 8 behind `0x` or `0o`. -/
def readInt? (text : List Char) : Option Int :=
  let inBase :=
    match text with
    | '0' :: 'x' :: digits => Integer.signed? 16 64 digits
    | '0' :: 'o' :: digits => Integer.signed? 8 64 digits
    | '+' :: digits => Integer.signed? 10 64 digits
    | _ => none
  inBase.or (Integer.signed? 10 64 text)

/-- The names of numbers that have no digits. -/
def realNames : List String :=
  [".inf", ".Inf", ".INF", "+.inf", "+.Inf", "+.INF", "-.inf", "-.Inf", "-.INF", ".nan", ".NaN",
    ".NAN"]

/-- The text is a number. -/
def isReal (text : String) : Bool :=
  text ∈ realNames ||
    (text.toList.any Char.isDigit && (Binary64.ofText? text.toList).isSome)

/-- The value of a plain scalar without a tag. -/
def ofPlain (text : String) : Node :=
  match readInt? text.toList with
  | some n => .int n
  | none =>
    if text ∈ ["", "~", "null"] then .null
    else if text ∈ ["true", "True", "TRUE"] then .bool true
    else if text ∈ ["false", "False", "FALSE"] then .bool false
    else if isReal text then .real text
    else .string text

/-- What tags of the core schema start with. -/
def coreTag : String := "tag:yaml.org,2002:"

/-- The value of a plain scalar with a tag. -/
def ofTagged (handle suffix text : String) : Node :=
  if handle ≠ coreTag then .string text
  else
    match suffix with
    | "bool" => if text = "true" then .bool true else if text = "false" then .bool false else .invalid
    | "int" => (Integer.signed? 10 64 text.toList).elim .invalid .int
    | "float" => if isReal text then .real text else .invalid
    | "null" => if text ∈ ["~", "null"] then .null else .invalid
    | _ => .string text

/-- The value of a scalar; only plain ones are anything but strings. -/
def ofScalar (plain : Bool) (tag : Option (String × String)) (text : String) : Node :=
  if plain then
    match tag with
    | some (handle, suffix) => ofTagged handle suffix text
    | none => ofPlain text
  else .string text

/-! ## Mappings -/

/-- Puts the nodes of a mapping, keys and values in turn, together; none when a key comes twice. A key
that is not what its tag says is dropped, and the node behind it is the key. -/
def pairUp : (members : List (Node × Node)) → (key : Option Node) → List Node →
    Option (List (Node × Node))
  | members, _, [] => some members
  | members, none, .invalid :: rest => pairUp members none rest
  | members, none, key :: rest => pairUp members (some key) rest
  | members, some key, value :: rest =>
    if members.any fun m => alike m.1 key then none
    else pairUp (members ++ [(key, value)]) none rest

end Node

end ExecWatch.Yaml
