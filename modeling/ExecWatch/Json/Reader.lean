import ExecWatch.Json.Basic
import ExecWatch.Text.Hex

/-!
# Reading JSON

Reads one value from a text. Each function takes the text and returns what it read with the rest of
the text; `none` is a text that is not JSON. Values may be nested as deep as the text is long.
-/

namespace ExecWatch.Json

/-- The four characters that may stand between the parts of a value. -/
def isBlank (c : Char) : Bool :=
  c = ' ' || c = '\n' || c = '\r' || c = '\t'

def skipBlanks (text : List Char) : List Char :=
  text.dropWhile isBlank

/-! ## Strings -/

/-- The value of four hexadecimal digits. -/
def hexUnit? (a b c d : Char) : Option Nat := do
  return 4096 * (← Hex.value? a) + 256 * (← Hex.value? b) + 16 * (← Hex.value? c) + (← Hex.value? d)

/-- The character that two halves of a surrogate pair stand for. -/
def joinSurrogates? (high low : Nat) : Option Char :=
  if 0xDC00 ≤ low ∧ low < 0xE000 then
    some (Char.ofNat (0x10000 + 1024 * (high - 0xD800) + (low - 0xDC00)))
  else none

/-- The character that a letter behind a backslash stands for. -/
def unescape? : Char → Option Char
  | '\x22' => some '\x22'
  | '\\' => some '\\'
  | '/' => some '/'
  | 'b' => some '\x08'
  | 'f' => some '\x0c'
  | 'n' => some '\n'
  | 'r' => some '\r'
  | 't' => some '\t'
  | _ => none

/-- Puts a character in front of what was read after it. -/
def consRead (c : Char) : Option (List Char × List Char) → Option (List Char × List Char)
  | some (text, rest) => some (c :: text, rest)
  | none => none

/-- The rest of a string, and the text behind its closing quote. Half a surrogate pair is refused. -/
def readString : List Char → Option (List Char × List Char)
  | [] => none
  | '\\' :: 'u' :: a :: b :: c :: d :: rest =>
    match hexUnit? a b c d with
    | none => none
    | some unit =>
      if unit < 0xD800 ∨ 0xE000 ≤ unit then consRead (Char.ofNat unit) (readString rest)
      else if 0xDC00 ≤ unit then none
      else
        match rest with
        | '\\' :: 'u' :: e :: f :: g :: h :: rest =>
          match (hexUnit? e f g h).bind (joinSurrogates? unit) with
          | some character => consRead character (readString rest)
          | none => none
        | _ => none
  | '\\' :: c :: rest =>
    match unescape? c with
    | some character => consRead character (readString rest)
    | none => none
  | c :: rest =>
    if c = '\x22' then some ([], rest)
    else if c = '\\' ∨ c.toNat < 0x20 then none
    else consRead c (readString rest)

/-! ## Numbers -/

/-- The digits behind a point, or nothing where there is no point. -/
def readFraction : List Char → Option (List Char × List Char)
  | '.' :: rest =>
    let digits := rest.takeWhile Char.isDigit
    if digits.isEmpty then none else some ('.' :: digits, rest.dropWhile Char.isDigit)
  | text => some ([], text)

/-- An exponent, or nothing where there is none. -/
def readExponent : List Char → Option (List Char × List Char)
  | c :: rest =>
    if c = 'e' ∨ c = 'E' then
      let (sign, rest) :=
        match rest with
        | '-' :: rest => (['-'], rest)
        | '+' :: rest => ([], rest)
        | rest => ([], rest)
      let digits := rest.takeWhile Char.isDigit
      if digits.isEmpty then none
      else some ('e' :: sign ++ digits, rest.dropWhile Char.isDigit)
    else some ([], c :: rest)
  | [] => some ([], [])

/-- The value of a number's parts. A whole number is kept exactly when it fits 64 bits, signed or
unsigned; minus zero is not a whole number. A number too large for binary floating point is
refused. -/
def numberOf (negative : Bool) (whole fraction exponent : List Char) : Option Json :=
  let n := Binary64.digitsValue whole
  if fraction.isEmpty && exponent.isEmpty && !(negative && n = 0) &&
      n ≤ (if negative then 0x8000000000000000 else 0xffffffffffffffff) then
    some (.int (if negative then -n else n))
  else
    match Binary64.readUnsigned negative (whole ++ fraction ++ exponent) with
    | some (.finite sign significand power) => some (.real (.finite sign significand power))
    | _ => none

/-- A number without its sign. -/
def readUnsigned (negative : Bool) (text : List Char) : Option (Json × List Char) := do
  let whole := text.takeWhile Char.isDigit
  if whole.isEmpty || (whole.head? = some '0' && 1 < whole.length) then none
  else
    let (fraction, rest) ← readFraction (text.dropWhile Char.isDigit)
    let (exponent, rest) ← readExponent rest
    return (← numberOf negative whole fraction exponent, rest)

/-- A number. -/
def readNumber : List Char → Option (Json × List Char)
  | '-' :: rest => readUnsigned true rest
  | text => readUnsigned false text

/-! ## Values -/

/-- The text behind a fixed word. -/
def expect : (word text : List Char) → Option (List Char)
  | [], text => some text
  | w :: word, c :: text => if w = c then expect word text else none
  | _ :: _, [] => none

mutual

/-- One value and the text behind it. -/
def readValue : (fuel : Nat) → List Char → Option (Json × List Char)
  | 0, _ => none
  | fuel + 1, text =>
    match skipBlanks text with
    | 'n' :: rest => (expect "ull".toList rest).map (Json.null, ·)
    | 't' :: rest => (expect "rue".toList rest).map (Json.bool true, ·)
    | 'f' :: rest => (expect "alse".toList rest).map (Json.bool false, ·)
    | '\x22' :: rest => (readString rest).map fun (s, rest) => (.string (String.ofList s), rest)
    | '[' :: rest =>
      match skipBlanks rest with
      | ']' :: rest => some (.array [], rest)
      | rest => (readItems fuel rest).map fun (items, rest) => (.array items, rest)
    | '\x7b' :: rest =>
      match skipBlanks rest with
      | '\x7d' :: rest => some (.object [], rest)
      | rest => (readMembers fuel rest).map fun (members, rest) => (.object members, rest)
    | rest => readNumber rest

/-- Items up to the closing bracket, at least one. -/
def readItems : (fuel : Nat) → List Char → Option (List Json × List Char)
  | 0, _ => none
  | fuel + 1, text => do
    let (item, rest) ← readValue fuel text
    match skipBlanks rest with
    | ',' :: rest =>
      let (items, rest) ← readItems fuel rest
      return (item :: items, rest)
    | ']' :: rest => return ([item], rest)
    | _ => none

/-- Members up to the closing brace, at least one. -/
def readMembers : (fuel : Nat) → List Char → Option (List (String × Json) × List Char)
  | 0, _ => none
  | fuel + 1, text => do
    let rest ← expect ['\x22'] (skipBlanks text)
    let (key, rest) ← readString rest
    let rest ← expect [':'] (skipBlanks rest)
    let (value, rest) ← readValue fuel rest
    let member := (String.ofList key, value)
    match skipBlanks rest with
    | ',' :: rest =>
      let (members, rest) ← readMembers fuel rest
      return (member :: members, rest)
    | '\x7d' :: rest => return ([member], rest)
    | _ => none

end

/-- The value that a text holds, blanks around it aside. Every step of the reader that does not
consume a character is followed by one that does. -/
def read? (text : List Char) : Option Json := do
  let (value, rest) ← readValue (2 * text.length + 2) text
  if (skipBlanks rest).isEmpty then some value else none

/-- The value that a text holds. -/
def ofText? (text : String) : Option Json :=
  read? text.toList

end ExecWatch.Json
