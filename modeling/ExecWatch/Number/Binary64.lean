/-!
# Binary floating point

Double precision numbers as exact data: a significand below `2 ^ 53` times a power of two that is at
least `2 ^ -1074`, or an infinity, or no number. Decimals are rounded to the nearest number, ties to
the even significand; a number's shortest decimal is the shortest one that is rounded back to it,
and of those of that length the nearest.
-/

namespace ExecWatch

inductive Binary64 where
  | nan
  | infinite (negative : Bool)
  | finite (negative : Bool) (significand : Nat) (exponent : Int)
deriving Repr, DecidableEq

namespace Binary64

/-- The least exponent. -/
def minExponent : Int := -1074

/-- The greatest exponent of a significand of 53 bits. -/
def maxExponent : Int := 971

/-- The least significand of 53 bits, `2 ^ 52`. -/
def hiddenBit : Nat := 0x10000000000000

def zero (negative : Bool) : Binary64 := .finite negative 0 minExponent

/-! ## Rounding -/

/-- `num / den` rounded to the nearest integer, ties to even. -/
def divideToEven (num den : Nat) : Nat :=
  let q := num / den
  let r := num % den
  if 2 * r < den then q
  else if den < 2 * r then q + 1
  else if q % 2 = 0 then q else q + 1

/-- `num / den` in units of `2 ^ exponent`, rounded. -/
def inUnits (num den : Nat) (exponent : Int) : Nat :=
  divideToEven (num * Nat.pow 2 (-exponent).toNat) (den * Nat.pow 2 exponent.toNat)

/-- The number nearest to `num / den`; both are positive. -/
def ofRatio (negative : Bool) (num den : Nat) : Binary64 :=
  let guess : Int := (num.log2 : Int) - den.log2 - 52
  -- the quotient is below 2 ^ 52 units of the guess exactly when the guess is one too high
  let low := num * Nat.pow 2 (-guess).toNat < den * Nat.pow 2 guess.toNat * hiddenBit
  let exponent := max minExponent (if low then guess - 1 else guess)
  let significand := inUnits num den exponent
  let (significand, exponent) :=
    if significand = 2 * hiddenBit then (hiddenBit, exponent + 1) else (significand, exponent)
  if maxExponent < exponent then .infinite negative else .finite negative significand exponent

/-- The number nearest to `digits * 10 ^ exponent`. Decimals far outside the range are not worked
out: they are infinite or zero. -/
def ofDecimal (negative : Bool) (digits : Nat) (exponent : Int) : Binary64 :=
  let length : Int := (Nat.toDigits 10 digits).length
  if digits = 0 || length + exponent < -330 then zero negative
  else if 310 < length + exponent then .infinite negative
  else ofRatio negative (digits * Nat.pow 10 exponent.toNat) (Nat.pow 10 (-exponent).toNat)

/-! ## Reading -/

/-- The value of decimal digits. -/
def digitsValue (digits : List Char) : Nat :=
  digits.foldl (fun n c => 10 * n + (c.toNat - '0'.toNat)) 0

/-- Splits off a sign. -/
def takeSign : List Char → Bool × List Char
  | '-' :: rest => (true, rest)
  | '+' :: rest => (false, rest)
  | text => (false, text)

/-- The exponent part of a decimal: nothing, or `e` with an optionally signed number. -/
def readExponent : List Char → Option Int
  | [] => some 0
  | c :: rest =>
    if c = 'e' || c = 'E' then
      let (negative, digits) := takeSign rest
      if digits.isEmpty || !digits.all Char.isDigit then none
      else
        let n : Int := digitsValue digits
        some (if negative then -n else n)
    else none

/-- Digits with an optional point among them and an optional exponent. -/
def readUnsigned (negative : Bool) (text : List Char) : Option Binary64 := do
  let whole := text.takeWhile Char.isDigit
  let rest := text.dropWhile Char.isDigit
  let (fraction, rest) :=
    match rest with
    | '.' :: rest => (rest.takeWhile Char.isDigit, rest.dropWhile Char.isDigit)
    | _ => ([], rest)
  if whole.isEmpty && fraction.isEmpty then none
  else
    let exponent ← readExponent rest
    return ofDecimal negative (digitsValue (whole ++ fraction)) (exponent - fraction.length)

/-- Reads a number: an optional sign, then a decimal, or `inf`, `infinity` or `nan` in any case. -/
def ofText? (text : List Char) : Option Binary64 :=
  let (negative, rest) := takeSign text
  let name := rest.map Char.toLower
  if name = "inf".toList || name = "infinity".toList then some (.infinite negative)
  else if name = "nan".toList then some .nan
  else readUnsigned negative rest

/-! ## Rounding to integers -/

/-- The nearest integer, halves away from zero, clamped to what `bits` bits hold; no number is 0. -/
def toUnsigned (bits : Nat) : Binary64 → Nat
  | .nan => 0
  | .infinite negative => if negative then 0 else Nat.pow 2 bits - 1
  | .finite negative significand exponent =>
    let scale := (-exponent).toNat
    let units := 2 * significand * Nat.pow 2 exponent.toNat
    let rounded := (units + Nat.pow 2 scale) / (2 * Nat.pow 2 scale)
    if negative then 0 else min rounded (Nat.pow 2 bits - 1)

/-! ## Shortest decimals -/

/-- The decimal `digits * 10 ^ exponent`. -/
structure Decimal where
  digits : Nat
  exponent : Int
deriving Repr, DecidableEq

/-- The numbers that round to a positive finite number, as multiples of a common unit `num / den`: the
number itself and the ends of the interval, which belong to it when the significand is even. -/
structure Interval where
  value : Nat
  low : Nat
  high : Nat
  num : Nat
  den : Nat
  closed : Bool

def interval (significand : Nat) (exponent : Int) : Interval :=
  let unit := exponent - 2
  { value := 4 * significand
    low := if significand = hiddenBit && minExponent < exponent then 4 * significand - 1
      else 4 * significand - 2
    high := 4 * significand + 2
    num := Nat.pow 2 unit.toNat
    den := Nat.pow 2 (-unit).toNat
    closed := significand % 2 = 0 }

/-- The decimal lies in the interval. -/
def Interval.contains (i : Interval) (d : Decimal) : Bool :=
  let point := d.digits * Nat.pow 10 d.exponent.toNat * i.den
  let scale := Nat.pow 10 (-d.exponent).toNat * i.num
  if i.closed then i.low * scale ≤ point && point ≤ i.high * scale
  else i.low * scale < point && point < i.high * scale

/-- The decimals next to the value on the grid of step `10 ^ exponent`, the nearer first. -/
def Interval.neighbours (i : Interval) (exponent : Int) : List Decimal :=
  let num := i.value * i.num * Nat.pow 10 (-exponent).toNat
  let den := i.den * Nat.pow 10 exponent.toNat
  let below : Decimal := ⟨num / den, exponent⟩
  let above : Decimal := ⟨num / den + 1, exponent⟩
  if 2 * (num % den) ≤ den then [below, above] else [above, below]

/-- Tries grids from the coarse to the fine, `grids` of them. -/
def Interval.shortestFrom (i : Interval) : (grids : Nat) → (exponent : Int) → Decimal
  | 0, exponent =>
    ⟨i.value * i.num * Nat.pow 10 (-exponent).toNat / (i.den * Nat.pow 10 exponent.toNat), exponent⟩
  | grids + 1, exponent =>
    match (i.neighbours exponent).find? (fun d => 0 < d.digits && i.contains d) with
    | some d => d
    | none => shortestFrom i grids (exponent - 1)

/-- An exponent of ten whose power is not below the value of the interval. -/
def Interval.magnitude (i : Interval) : Int :=
  let num := i.value * i.num
  if i.den ≤ num then (Nat.toDigits 10 (num / i.den)).length
  else 1 - ((Nat.toDigits 10 (i.den / num)).length : Int)

/-- The shortest decimal that rounds to the number, without trailing zeros. -/
def shortest (significand : Nat) (exponent : Int) : Decimal :=
  if significand = 0 then ⟨0, 0⟩
  else
    let i := interval significand exponent
    i.shortestFrom 20 (i.magnitude + 1)

/-! ## Writing -/

/-- A decimal written positionally: no exponent and, for integers, no point. -/
def Decimal.positional (d : Decimal) : List Char :=
  let digits := Nat.toDigits 10 d.digits
  if 0 ≤ d.exponent then
    if d.digits = 0 then ['0'] else digits ++ List.replicate d.exponent.toNat '0'
  else
    let places := (-d.exponent).toNat
    let padded := List.replicate (places + 1 - digits.length) '0' ++ digits
    padded.take (padded.length - places) ++ '.' :: padded.drop (padded.length - places)

/-- The number written positionally by its shortest decimal. -/
def positional : Binary64 → List Char
  | .nan => "NaN".toList
  | .infinite negative => if negative then "-inf".toList else "inf".toList
  | .finite negative significand exponent =>
    let text := (shortest significand exponent).positional
    if negative then '-' :: text else text

/-- A decimal written with a point in it, positionally while its point lies within 5 places before
and 16 places behind its first digit, else with an exponent. -/
def Decimal.compact (d : Decimal) : List Char :=
  let digits := Nat.toDigits 10 d.digits
  let point : Int := digits.length + d.exponent
  if 0 ≤ d.exponent && point ≤ 16 then d.positional ++ ".0".toList
  else if -5 < point && point ≤ 16 then d.positional
  else
    let exponent := 'e' :: (toString (point - 1)).toList
    match digits with
    | first :: rest@(_ :: _) => first :: '.' :: rest ++ exponent
    | _ => digits ++ exponent

/-- The number written by its shortest decimal, so that it does not look like a whole number. -/
def compact : Binary64 → List Char
  | .nan => "NaN".toList
  | .infinite negative => if negative then "-inf".toList else "inf".toList
  | .finite negative significand exponent =>
    let text := (shortest significand exponent).compact
    if negative then '-' :: text else text

end Binary64

end ExecWatch
