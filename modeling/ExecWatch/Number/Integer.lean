/-!
# Whole numbers as text

Reading whole numbers of a fixed number of bits: digits with an optional sign. A number without a sign
of its own may still be written with a `+`.
-/

namespace ExecWatch.Integer

/-- The value of a digit or letter, where `a` counts as ten. -/
def digitValue (c : Char) : Nat :=
  if c.isDigit then c.toNat - '0'.toNat
  else if c.isLower then c.toNat - 'a'.toNat + 10
  else c.toNat - 'A'.toNat + 10

/-- The number that digits in the given base make; there must be one at least. -/
def ofDigits? (base : Nat) (text : List Char) : Option Nat :=
  if text.isEmpty || !text.all (fun c => c.isAlphanum && digitValue c < base) then none
  else some (text.foldl (fun n c => base * n + digitValue c) 0)

/-- A number of `bits` bits with a sign. -/
def signed? (base bits : Nat) (text : List Char) : Option Int := do
  let n : Int ←
    match text with
    | '-' :: digits => (ofDigits? base digits).map fun n => -(n : Int)
    | '+' :: digits => (ofDigits? base digits).map Int.ofNat
    | digits => (ofDigits? base digits).map Int.ofNat
  let bound : Int := Nat.pow 2 (bits - 1)
  if -bound ≤ n ∧ n < bound then some n else none

/-- A number of `bits` bits without a sign. -/
def unsigned? (bits : Nat) (text : List Char) : Option Nat := do
  let n ←
    match text with
    | '+' :: digits => ofDigits? 10 digits
    | digits => ofDigits? 10 digits
  if n < Nat.pow 2 bits then some n else none

end ExecWatch.Integer
