import ExecWatch.Text.Bytes

/-!
# Hexadecimal text

Numbers and bytes in lower-case hexadecimal: a number behind `0x` in as few digits as it takes, each
byte in two.
-/

namespace ExecWatch.Hex

/-- The value of a digit, of either case. -/
def value? (c : Char) : Option Nat :=
  if c.isDigit then some (c.toNat - '0'.toNat)
  else if 'a' ≤ c ∧ c ≤ 'f' then some (c.toNat - 'a'.toNat + 10)
  else if 'A' ≤ c ∧ c ≤ 'F' then some (c.toNat - 'A'.toNat + 10)
  else none

theorem value?_digitChar {n : Nat} (h : n < 16) : value? (Nat.digitChar n) = some n := by
  have : ∀ n : Fin 16, value? (Nat.digitChar n.1) = some n.1 := by decide
  exact this ⟨n, h⟩

/-! ## Numbers -/

def ofNat (n : Nat) : String :=
  "0x" ++ String.ofList (Nat.toDigits 16 n)

def nat? (text : String) : Option Nat :=
  match text.toList with
  | '0' :: 'x' :: digits => (digits.mapM value?).map (·.foldl (fun n d => 16 * n + d) 0)
  | _ => none

/-! ## Bytes -/

def ofByte (b : UInt8) : List Char :=
  [Nat.digitChar (b.toNat / 16), Nat.digitChar (b.toNat % 16)]

def ofBytes (bytes : Bytes) : List Char :=
  bytes.flatMap ofByte

def bytes? : List Char → Option Bytes
  | [] => some []
  | a :: b :: rest => do
    return UInt8.ofNat (16 * (← value? a) + (← value? b)) :: (← bytes? rest)
  | _ => none

end ExecWatch.Hex
