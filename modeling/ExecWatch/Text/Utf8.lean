import ExecWatch.Text.Bytes

/-!
# UTF-8

Reading bytes as text. A small machine reads one byte at a time: its state is the number of tail
bytes a character still owes and the range its next byte must lie in. `Utf8.scan` lists what it
finds, a character or a maximal invalid piece each; `Utf8.lossy` writes U+FFFD for each invalid
piece and `Utf8.decode?` refuses bytes that hold one.
-/

namespace ExecWatch.Utf8

/-! ## Writing -/

/-- The bytes of a text. -/
def encode (text : List Char) : Bytes :=
  text.flatMap String.utf8EncodeChar

@[simp] theorem encode_nil : encode [] = [] := rfl

@[simp] theorem encode_cons (c : Char) (text : List Char) :
    encode (c :: text) = String.utf8EncodeChar c ++ encode text := by
  simp [encode]

@[simp] theorem encode_append (s t : List Char) : encode (s ++ t) = encode s ++ encode t := by
  simp [encode]

/-! ## The machine -/

/-- Between characters, or inside one that owes `tails` more bytes after the value `value` read so
far; its next byte must lie in `low..high`. -/
inductive State where
  | idle
  | inside (tails : Nat) (low high : UInt8) (value : Nat)
deriving Repr, DecidableEq

/-- A byte read between characters. The second byte's range excludes overlong forms, surrogates and
values above U+10FFFF. -/
def start (b : UInt8) : List (Option Char) × State :=
  if b < 0x80 then ([some (Char.ofNat b.toNat)], .idle)
  else if b < 0xC2 then ([none], .idle)
  else if b < 0xE0 then ([], .inside 1 0x80 0xBF (b.toNat - 0xC0))
  else if b < 0xF0 then
    ([], .inside 2 (if b = 0xE0 then 0xA0 else 0x80) (if b = 0xED then 0x9F else 0xBF)
      (b.toNat - 0xE0))
  else if b < 0xF5 then
    ([], .inside 3 (if b = 0xF0 then 0x90 else 0x80) (if b = 0xF4 then 0x8F else 0xBF)
      (b.toNat - 0xF0))
  else ([none], .idle)

/-- One byte: what is completed by it, and the next state. A byte that does not fit ends an invalid
piece and is read again as the first of something new. -/
def feed : State → UInt8 → List (Option Char) × State
  | .idle, b => start b
  | .inside tails low high value, b =>
    if low ≤ b ∧ b ≤ high then
      let value := 64 * value + (b.toNat - 0x80)
      if tails = 1 then ([some (Char.ofNat value)], .idle)
      else ([], .inside (tails - 1) 0x80 0xBF value)
    else (none :: (start b).1, (start b).2)

/-- What the machine finds from a state on; bytes that end inside a character are an invalid
piece. -/
def scanFrom : State → Bytes → List (Option Char)
  | .idle, [] => []
  | .inside .., [] => [none]
  | state, b :: rest => (feed state b).1 ++ scanFrom (feed state b).2 rest

/-- The characters of `bytes` in order, `none` for each maximal invalid piece. -/
def scan (bytes : Bytes) : List (Option Char) :=
  scanFrom .idle bytes

/-- The text of `bytes`, one U+FFFD for each maximal invalid piece. -/
def lossy (bytes : Bytes) : List Char :=
  (scan bytes).map (·.getD '\uFFFD')

/-- The text of `bytes`, if every byte belongs to a character. -/
def decode? (bytes : Bytes) : Option (List Char) :=
  (scan bytes).mapM id

end ExecWatch.Utf8
