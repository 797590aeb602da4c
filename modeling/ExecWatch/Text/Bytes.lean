/-!
# Bytes

Byte strings are lists of bytes. This module holds what every binary layout of the library shares:
little-endian words and fields that end at their first NUL.

Main statements:
* `word32?_ofWord32`, `ofWord32_word32`: four bytes and a 32-bit word are the same thing;
* `cText_eq_takeWhile`, `cText_append_nul`: the text of a field is what stands before its first NUL.
-/

namespace ExecWatch

abbrev Bytes := List UInt8

namespace Bytes

/-! ## Little-endian words -/

/-- The four bytes of a word, lowest first. -/
def ofWord32 (w : UInt32) : Bytes :=
  [UInt8.ofNat w.toNat, UInt8.ofNat (w.toNat / 0x100), UInt8.ofNat (w.toNat / 0x10000),
    UInt8.ofNat (w.toNat / 0x1000000)]

/-- The word whose four bytes are given, lowest first. -/
def word32 (b0 b1 b2 b3 : UInt8) : UInt32 :=
  UInt32.ofNat (b0.toNat + 0x100 * b1.toNat + 0x10000 * b2.toNat + 0x1000000 * b3.toNat)

/-- The 32-bit word at the front, if four bytes are there. -/
def word32? : Bytes → Option UInt32
  | b0 :: b1 :: b2 :: b3 :: _ => some (word32 b0 b1 b2 b3)
  | _ => none

/-- The 64-bit word at the front, if eight bytes are there. -/
def word64? : Bytes → Option UInt64
  | b0 :: b1 :: b2 :: b3 :: b4 :: b5 :: b6 :: b7 :: _ =>
    some (UInt64.ofNat ((word32 b0 b1 b2 b3).toNat + 0x100000000 * (word32 b4 b5 b6 b7).toNat))
  | _ => none

@[simp] theorem length_ofWord32 (w : UInt32) : (ofWord32 w).length = 4 := rfl

theorem toNat_word32 (b0 b1 b2 b3 : UInt8) :
    (word32 b0 b1 b2 b3).toNat =
      b0.toNat + 0x100 * b1.toNat + 0x10000 * b2.toNat + 0x1000000 * b3.toNat := by
  have h0 := b0.toNat_lt
  have h1 := b1.toNat_lt
  have h2 := b2.toNat_lt
  have h3 := b3.toNat_lt
  simp only [word32, UInt32.toNat_ofNat']
  omega

theorem word32?_ofWord32 (w : UInt32) (rest : Bytes) : word32? (ofWord32 w ++ rest) = some w := by
  have h := w.toNat_lt
  simp only [ofWord32, List.cons_append, List.nil_append, word32?, Option.some.injEq]
  rw [← UInt32.toNat_inj, toNat_word32]
  simp only [UInt8.toNat_ofNat']
  omega

theorem ofWord32_word32 (b0 b1 b2 b3 : UInt8) :
    ofWord32 (word32 b0 b1 b2 b3) = [b0, b1, b2, b3] := by
  have h0 := b0.toNat_lt
  have h1 := b1.toNat_lt
  have h2 := b2.toNat_lt
  have h3 := b3.toNat_lt
  simp only [ofWord32, toNat_word32, List.cons.injEq, and_true, ← UInt8.toNat_inj,
    UInt8.toNat_ofNat']
  omega

/-! ## Fields that end at a NUL -/

/-- The bytes before the first NUL, or all of them when there is none. -/
def cText : Bytes → Bytes
  | [] => []
  | b :: rest => if b = 0 then [] else b :: cText rest

theorem cText_eq_takeWhile (bytes : Bytes) : cText bytes = bytes.takeWhile (· ≠ 0) := by
  induction bytes with
  | nil => rfl
  | cons b rest ih => by_cases h : b = 0 <;> simp [cText, h, ih]

theorem cText_append_nul {text : Bytes} (h : (0 : UInt8) ∉ text) (rest : Bytes) :
    cText (text ++ 0 :: rest) = text := by
  induction text with
  | nil => rfl
  | cons b text ih =>
    rw [List.mem_cons, not_or] at h
    simp [cText, Ne.symm h.1, ih h.2]

/-- `bytes` filled up with NULs to `width` bytes; longer input is cut. -/
def padTo (width : Nat) (bytes : Bytes) : Bytes :=
  bytes.take width ++ List.replicate (width - bytes.length) 0

@[simp] theorem length_padTo (width : Nat) (bytes : Bytes) : (padTo width bytes).length = width := by
  simp only [padTo, List.length_append, List.length_take, List.length_replicate]
  omega

end Bytes

end ExecWatch
