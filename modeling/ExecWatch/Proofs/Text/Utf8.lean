import ExecWatch.Text.Utf8

/-!
# Reading back what was written as UTF-8

The machine reads the bytes of a character as that character and is idle again (`scanFrom_char`):
the lead byte leaves it owing the character's tails, with a range for the second byte that leaves
out overlong forms, surrogates and values that are too large (`start_two`, `start_three`,
`start_four`), and each tail adds six bits (`feed_tail`, `feed_last`). So a text's bytes read back as
the text (`decode?_encode`).
-/

namespace ExecWatch.Utf8

/-! ## Lead bytes -/

theorem start_one {n : Nat} (h : n < 0x80) :
    start (UInt8.ofNat n) = ([some (Char.ofNat n)], .idle) := by
  have hlt : UInt8.ofNat n < 0x80 := by
    rw [UInt8.lt_iff_toNat_lt, UInt8.toNat_ofNat']
    simp only [UInt8.reduceToNat]
    omega
  have hn : (UInt8.ofNat n).toNat = n := by
    rw [UInt8.toNat_ofNat']
    omega
  rw [start, if_pos hlt, hn]

theorem start_two : ∀ n < 32, 2 ≤ n →
    start (UInt8.ofNat (n + 192)) = ([], .inside 1 0x80 0xBF n) := by
  decide +kernel

theorem start_three : ∀ n < 16,
    start (UInt8.ofNat (n + 224)) = ([], .inside 2 (if n = 0 then 0xA0 else 0x80)
      (if n = 13 then 0x9F else 0xBF) n) := by
  decide +kernel

theorem start_four : ∀ n < 5,
    start (UInt8.ofNat (n + 240)) = ([], .inside 3 (if n = 0 then 0x90 else 0x80)
      (if n = 4 then 0x8F else 0xBF) n) := by
  decide +kernel

/-! ## Tails -/

section
variable {low high : UInt8} {n : Nat}
  (hlow : low.toNat ≤ n % 64 + 128) (hhigh : n % 64 + 128 ≤ high.toNat)
include hlow hhigh

theorem feed_tails (tails : Nat) :
    feed (.inside tails low high (n / 64)) (UInt8.ofNat (n % 64 + 128)) =
      if tails = 1 then ([some (Char.ofNat n)], .idle)
      else ([], .inside (tails - 1) 0x80 0xBF n) := by
  have hb : (UInt8.ofNat (n % 64 + 128)).toNat = n % 64 + 128 := by
    rw [UInt8.toNat_ofNat']
    omega
  have hrange : low ≤ UInt8.ofNat (n % 64 + 128) ∧ UInt8.ofNat (n % 64 + 128) ≤ high := by
    rw [UInt8.le_iff_toNat_le, UInt8.le_iff_toNat_le, hb]
    exact ⟨hlow, hhigh⟩
  have hvalue : 64 * (n / 64) + (n % 64 + 128 - 128) = n := by omega
  simp only [feed, hrange, and_self, ↓reduceIte, hb, hvalue]

end

/-! ## Characters and texts -/

theorem scanFrom_cons (state : State) (b : UInt8) (rest : Bytes) :
    scanFrom state (b :: rest) = (feed state b).1 ++ scanFrom (feed state b).2 rest := by
  cases state <;> rfl

/-- **A character's bytes are read as the character**, whatever follows. -/
theorem scanFrom_char (c : Char) (rest : Bytes) :
    scanFrom .idle (String.utf8EncodeChar c ++ rest) = some c :: scanFrom .idle rest := by
  have hvalid : c.val.toNat < 0xD800 ∨ 0xDFFF < c.val.toNat ∧ c.val.toNat < 0x110000 := c.valid
  have hc : Char.ofNat c.val.toNat = c := Char.ofNat_toNat c
  unfold String.utf8EncodeChar
  generalize c.val.toNat = v at *
  simp only
  split
  · rw [List.singleton_append, scanFrom_cons, feed, start_one (by omega), hc]
    rfl
  split
  · rw [Nat.mod_eq_of_lt (by omega : v / 64 < 32)]
    simp only [List.cons_append, List.nil_append, scanFrom_cons]
    rw [feed, start_two _ (by omega) (by omega)]
    simp only [List.nil_append]
    rw [feed_tails (by simp) (by simp; omega), if_pos rfl, hc]
    rfl
  split
  · have hlead : v / 4096 % 16 = v / 64 / 64 := by omega
    simp only [hlead, List.cons_append, List.nil_append, scanFrom_cons]
    rw [feed, start_three _ (by omega)]
    have hlow : (if v / 64 / 64 = 0 then 0xA0 else 0x80 : UInt8).toNat ≤ v / 64 % 64 + 128 := by
      split
      · simp; omega
      · simp
    have hhigh : v / 64 % 64 + 128 ≤ (if v / 64 / 64 = 13 then 0x9F else 0xBF : UInt8).toNat := by
      split
      · simp; omega
      · simp; omega
    simp only [List.nil_append]
    rw [feed_tails hlow hhigh]
    simp only [Nat.reduceEqDiff, ↓reduceIte, Nat.add_one_sub_one, List.nil_append]
    rw [feed_tails (by simp) (by simp; omega), if_pos rfl, hc]
    rfl
  · have hlead : v / 262144 % 8 = v / 64 / 64 / 64 := by omega
    have hsecond : v / 4096 % 64 = v / 64 / 64 % 64 := by omega
    simp only [hlead, hsecond, List.cons_append, List.nil_append, scanFrom_cons]
    rw [feed, start_four _ (by omega)]
    have hlow : (if v / 64 / 64 / 64 = 0 then 0x90 else 0x80 : UInt8).toNat ≤
        v / 64 / 64 % 64 + 128 := by
      split
      · simp; omega
      · simp
    have hhigh : v / 64 / 64 % 64 + 128 ≤
        (if v / 64 / 64 / 64 = 4 then 0x8F else 0xBF : UInt8).toNat := by
      split
      · simp; omega
      · simp; omega
    simp only [List.nil_append]
    rw [feed_tails hlow hhigh]
    simp only [Nat.reduceEqDiff, ↓reduceIte, Nat.add_one_sub_one, List.nil_append]
    rw [feed_tails (by simp) (by simp; omega)]
    simp only [Nat.reduceEqDiff, ↓reduceIte, Nat.add_one_sub_one, List.nil_append]
    rw [feed_tails (by simp) (by simp; omega), if_pos rfl, hc]
    rfl

theorem scan_encode (text : List Char) : scan (encode text) = text.map some := by
  induction text with
  | nil => rfl
  | cons c text ih =>
    rw [encode_cons, scan, scanFrom_char, List.map_cons, ← ih]
    rfl

/-- **A text's bytes read back** as the text. -/
@[simp] theorem decode?_encode (text : List Char) : decode? (encode text) = some text := by
  rw [decode?, scan_encode]
  induction text with
  | nil => rfl
  | cons c text ih =>
    rw [List.map_cons, List.mapM_cons, ih]
    rfl

/-- Only the NUL character has a NUL among its bytes. -/
theorem zero_not_mem_char {c : Char} (h : c ≠ '\x00') : (0 : UInt8) ∉ String.utf8EncodeChar c := by
  have hne : c.val.toNat ≠ 0 := by
    intro h0
    apply h
    rw [← Char.ofNat_toNat c, Char.toNat, h0]
  have hlt : c.val.toNat < 0x110000 := by
    have hvalid : c.val.toNat < 0xD800 ∨ 0xDFFF < c.val.toNat ∧ c.val.toNat < 0x110000 := c.valid
    omega
  have hbyte (n : Nat) (hn : n % 256 ≠ 0) : (0 : UInt8) ≠ UInt8.ofNat n := by
    intro h0
    have := congrArg UInt8.toNat h0
    rw [UInt8.toNat_ofNat'] at this
    exact hn this.symm
  unfold String.utf8EncodeChar
  generalize c.val.toNat = v at *
  simp only
  split
  · simp only [List.mem_singleton]
    exact hbyte _ (by omega)
  split
  · simp only [List.mem_cons, List.not_mem_nil, or_false, not_or]
    exact ⟨hbyte _ (by omega), hbyte _ (by omega)⟩
  split
  · simp only [List.mem_cons, List.not_mem_nil, or_false, not_or]
    exact ⟨hbyte _ (by omega), hbyte _ (by omega), hbyte _ (by omega)⟩
  · simp only [List.mem_cons, List.not_mem_nil, or_false, not_or]
    exact ⟨hbyte _ (by omega), hbyte _ (by omega), hbyte _ (by omega), hbyte _ (by omega)⟩

theorem zero_not_mem_encode {text : List Char} (h : '\x00' ∉ text) : (0 : UInt8) ∉ encode text := by
  intro hmem
  obtain ⟨c, hc, hzero⟩ := List.mem_flatMap.1 hmem
  refine zero_not_mem_char ?_ hzero
  rintro rfl
  exact h hc

end ExecWatch.Utf8
