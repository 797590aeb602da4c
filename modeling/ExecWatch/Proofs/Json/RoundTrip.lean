import ExecWatch.Json.Reader
import ExecWatch.Json.Writer

/-!
# Written JSON is read back

Reading the text of a value gives the value, for all values without numbers that are not whole
(`Json.Exact`). Main statements:

* `readString_writeString`: no character breaks out of the quotes of a string;
* `readNumber_writeInt`: whole numbers of 64 bits are kept exactly;
* `Exact.reads`: the text of a value is read back whatever follows it, as long as that does not go on
  with a number;
* `read?_write`: so a text that holds the value and nothing else is read as that value;
* `newline_not_mem_write`: the text of a value holds no line break.
-/

namespace ExecWatch.Json

/-! ## Strings -/

theorem hexUnit?_control {n : Nat} (h : n < 0x20) :
    hexUnit? '0' '0' (hexDigit (n / 16)) (hexDigit (n % 16)) = some n := by
  have hhigh : Hex.value? (hexDigit (n / 16)) = some (n / 16) := Hex.value?_digitChar (by omega)
  have hlow : Hex.value? (hexDigit (n % 16)) = some (n % 16) := Hex.value?_digitChar (by omega)
  have hzero : Hex.value? '0' = some 0 := rfl
  have hsum : 16 * (n / 16) + n % 16 = n := Nat.div_add_mod n 16
  simp [hexUnit?, hzero, hhigh, hlow, hsum]

/-- The three forms in which a character is written: as itself, by a letter behind a backslash, or by
its number. -/
theorem writeChar_cases (c : Char) :
    (c ≠ '\x22' ∧ c ≠ '\\' ∧ 0x20 ≤ c.toNat ∧ writeChar c = [c]) ∨
      (∃ l, unescape? l = some c ∧ writeChar c = ['\\', l]) ∨
      (c.toNat < 0x20 ∧ writeChar c =
        ['\\', 'u', '0', '0', hexDigit (c.toNat / 16), hexDigit (c.toNat % 16)]) := by
  by_cases hletter : c ∈ ['\x22', '\\', '\x08', '\x0c', '\n', '\r', '\t']
  · refine .inr (.inl ?_)
    simp only [List.mem_cons, List.not_mem_nil, or_false] at hletter
    rcases hletter with rfl | rfl | rfl | rfl | rfl | rfl | rfl
    all_goals exact ⟨_, rfl, rfl⟩
  · simp only [List.mem_cons, List.not_mem_nil, or_false, not_or] at hletter
    by_cases hcontrol : c.toNat < 0x20
    · exact .inr (.inr ⟨hcontrol, by simp [writeChar, hletter, hcontrol]⟩)
    · exact .inl ⟨hletter.1, hletter.2.1, by omega, by simp [writeChar, hletter, hcontrol]⟩

theorem readString_plain {c : Char} (hquote : c ≠ '\x22') (hbackslash : c ≠ '\\')
    (hprintable : 0x20 ≤ c.toNat) (rest : List Char) :
    readString (c :: rest) = consRead c (readString rest) := by
  have hrefused : ¬ (c = '\\' ∨ c.toNat < 0x20) := by
    rintro (rfl | hlow)
    · exact hbackslash rfl
    · omega
  rw [readString.eq_def]
  split
  · rename_i heq; cases heq
  · rename_i heq; cases heq; exact absurd rfl hbackslash
  · rename_i heq; cases heq; exact absurd rfl hbackslash
  · rename_i heq; cases heq; rw [if_neg hquote, if_neg hrefused]

theorem readString_letter {l c : Char} (h : unescape? l = some c) (rest : List Char) :
    readString ('\\' :: l :: rest) = consRead c (readString rest) := by
  have hunicode : l ≠ 'u' := by
    rintro rfl
    cases h
  rw [readString.eq_def]
  split
  · rename_i heq; cases heq
  · rename_i heq; cases heq; exact absurd rfl hunicode
  · rename_i heq; cases heq; rw [h]
  · rename_i hother heq; cases heq; exact absurd rfl (hother l rest rfl)

/-- A character is read back from inside a string. -/
theorem readString_writeChar (c : Char) (rest : List Char) :
    readString (writeChar c ++ rest) = consRead c (readString rest) := by
  rcases writeChar_cases c with ⟨hquote, hbackslash, hprintable, htext⟩ | ⟨l, hletter, htext⟩ |
    ⟨hcontrol, htext⟩
  · rw [htext]
    exact readString_plain hquote hbackslash hprintable rest
  · rw [htext]
    exact readString_letter hletter rest
  · rw [htext]
    simp only [List.cons_append, List.nil_append]
    rw [readString, hexUnit?_control hcontrol]
    simp only [Char.ofNat_toNat]
    rw [if_pos (.inl (by omega))]

theorem readString_writeString (s rest : List Char) :
    readString (s.flatMap writeChar ++ '\x22' :: rest) = some (s, rest) := by
  induction s with
  | nil => simp [readString]
  | cons c s ih =>
    rw [List.flatMap_cons, List.append_assoc, readString_writeChar, ih]
    rfl

/-! ## Whole numbers -/

/-- What follows does not go on with a number. -/
def Stops (rest : List Char) : Prop :=
  ∀ c ∈ rest.head?, c.isDigit = false ∧ c ≠ '.' ∧ c ≠ 'e' ∧ c ≠ 'E'

theorem digitsValue_toDigits (n : Nat) : Binary64.digitsValue (Nat.toDigits 10 n) = n :=
  Nat.ofDigitChars_toDigits (by decide) (by decide)

theorem isDigit_toDigits {n : Nat} : ∀ c ∈ Nat.toDigits 10 n, c.isDigit = true :=
  fun _ hc => Nat.isDigit_of_mem_toDigits (by decide) (by decide) hc

/-- The digits of a number above zero begin with no zero. -/
theorem head?_toDigits {n : Nat} (h : 0 < n) : (Nat.toDigits 10 n).head? ≠ some '0' := by
  induction n using Nat.strongRecOn with
  | ind n ih =>
    by_cases hsmall : n < 10
    · have hdigit : ∀ d : Fin 10, 0 < d.1 → Nat.digitChar d.1 ≠ '0' := by decide
      rw [Nat.toDigits_of_lt_base hsmall]
      simpa using hdigit ⟨n, hsmall⟩ h
    · have hfront := ih (n / 10) (by omega) (by omega)
      rw [Nat.toDigits_of_base_le (by decide) (by omega), List.head?_append]
      cases hdigits : Nat.toDigits 10 (n / 10) with
      | nil => exact absurd hdigits Nat.toDigits_ne_nil
      | cons d ds =>
        rw [hdigits] at hfront
        exact hfront

theorem takeWhile_append_stops {digits rest : List Char} (hdigits : ∀ c ∈ digits, c.isDigit = true)
    (hrest : Stops rest) :
    (digits ++ rest).takeWhile Char.isDigit = digits ∧
      (digits ++ rest).dropWhile Char.isDigit = rest := by
  induction digits with
  | nil =>
    cases rest with
    | nil => exact ⟨rfl, rfl⟩
    | cons c rest =>
      have hc : c.isDigit = false := (hrest c rfl).1
      simp [hc]
  | cons d ds ih =>
    obtain ⟨htake, hdrop⟩ := ih fun c hc => hdigits c (List.mem_cons_of_mem _ hc)
    have hd := hdigits d List.mem_cons_self
    simp [hd, htake, hdrop]

theorem readFraction_of_stops {rest : List Char} (h : Stops rest) :
    readFraction rest = some ([], rest) := by
  cases rest with
  | nil => rfl
  | cons c rest =>
    have hc := (h c rfl).2.1
    rw [readFraction.eq_def]
    split
    · rename_i heq; cases heq; exact absurd rfl hc
    · rfl

theorem readExponent_of_stops {rest : List Char} (h : Stops rest) :
    readExponent rest = some ([], rest) := by
  cases rest with
  | nil => rfl
  | cons c rest =>
    obtain ⟨-, -, hlower, hupper⟩ := h c rfl
    simp [readExponent, hlower, hupper]

/-- The digits of a number within bounds are read as that number, with the sign in front of them. -/
theorem readUnsigned_toDigits (negative : Bool) {n : Nat} {rest : List Char}
    (hzero : negative = true → n ≠ 0)
    (hbound : n ≤ if negative then 0x8000000000000000 else 0xffffffffffffffff) (hrest : Stops rest) :
    readUnsigned negative (Nat.toDigits 10 n ++ rest) =
      some (.int (if negative then -n else n), rest) := by
  obtain ⟨htake, hdrop⟩ := takeWhile_append_stops (isDigit_toDigits (n := n)) hrest
  have hfront : ((Nat.toDigits 10 n).head? = some '0' && 1 < (Nat.toDigits 10 n).length) = false := by
    by_cases hn : 0 < n
    · simp [head?_toDigits hn]
    · obtain rfl : n = 0 := by omega
      rfl
  have hnumber : numberOf negative (Nat.toDigits 10 n) [] [] =
      some (.int (if negative then -n else n)) := by
    unfold numberOf
    rw [digitsValue_toDigits]
    cases negative with
    | false => simp_all
    | true => simp_all
  unfold readUnsigned
  rw [htake, hdrop, readFraction_of_stops hrest]
  simp [hfront, readExponent_of_stops hrest, hnumber]

/-- The first character of a whole number. -/
def BeginsNumber (c : Char) : Prop := c = '-' ∨ c.isDigit = true

theorem BeginsNumber.ne {c d : Char} (h : BeginsNumber c) (hd : d ≠ '-' ∧ d.isDigit = false) :
    c ≠ d := by
  rintro rfl
  rcases h with hminus | hdigit
  · exact hd.1 hminus
  · rw [hd.2] at hdigit
    cases hdigit

theorem BeginsNumber.isBlank_eq {c : Char} (h : BeginsNumber c) : isBlank c = false := by
  simp [isBlank, h.ne (d := ' ') (by decide), h.ne (d := '\n') (by decide),
    h.ne (d := '\r') (by decide), h.ne (d := '\t') (by decide)]

theorem exists_writeInt (n : Int) : ∃ c cs, writeInt n = c :: cs ∧ BeginsNumber c := by
  unfold writeInt
  split
  · exact ⟨'-', _, rfl, .inl rfl⟩
  · cases hdigits : Nat.toDigits 10 n.natAbs with
    | nil => exact absurd hdigits Nat.toDigits_ne_nil
    | cons c cs => exact ⟨c, cs, rfl, .inr (isDigit_toDigits c (hdigits ▸ List.mem_cons_self))⟩

theorem readNumber_writeInt {n : Int} (h : -0x8000000000000000 ≤ n ∧ n ≤ 0xffffffffffffffff)
    {rest : List Char} (hrest : Stops rest) :
    readNumber (writeInt n ++ rest) = some (.int n, rest) := by
  unfold writeInt
  split
  · rename_i hnegative
    have hvalue : -(n.natAbs : Int) = n := by omega
    have hread := readUnsigned_toDigits true (n := n.natAbs) (fun _ => by omega)
      (by rw [if_pos rfl]; omega) hrest
    rw [List.cons_append, readNumber, hread, if_pos rfl, hvalue]
  · rename_i hpositive
    have hvalue : (n.natAbs : Int) = n := by omega
    have hread := readUnsigned_toDigits false (n := n.natAbs) nofun
      (by rw [if_neg Bool.false_ne_true]; omega) hrest
    have hminus : ∀ cs, Nat.toDigits 10 n.natAbs ++ rest ≠ '-' :: cs := by
      intro cs heq
      cases hdigits : Nat.toDigits 10 n.natAbs with
      | nil => exact Nat.toDigits_ne_nil hdigits
      | cons d ds =>
        have hd := isDigit_toDigits d (hdigits ▸ List.mem_cons_self)
        rw [hdigits] at heq
        cases heq
        cases hd
    rw [readNumber.eq_def]
    split
    · rename_i heq
      exact absurd heq (hminus _)
    · rw [hread, if_neg Bool.false_ne_true, hvalue]

/-! ## Values -/

/-- All numbers in the value are whole and fit 64 bits, signed or unsigned. -/
inductive Exact : Json → Prop
  | null : Exact .null
  | bool (b : Bool) : Exact (.bool b)
  | int {n : Int} (h : -0x8000000000000000 ≤ n ∧ n ≤ 0xffffffffffffffff) : Exact (.int n)
  | string (s : String) : Exact (.string s)
  | array {items : List Json} (h : ∀ item ∈ items, Exact item) : Exact (.array items)
  | object {members : List (String × Json)} (h : ∀ member ∈ members, Exact member.2) :
    Exact (.object members)

/-- The text of the value is read as the value, with enough fuel for its length. -/
def Reads (v : Json) : Prop :=
  ∀ fuel rest, 2 * v.write.length ≤ fuel → Stops rest →
    readValue fuel (v.write ++ rest) = some (v, rest)

/-- The first character of a value is neither a blank nor a closing bracket. -/
theorem Exact.exists_write {v : Json} (h : v.Exact) :
    ∃ c cs, v.write = c :: cs ∧ isBlank c = false ∧ c ≠ ']' := by
  cases h with
  | null => exact ⟨_, _, rfl, by decide, by decide⟩
  | bool b => cases b <;> exact ⟨_, _, rfl, by decide, by decide⟩
  | @int n hn =>
    obtain ⟨c, cs, htext, hc⟩ := exists_writeInt n
    exact ⟨c, cs, by rw [write, htext], hc.isBlank_eq, hc.ne (by decide)⟩
  | string s => exact ⟨_, _, rfl, by decide, by decide⟩
  | @array items hitems => cases items <;> exact ⟨_, _, rfl, by decide, by decide⟩
  | @object members hmembers => cases members <;> exact ⟨_, _, rfl, by decide, by decide⟩

theorem skipBlanks_cons {c : Char} (h : isBlank c = false) (rest : List Char) :
    skipBlanks (c :: rest) = c :: rest := by
  rw [skipBlanks, List.dropWhile_cons_of_neg (by simp [h])]

/-! ### By the first character -/

section
variable (fuel : Nat)

/-- No value but a number begins like one. -/
theorem readValue_number {c : Char} (h : BeginsNumber c) (rest : List Char) :
    readValue (fuel + 1) (c :: rest) = readNumber (c :: rest) := by
  rw [readValue, skipBlanks_cons h.isBlank_eq]
  split
  case h_7 => rfl
  all_goals
    rename_i heq
    cases heq
    exact absurd rfl (h.ne (by decide))

theorem readValue_quote (rest : List Char) :
    readValue (fuel + 1) ('\x22' :: rest) =
      (readString rest).map fun (s, rest) => (.string (String.ofList s), rest) := rfl

theorem readValue_bracket {c : Char} (hblank : isBlank c = false) (hclose : c ≠ ']')
    (rest : List Char) :
    readValue (fuel + 1) ('[' :: c :: rest) =
      (readItems fuel (c :: rest)).map fun (items, rest) => (.array items, rest) := by
  rw [readValue, skipBlanks_cons (by decide)]
  simp only [skipBlanks_cons hblank]
  split
  · rename_i heq
    cases heq
    exact absurd rfl hclose
  · rfl

theorem readValue_brace (rest : List Char) :
    readValue (fuel + 1) ('\x7b' :: '\x22' :: rest) =
      (readMembers fuel ('\x22' :: rest)).map fun (members, rest) => (.object members, rest) := rfl

theorem readItems_last {text rest : List Char} {item : Json}
    (h : readValue fuel text = some (item, ']' :: rest)) :
    readItems (fuel + 1) text = some ([item], rest) := by
  rw [readItems, h]
  rfl

theorem readItems_more {text more rest : List Char} {item : Json} {items : List Json}
    (h : readValue fuel text = some (item, ',' :: more)) (hmore : readItems fuel more = some (items, rest)) :
    readItems (fuel + 1) text = some (item :: items, rest) := by
  rw [readItems, h]
  show (readItems fuel more >>= fun (items, rest) => pure (item :: items, rest)) = _
  rw [hmore]
  rfl

end

theorem writeString_append (s : String) (rest : List Char) :
    writeString s ++ rest = '\x22' :: (s.toList.flatMap writeChar ++ '\x22' :: rest) := by
  simp [writeString]

section
variable {fuel : Nat} {key : String} {text rest : List Char} {value : Json}

theorem readMembers_last (h : readValue fuel text = some (value, '\x7d' :: rest)) :
    readMembers (fuel + 1) (writeString key ++ ':' :: text) = some ([(key, value)], rest) := by
  rw [writeString_append, readMembers, skipBlanks_cons (by decide)]
  show (readString (key.toList.flatMap writeChar ++ '\x22' :: ':' :: text) >>= fun _ => _) = _
  rw [readString_writeString]
  show (readValue fuel text >>= fun _ => _) = _
  rw [h, String.ofList_toList]
  rfl

theorem readMembers_more {more : List Char} {members : List (String × Json)}
    (h : readValue fuel text = some (value, ',' :: more))
    (hmore : readMembers fuel more = some (members, rest)) :
    readMembers (fuel + 1) (writeString key ++ ':' :: text) =
      some ((key, value) :: members, rest) := by
  rw [writeString_append, readMembers, skipBlanks_cons (by decide)]
  show (readString (key.toList.flatMap writeChar ++ '\x22' :: ':' :: text) >>= fun _ => _) = _
  rw [readString_writeString]
  show (readValue fuel text >>= fun _ => _) = _
  rw [h, String.ofList_toList]
  show (readMembers fuel more >>= fun _ => _) = _
  rw [hmore]
  rfl

end

/-- A value that is read in one step needs no more fuel than its text has. -/
theorem reads_leaf {v : Json} (hsome : v.write ≠ [])
    (h : ∀ fuel rest, Stops rest → readValue (fuel + 1) (v.write ++ rest) = some (v, rest)) :
    Reads v := by
  intro fuel rest hfuel hrest
  have hpos : 0 < v.write.length := List.length_pos_iff.2 hsome
  obtain ⟨fuel, rfl⟩ : ∃ k, fuel = k + 1 := ⟨fuel - 1, by omega⟩
  exact h fuel rest hrest

theorem reads_int {n : Int} (h : -0x8000000000000000 ≤ n ∧ n ≤ 0xffffffffffffffff) :
    Reads (.int n) := by
  obtain ⟨c, cs, htext, hc⟩ := exists_writeInt n
  refine reads_leaf (by rw [write, htext]; exact List.cons_ne_nil c cs) fun fuel rest hrest => ?_
  have hread := readNumber_writeInt h hrest
  rw [htext] at hread
  rw [write, htext, List.cons_append, readValue_number fuel hc]
  exact hread

theorem reads_string (s : String) : Reads (.string s) := by
  refine reads_leaf (List.cons_ne_nil _ _) fun fuel rest _ => ?_
  rw [write, writeString_append, readValue_quote, readString_writeString]
  simp

/-! ### Behind one another -/

theorem stops_cons {c : Char} (h : c = ',' ∨ c = ']' ∨ c = '\x7d') (rest : List Char) :
    Stops (c :: rest) := by
  intro d hd
  cases hd
  rcases h with rfl | rfl | rfl <;> decide

theorem readItems_write {item : Json} {items : List Json} (hitem : Reads item)
    (hitems : ∀ v ∈ items, Reads v) (fuel : Nat) (rest : List Char)
    (hfuel : 2 * (item.write ++ writeItems items).length ≤ fuel) :
    readItems fuel (item.write ++ (writeItems items ++ rest)) = some (item :: items, rest) := by
  induction items generalizing item fuel with
  | nil =>
    rw [writeItems] at hfuel ⊢
    rw [List.length_append, List.length_singleton] at hfuel
    obtain ⟨fuel, rfl⟩ : ∃ k, fuel = k + 1 := ⟨fuel - 1, by omega⟩
    exact readItems_last fuel (hitem fuel (']' :: rest) (by omega) (stops_cons (by decide) rest))
  | cons next items ih =>
    rw [writeItems] at hfuel ⊢
    simp only [List.length_append, List.length_cons, List.cons_append] at hfuel
    obtain ⟨fuel, rfl⟩ : ∃ k, fuel = k + 1 := ⟨fuel - 1, by omega⟩
    have hmore := ih (hitems next List.mem_cons_self)
      (fun v hv => hitems v (List.mem_cons_of_mem _ hv)) fuel
      (by rw [List.length_append]; omega)
    rw [List.cons_append, List.cons_append, List.append_assoc]
    exact readItems_more fuel
      (hitem fuel (',' :: (next.write ++ (writeItems items ++ rest))) (by omega)
        (stops_cons (by decide) _)) hmore

theorem readMembers_write (key : String) {value : Json} {members : List (String × Json)}
    (hvalue : Reads value) (hmembers : ∀ m ∈ members, Reads m.2) (fuel : Nat) (rest : List Char)
    (hfuel : 2 * (writeString key ++ ':' :: value.write ++ writeMembers members).length ≤ fuel) :
    readMembers fuel (writeString key ++ ':' :: (value.write ++ (writeMembers members ++ rest))) =
      some ((key, value) :: members, rest) := by
  induction members generalizing key value fuel with
  | nil =>
    rw [writeMembers] at hfuel ⊢
    simp only [List.length_append, List.length_cons, List.length_nil] at hfuel
    obtain ⟨fuel, rfl⟩ : ∃ k, fuel = k + 1 := ⟨fuel - 1, by omega⟩
    exact readMembers_last (hvalue fuel ('\x7d' :: rest) (by omega) (stops_cons (by decide) rest))
  | cons next members ih =>
    obtain ⟨nextKey, nextValue⟩ := next
    rw [writeMembers] at hfuel ⊢
    simp only [List.length_append, List.length_cons, List.cons_append] at hfuel
    obtain ⟨fuel, rfl⟩ : ∃ k, fuel = k + 1 := ⟨fuel - 1, by omega⟩
    have hmore := ih nextKey (hmembers _ List.mem_cons_self)
      (fun m hm => hmembers m (List.mem_cons_of_mem _ hm)) fuel
      (by simp only [List.length_append, List.length_cons]; omega)
    simp only [List.cons_append, List.append_assoc]
    exact readMembers_more (hvalue fuel _ (by omega) (stops_cons (by decide) _)) hmore

/-- **The text of a value is read back**, whatever follows it that does not go on with a number. -/
theorem Exact.reads {v : Json} (h : v.Exact) : Reads v := by
  induction h with
  | null => exact reads_leaf (List.cons_ne_nil _ _) fun _ _ _ => rfl
  | bool b => cases b <;> exact reads_leaf (List.cons_ne_nil _ _) fun _ _ _ => rfl
  | int hn => exact reads_int hn
  | string s => exact reads_string s
  | @array items hitems ih =>
    cases items with
    | nil => exact reads_leaf (List.cons_ne_nil _ _) fun _ _ _ => rfl
    | cons item items =>
      intro fuel rest hfuel _
      rw [write] at hfuel ⊢
      simp only [List.length_append, List.length_cons, List.cons_append] at hfuel
      obtain ⟨fuel, rfl⟩ : ∃ k, fuel = k + 1 := ⟨fuel - 1, by omega⟩
      obtain ⟨c, cs, htext, hblank, hclose⟩ := (hitems item List.mem_cons_self).exists_write
      have hread := readItems_write (ih item List.mem_cons_self)
        (fun v hv => ih v (List.mem_cons_of_mem _ hv)) fuel rest
        (by rw [List.length_append]; omega)
      simp only [List.cons_append, List.append_assoc]
      rw [htext, List.cons_append] at hread ⊢
      rw [readValue_bracket fuel hblank hclose, hread]
      rfl
  | @object members hmembers ih =>
    cases members with
    | nil => exact reads_leaf (List.cons_ne_nil _ _) fun _ _ _ => rfl
    | cons member members =>
      obtain ⟨key, value⟩ := member
      intro fuel rest hfuel _
      rw [write] at hfuel ⊢
      simp only [List.length_append, List.length_cons, List.cons_append] at hfuel
      obtain ⟨fuel, rfl⟩ : ∃ k, fuel = k + 1 := ⟨fuel - 1, by omega⟩
      have hread := readMembers_write key (ih _ List.mem_cons_self)
        (fun m hm => ih m (List.mem_cons_of_mem _ hm)) fuel rest
        (by simp only [List.length_append, List.length_cons]; omega)
      simp only [List.cons_append, List.append_assoc]
      rw [writeString_append] at hread ⊢
      rw [readValue_brace, hread]
      rfl

/-- A text that is that of a value is read as the value. -/
theorem read?_write {v : Json} (h : v.Exact) : read? v.write = some v := by
  have hread := h.reads (2 * v.write.length + 2) [] (by omega) (by simp [Stops])
  rw [List.append_nil] at hread
  unfold read?
  rw [hread]
  rfl

/-! ## Lines -/

theorem newline_not_mem_writeChar (c : Char) : '\n' ∉ writeChar c := by
  have hdigit : ∀ d : Fin 16, '\n' ≠ hexDigit d.1 := by decide
  rcases writeChar_cases c with ⟨-, -, hprintable, htext⟩ | ⟨l, hletter, htext⟩ | ⟨hcontrol, htext⟩
  · rw [htext, List.mem_singleton]
    rintro rfl
    revert hprintable
    decide
  · have hl : '\n' ≠ l := by
      rintro rfl
      cases hletter
    rw [htext]
    simp [hl]
  · have hhigh := hdigit ⟨c.toNat / 16, by omega⟩
    have hlow := hdigit ⟨c.toNat % 16, by omega⟩
    rw [htext]
    simp [hhigh, hlow]

theorem newline_not_mem_writeString (s : String) : '\n' ∉ writeString s := by
  simp [writeString, newline_not_mem_writeChar]

theorem beginsNumber_of_mem_writeInt {n : Int} {c : Char} (h : c ∈ writeInt n) : BeginsNumber c := by
  unfold writeInt at h
  split at h
  · rcases List.mem_cons.1 h with rfl | h
    · exact .inl rfl
    · exact .inr (isDigit_toDigits c h)
  · exact .inr (isDigit_toDigits c h)

theorem newline_not_mem_writeItems {items : List Json} (h : ∀ v ∈ items, '\n' ∉ v.write) :
    '\n' ∉ writeItems items := by
  induction items with
  | nil => decide
  | cons item items ih =>
    have hitem := h item List.mem_cons_self
    have hitems := ih fun v hv => h v (List.mem_cons_of_mem _ hv)
    simp [writeItems, hitem, hitems]

theorem newline_not_mem_writeMembers {members : List (String × Json)}
    (h : ∀ m ∈ members, '\n' ∉ m.2.write) : '\n' ∉ writeMembers members := by
  induction members with
  | nil => decide
  | cons member members ih =>
    have hvalue := h member List.mem_cons_self
    have hmembers := ih fun m hm => h m (List.mem_cons_of_mem _ hm)
    simp [writeMembers, newline_not_mem_writeString, hvalue, hmembers]

/-- **The text of a value is one line.** -/
theorem newline_not_mem_write {v : Json} (h : v.Exact) : '\n' ∉ v.write := by
  induction h with
  | null => decide
  | bool b => cases b <;> decide
  | int hn => exact fun hmem => (beginsNumber_of_mem_writeInt hmem).ne (by decide) rfl
  | string s => exact newline_not_mem_writeString s
  | @array items hitems ih =>
    cases items with
    | nil => decide
    | cons item items =>
      have hitem := ih item List.mem_cons_self
      have hrest := newline_not_mem_writeItems fun v hv => ih v (List.mem_cons_of_mem _ hv)
      simp [write, hitem, hrest]
  | @object members hmembers ih =>
    cases members with
    | nil => decide
    | cons member members =>
      have hvalue := ih member List.mem_cons_self
      have hrest := newline_not_mem_writeMembers fun m hm => ih m (List.mem_cons_of_mem _ hm)
      simp [write, newline_not_mem_writeString, hvalue, hrest]

end ExecWatch.Json
