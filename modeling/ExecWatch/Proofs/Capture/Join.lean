import ExecWatch.Capture.Fill

/-!
# The join of an argument vector

`Argv.joined space vector` is the text that the argument vector at `vector` stands for, said without
a buffer: its strings up to the first that cannot be read, joined by single spaces. Over a memory
whose string helper is honest (`UserMemory.Honest`) the bounded join writes as much of it as fits:

* `Holds original text p`: the progress `p` has `text` at the front of the buffer and, one byte
  further on, what the buffer held at first. Kept by the separator (`Holds.separate`), by a string
  (`Holds.append_string`) and by a whole visit (`Holds.visit`), which adds the text of the slots it is
  given (`textFrom`);
* `textFrom_zero`: the text of all slots is `joined`;
* `join_eq`: the buffer after the join is a prefix of `joined`, a NUL, and the rest of what it held.
-/

namespace ExecWatch

/-- The memory answers from `space` at all times, and its string helper is honest: into a window of
`n` bytes it copies what fits beside a NUL, writes the NUL behind it and reports the number of bytes
copied; on a fault it leaves the window alone. -/
structure UserMemory.Honest (mem : UserMemory) (space : AddressSpace) : Prop where
  pointer : ∀ seen address, mem.pointer seen address = space.word address
  string : ∀ seen address window text, space.string address = some text → window ≠ [] →
    mem.string seen address window =
      ⟨text.take (window.length - 1) ++ 0 :: window.drop (min text.length (window.length - 1) + 1),
        some (UInt64.ofNat (min text.length (window.length - 1)))⟩
  fault : ∀ seen address window, space.string address = none →
    mem.string seen address window = ⟨window, none⟩

theorem UserMemory.honest_ofSpace (space : AddressSpace) : (ofSpace space).Honest space where
  pointer _ _ := rfl
  string seen address window text h hw := by
    have hn : window.length ≠ 0 := fun h0 => hw (List.length_eq_zero_iff.1 h0)
    simp [ofSpace, overReporting, h, StringRead.copy, hw, List.length_take, Nat.min_comm]
  fault seen address window h := by
    simp [ofSpace, overReporting, h, StringRead.fault]

/-- The values at the front of a list, up to the first that is missing. -/
def upToNone {α : Type} : List (Option α) → List α
  | some a :: rest => a :: upToNone rest
  | _ => []

namespace Argv

/-! ## The text without a buffer -/

/-- The slot's pointer, unless it cannot be read or is null. -/
def pointer? (space : AddressSpace) (vector : UInt64) (i : Nat) : Option UInt64 :=
  (space.word (slotAddress vector i)).filter (· ≠ 0)

/-- The pointers of `slots` slots from slot `i` on, up to the first that is null or cannot be
read. -/
def pointersFrom (space : AddressSpace) (vector : UInt64) (slots i : Nat) : List UInt64 :=
  upToNone ((List.range' i slots).map (pointer? space vector))

/-- The strings at the pointers, up to the first that cannot be read. -/
def strings (space : AddressSpace) (pointers : List UInt64) : List Bytes :=
  upToNone (pointers.map space.string)

/-- The strings at the pointers joined by single spaces, and one space more when a string after the
first could not be read. -/
def joinStrings (space : AddressSpace) (pointers : List UInt64) : Bytes :=
  [0x20].intercalate (strings space pointers) ++
    if 0 < (strings space pointers).length ∧ (strings space pointers).length < pointers.length
    then [0x20] else []

/-- The text of the vector at `vector`. A null vector has none. -/
def joined (space : AddressSpace) (vector : UInt64) : Bytes :=
  if vector = 0 then [] else joinStrings space (pointersFrom space vector maxSlots 0)

/-- The byte that is written before the string of slot `i`. -/
def separator (i : Nat) : Bytes := if i = 0 then [] else [0x20]

/-- What `slots` slots from slot `i` on add to the text, slot by slot. -/
def textFrom (space : AddressSpace) (vector : UInt64) : (slots i : Nat) → Bytes
  | 0, _ => []
  | slots + 1, i =>
    match pointer? space vector i with
    | none => []
    | some address =>
      separator i ++
        match space.string address with
        | none => []
        | some text => text ++ textFrom space vector slots (i + 1)

theorem intercalate_cons {α : Type} (sep text : List α) (texts : List (List α)) :
    sep.intercalate (text :: texts) = text ++ texts.flatMap (sep ++ ·) := by
  induction texts generalizing text with
  | nil => simp [List.intercalate]
  | cons t texts ih =>
    have h := ih t
    simp only [List.intercalate, List.intersperse, List.flatten_cons, List.flatMap_cons] at h ⊢
    cases texts with
    | nil => simp
    | cons u texts => simp_all

theorem pointersFrom_succ (space : AddressSpace) (vector : UInt64) (slots i : Nat) :
    pointersFrom space vector (slots + 1) i =
      match pointer? space vector i with
      | none => []
      | some address => address :: pointersFrom space vector slots (i + 1) := by
  unfold pointersFrom
  rw [List.range'_succ, List.map_cons]
  cases pointer? space vector i <;> rfl

theorem strings_cons (space : AddressSpace) (address : UInt64) (pointers : List UInt64) :
    strings space (address :: pointers) =
      match space.string address with
      | none => []
      | some text => text :: strings space pointers := by
  unfold strings
  rw [List.map_cons]
  cases space.string address <;> rfl

/-- Behind slot 0 every string has a space before it, the first that cannot be read included. -/
theorem textFrom_behind (space : AddressSpace) (vector : UInt64) (slots i : Nat) :
    textFrom space vector slots (i + 1) =
      (strings space (pointersFrom space vector slots (i + 1))).flatMap ([0x20] ++ ·) ++
        if (strings space (pointersFrom space vector slots (i + 1))).length <
          (pointersFrom space vector slots (i + 1)).length then [0x20] else [] := by
  induction slots generalizing i with
  | zero => rfl
  | succ slots ih =>
    rw [textFrom, pointersFrom_succ]
    cases pointer? space vector (i + 1) with
    | none => rfl
    | some address =>
      simp only [strings_cons]
      cases space.string address with
      | none => rfl
      | some text => simp [ih, separator]

theorem textFrom_zero (space : AddressSpace) (vector : UInt64) (slots : Nat) :
    textFrom space vector slots 0 = joinStrings space (pointersFrom space vector slots 0) := by
  cases slots with
  | zero => rfl
  | succ slots =>
    unfold joinStrings
    rw [textFrom, pointersFrom_succ]
    cases pointer? space vector 0 with
    | none => rfl
    | some address =>
      simp only [strings_cons]
      cases space.string address with
      | none => rfl
      | some text => simp [textFrom_behind, separator, intercalate_cons]

/-! ## One slot -/

section
variable {mem : UserMemory} {vector address : UInt64} {slots i : Nat} {p : Progress}
  {window : Bytes}

theorem append_of_fault
    (h : mem.string p.seen address (p.buffer.drop p.used) = ⟨window, none⟩) :
    append mem address p = (⟨p.buffer.take p.used ++ window, p.used,
      .userString address (p.buffer.drop p.used).length :: p.seen⟩, false) := by
  simp only [append, h]

theorem append_of_copied {n : UInt64}
    (h : mem.string p.seen address (p.buffer.drop p.used) = ⟨window, some n⟩) :
    append mem address p = (⟨p.buffer.take p.used ++ window,
      p.used + min n.toNat (p.buffer.length - p.used - 1),
      .userString address (p.buffer.drop p.used).length :: p.seen⟩, true) := by
  simp only [append, h]

/-- The visit stops at once when only the NUL's byte is left. -/
theorem visit_full (h : p.buffer.length - 1 ≤ p.used) : visit mem vector slots i p = p := by
  cases slots with
  | zero => rfl
  | succ slots => rw [visit, if_pos h]

/-- A slot that cannot be read or is null ends the visit. -/
theorem visit_stop (hroom : p.used < p.buffer.length - 1)
    (h : (mem.pointer p.seen (slotAddress vector i)).filter (· ≠ 0) = none) :
    visit mem vector (slots + 1) i p =
      { p with seen := .userPointer (slotAddress vector i) :: p.seen } := by
  rw [visit, if_neg (by omega)]
  cases hw : mem.pointer p.seen (slotAddress vector i) with
  | none => simp only [hw]
  | some address =>
    have hz : address = 0 := by simpa [hw, Option.filter] using h
    simp only [hw, hz, ↓reduceIte]

/-- Any other slot is given its separator and, if that leaves room, its string. -/
theorem visit_slot (hroom : p.used < p.buffer.length - 1)
    (h : (mem.pointer p.seen (slotAddress vector i)).filter (· ≠ 0) = some address)
    {q : Progress}
    (hq : separate i { p with seen := .userPointer (slotAddress vector i) :: p.seen } = q) :
    visit mem vector (slots + 1) i p =
      if q.buffer.length - q.used - 1 = 0 then q
      else if (append mem address q).2 then visit mem vector slots (i + 1) (append mem address q).1
      else (append mem address q).1 := by
  obtain ⟨hw, hz⟩ := Option.filter_eq_some_iff.1 h
  have hz : address ≠ 0 := by simpa using hz
  rw [visit, if_neg (by omega)]
  simp only [hw, hz, hq, ↓reduceIte]
  split
  · rfl
  · split <;> simp_all

end

/-! ## The text in the buffer -/

/-- `text` stands at the front of the buffer, which held `original` at first. The byte behind it is
anything, what follows is as it was. -/
def Holds (original text : Bytes) (p : Progress) : Prop :=
  p.used = text.length ∧ text.length < original.length ∧
    ∃ b, p.buffer = text ++ b :: original.drop (text.length + 1)

section
variable {original text : Bytes} {p : Progress}

theorem Holds.length_buffer (h : Holds original text p) : p.buffer.length = original.length := by
  obtain ⟨-, hlt, b, hb⟩ := h
  rw [hb]
  simp only [List.length_append, List.length_cons, List.length_drop]
  omega

theorem Holds.start (h : 0 < original.length) (seen : List Access) :
    Holds original [] ⟨original, 0, seen⟩ := by
  cases original with
  | nil => simp at h
  | cons b rest => exact ⟨rfl, h, b, rfl⟩

/-- A byte written behind the text belongs to it. -/
theorem Holds.push (h : Holds original text p) (hroom : text.length + 1 < original.length)
    (b : UInt8) (seen : List Access) :
    Holds original (text ++ [b]) ⟨p.buffer.set p.used b, p.used + 1, seen⟩ := by
  obtain ⟨hused, -, x, hx⟩ := h
  obtain ⟨y, rest, hrest⟩ : ∃ y rest, original.drop (text.length + 1) = y :: rest :=
    List.exists_cons_of_length_pos (by rw [List.length_drop]; omega)
  have hlater : original.drop (text.length + 1 + 1) = rest := by
    rw [← List.tail_drop, hrest, List.tail_cons]
  refine ⟨by simp [hused], by simpa using hroom, y, ?_⟩
  simp [hx, hused, hrest, hlater]

theorem Holds.separate (h : Holds original text p) (hroom : text.length + 1 < original.length)
    (i : Nat) : Holds original (text ++ separator i) (separate i p) := by
  unfold Argv.separate separator
  split
  · simpa using h
  · exact h.push hroom 0x20 p.seen

/-- A string that cannot be read changes nothing. -/
theorem Holds.append_fault {mem : UserMemory} {space : AddressSpace} (hm : mem.Honest space)
    (h : Holds original text p) {address : UInt64} (hs : space.string address = none) :
    ∃ q, append mem address p = (q, false) ∧ Holds original text q := by
  obtain ⟨hused, hlt, b, hb⟩ := h
  refine ⟨_, append_of_fault (hm.fault _ _ _ hs), hused, hlt, b, ?_⟩
  simpa using hb

/-- A string is added as far as the buffer goes. -/
theorem Holds.append_string {mem : UserMemory} {space : AddressSpace} (hm : mem.Honest space)
    (hsize : original.length ≤ UInt64.size) (h : Holds original text p) {address : UInt64}
    {string : Bytes} (hs : space.string address = some string) :
    ∃ q, append mem address p = (q, true) ∧
      Holds original ((text ++ string).take (original.length - 1)) q := by
  have hlen := h.length_buffer
  obtain ⟨hused, hlt, b, hb⟩ := h
  have hwindow : p.buffer.drop p.used = b :: original.drop (text.length + 1) := by
    rw [hb, hused, List.drop_left]
  have hcount : (p.buffer.drop p.used).length - 1 = original.length - 1 - text.length := by
    rw [List.length_drop, hlen, hused]; omega
  have hread := hm.string p.seen address (p.buffer.drop p.used) string hs (by simp [hwindow])
  rw [hcount] at hread
  -- the helper's count is below the buffer's length, so it is not cut to 64 bits
  have hcopied : (UInt64.ofNat (min string.length (original.length - 1 - text.length))).toNat =
      min string.length (original.length - 1 - text.length) := by
    rw [UInt64.toNat_ofNat']
    exact Nat.mod_eq_of_lt (by unfold UInt64.size at hsize; omega)
  have htake : (text ++ string).take (original.length - 1) =
      text ++ string.take (original.length - 1 - text.length) := by
    rw [List.take_append, List.take_of_length_le (by omega)]
  refine ⟨_, append_of_copied hread, ?_⟩
  rw [htake]
  refine ⟨?_, ?_, 0, ?_⟩
  · simp only [hcopied, hused, hlen, List.length_append, List.length_take]
    omega
  · simp only [List.length_append, List.length_take]
    omega
  · have hfront : p.buffer.take p.used = text := by rw [hb, hused, List.take_left]
    simp only [hfront, hwindow, List.drop_succ_cons, List.drop_drop, List.length_append,
      List.length_take, List.append_assoc]
    congr 4
    omega

theorem take_take_append (n : Nat) (front rest : Bytes) :
    (front.take n ++ rest).take n = (front ++ rest).take n := by
  rw [List.take_append, List.take_append, List.take_take, List.length_take, Nat.min_self]
  congr 2
  omega

/-- **A visit adds the text of its slots**, as far as the buffer goes. -/
theorem Holds.visit {mem : UserMemory} {space : AddressSpace} (hm : mem.Honest space)
    (vector : UInt64) (hsize : original.length ≤ UInt64.size) (slots i : Nat)
    (h : Holds original text p) :
    Holds original ((text ++ textFrom space vector slots i).take (original.length - 1))
      (Argv.visit mem vector slots i p) := by
  -- on the slots; the text so far, the index and the progress change from slot to slot
  induction slots generalizing i text p with
  | zero =>
    rw [textFrom, List.append_nil, List.take_of_length_le (by have := h.2.1; omega)]
    exact h
  | succ slots ih =>
    have hlen := h.length_buffer
    have hused := h.1
    have hlt := h.2.1
    by_cases hfull : original.length - 1 ≤ text.length
    · rw [visit_full (by omega), List.take_append_of_le_length hfull,
        List.take_of_length_le (by omega)]
      exact h
    · have hroom : p.used < p.buffer.length - 1 := by omega
      rw [textFrom]
      cases hp : pointer? space vector i with
      | none =>
        rw [visit_stop hroom (by rw [hm.pointer]; exact hp)]
        rw [List.append_nil, List.take_of_length_le (by omega)]
        exact h
      | some address =>
        have hsep : Holds original (text ++ separator i) _ := Holds.separate
          (p := { p with seen := .userPointer (slotAddress vector i) :: p.seen }) h (by omega) i
        have hslen := hsep.length_buffer
        have hsused := hsep.1
        rw [visit_slot hroom (by rw [hm.pointer]; exact hp) rfl, ← List.append_assoc]
        by_cases hlast : (text ++ separator i).length = original.length - 1
        · rw [if_pos (by omega), List.take_append_of_le_length (by omega),
            List.take_of_length_le (by omega)]
          exact hsep
        · have hslt := hsep.2.1
          rw [if_neg (by omega)]
          cases hs : space.string address with
          | none =>
            obtain ⟨q, hq, hh⟩ := hsep.append_fault hm hs
            rw [hq, List.append_nil, List.take_of_length_le (by omega)]
            exact hh
          | some string =>
            obtain ⟨q, hq, hh⟩ := hsep.append_string hm hsize hs
            rw [hq, if_pos rfl, ← List.append_assoc, ← take_take_append]
            exact ih (i + 1) hh

end

/-- **The join over an honest memory**: as much of the vector's text as fits beside a NUL, the NUL,
and behind it what the buffer held. -/
theorem join_eq {mem : UserMemory} {space : AddressSpace} (hm : mem.Honest space)
    (vector : UInt64) (buffer : Bytes) (hpos : 0 < buffer.length)
    (hsize : buffer.length ≤ UInt64.size) (seen : List Access) :
    (join mem vector buffer seen).used = min (joined space vector).length (buffer.length - 1) ∧
      (join mem vector buffer seen).buffer =
        (joined space vector).take (buffer.length - 1) ++
          0 :: buffer.drop (min (joined space vector).length (buffer.length - 1) + 1) := by
  have key : Holds buffer ((joined space vector).take (buffer.length - 1))
      (if vector = 0 then ⟨buffer, 0, seen⟩ else visit mem vector maxSlots 0 ⟨buffer, 0, seen⟩) := by
    unfold joined
    split
    · rw [List.take_nil]
      exact Holds.start hpos seen
    · rw [← textFrom_zero]
      exact (Holds.start hpos seen).visit hm vector hsize maxSlots 0
  have hlen := key.length_buffer
  obtain ⟨hused, hlt, b, hb⟩ := key
  rw [List.length_take, Nat.min_comm] at hused hlt
  unfold join
  simp only [hused, hlen]
  rw [Nat.min_eq_left (by omega)]
  refine ⟨rfl, ?_⟩
  rw [hb, List.set_append_right _ _ (by rw [List.length_take]; omega), List.length_take,
    Nat.min_comm (buffer.length - 1), Nat.sub_self, List.set_cons_zero]

end Argv

end ExecWatch
