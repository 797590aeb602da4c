import ExecWatch.Proofs.Results
import ExecWatch.Proofs.TypeTable.Reading

/-!
# The bytes that are a type table

`IsTable data table` says without a reader which bytes are a type table, and of which sections and
declarations: a header whose words place two sections inside the rest, and a type section that is one
declaration behind the other, each as long as its kind demands (`Declares`).

* `readEntries_eq_ok_iff`, `parse_eq_ok_iff`: the reader accepts these bytes and no others, with one
  entry for each declaration;
* `Declares.payload_inside`: a payload is only skipped while reading, but it lies inside the section,
  since the declarations behind it end where the section ends.
-/

namespace ExecWatch.TypeTable

/-! ## The grammar -/

/-- Bytes behind a declaration's header, by the code of its kind; no other code is a kind. -/
def payloadLength? (count : Nat) : (code : Nat) → Option Nat
  | 1 | 14 | 17 => some 4
  | 2 | 7 | 8 | 9 | 10 | 11 | 12 | 16 | 18 => some 0
  | 3 => some 12
  | 4 | 5 | 15 | 19 => some (count * 12)
  | 6 | 13 => some (count * 8)
  | _ => none

/-- `Declares start bytes entries`: the bytes, which begin `start` bytes into the type section, are
declarations one behind the other, with an entry for each. -/
inductive Declares : (start : Nat) → Bytes → List Entry → Prop
  | nil (start : Nat) : Declares start [] []
  | cons {start : Nat} {name info last : UInt32} {kind : Kind} {payload later : Bytes}
      {entries : List Entry} (code : kind.code = info.toNat / 0x1000000 % 32)
      (size : payloadLength? (info.toNat % 0x10000) kind.code = some payload.length)
      (rest : Declares (start + (12 + payload.length)) later entries) :
      Declares start
        (Bytes.ofWord32 name ++ (Bytes.ofWord32 info ++ (Bytes.ofWord32 last ++ (payload ++ later))))
        (⟨name, kind, info.toNat / 0x80000000 = 1, info.toNat % 0x10000, start + 12⟩ :: entries)

/-- The word `w` stands at `offset`. -/
def WordAt (data : Bytes) (offset : Nat) (w : UInt32) : Prop :=
  Bytes.ofWord32 w <+: data.drop offset

/-- `content` stands in `body` from `offset` on and has `length` bytes. -/
def IsSection (body : Bytes) (offset length : UInt32) (content : Bytes) : Prop :=
  ∃ before after, body = before ++ (content ++ after) ∧ offset.toNat = before.length ∧
    length.toNat = content.length

/-- The words of a header; the sections' offsets count from its end. -/
structure Header where
  length : UInt32
  typesOffset : UInt32
  typesLength : UInt32
  stringsOffset : UInt32
  stringsLength : UInt32

/-- The bytes begin with the header. -/
structure Header.Opens (h : Header) (data : Bytes) : Prop where
  size : 24 ≤ data.length
  magic : [0x9F, 0xEB] <+: data
  length : WordAt data 4 h.length
  typesOffset : WordAt data 8 h.typesOffset
  typesLength : WordAt data 12 h.typesLength
  stringsOffset : WordAt data 16 h.stringsOffset
  stringsLength : WordAt data 20 h.stringsLength
  inside : h.length.toNat ≤ data.length

/-- The bytes are a type table with the sections and entries of `table`. -/
def IsTable (data : Bytes) (table : TypeTable) : Prop :=
  ∃ h : Header, h.Opens data ∧
    IsSection (data.drop h.length.toNat) h.typesOffset h.typesLength table.types ∧
    IsSection (data.drop h.length.toNat) h.stringsOffset h.stringsLength table.strings ∧
    Declares 0 table.types table.entries

/-! ## Kinds -/

theorem payloadLength?_code (count : Nat) (k : Kind) :
    payloadLength? count k.code = some (k.payload count) := by
  cases k <;> rfl

theorem Kind.code_of_ofCode? {code : Nat} {k : Kind} (h : ofCode? code = some k) :
    k.code = code := by
  have hall : all.Nodup := by decide
  cases code with
  | zero => cases h
  | succ code =>
    obtain ⟨hlt, rfl⟩ := List.getElem?_eq_some_iff.1 h
    rw [Kind.code, hall.idxOf_getElem]

/-! ## Words and sections -/

theorem exists_ofWord32 {data : Bytes} (h : 4 ≤ data.length) :
    ∃ w later, data = Bytes.ofWord32 w ++ later := by
  match data, h with
  | b0 :: b1 :: b2 :: b3 :: later, _ =>
    exact ⟨Bytes.word32 b0 b1 b2 b3, later, by rw [Bytes.ofWord32_word32]; rfl⟩

theorem exists_word {data : Bytes} {offset : Nat} (h : offset + 4 ≤ data.length) :
    ∃ w, word data offset = .ok w := by
  have hlen : 4 ≤ (data.drop offset).length := by
    rw [List.length_drop]
    omega
  obtain ⟨w, later, hlater⟩ := exists_ofWord32 hlen
  exact ⟨w, word_of_front ⟨later, hlater.symm⟩⟩

theorem ofWord32_prefix {bytes : Bytes} {w : UInt32} (h : Bytes.word32? bytes = some w) :
    Bytes.ofWord32 w <+: bytes := by
  unfold Bytes.word32? at h
  split at h
  · cases h
    rw [Bytes.ofWord32_word32]
    exact ⟨_, rfl⟩
  · cases h

theorem word_eq_ok_iff {data : Bytes} {offset : Nat} {w : UInt32} :
    word data offset = .ok w ↔ WordAt data offset w := by
  refine ⟨fun h => ?_, word_of_front⟩
  rw [word] at h
  split at h
  · rename_i w' hword
    cases h
    exact ofWord32_prefix hword
  · cases h

theorem sectionAt_eq_ok_iff {body content : Bytes} {offset length : UInt32} :
    sectionAt body offset length = .ok content ↔ IsSection body offset length content := by
  constructor
  · intro h
    rw [sectionAt] at h
    split at h
    · rename_i hinside
      injection h with hcontent
      refine ⟨body.take offset.toNat, (body.drop offset.toNat).drop length.toNat, ?_, ?_, ?_⟩
      · rw [← hcontent, List.take_append_drop, List.take_append_drop]
      · rw [List.length_take]
        omega
      · rw [← hcontent, List.length_take, List.length_drop]
        omega
    · cases h
  · rintro ⟨before, after, rfl, hoffset, hlength⟩
    exact sectionAt_of_append after hoffset hlength

theorem magic_iff {data : Bytes} (h : 24 ≤ data.length) :
    (data.headD 0).toNat + 0x100 * (data.tail.headD 0).toNat = magic ↔ [0x9F, 0xEB] <+: data := by
  match data, h with
  | b0 :: b1 :: later, _ =>
    have h0 := b0.toNat_lt
    have h1 := b1.toNat_lt
    simp only [List.headD_cons, List.tail_cons, List.cons_prefix_cons, List.nil_prefix, and_true,
      magic, ← UInt8.toNat_inj, UInt8.reduceToNat]
    omega

/-! ## The type section -/

theorem readEntry_eq_ok {rest : Bytes} {start id : Nat} {e : Entry}
    (h : readEntry rest start id = .ok e) :
    ∃ name info kind, WordAt rest 0 name ∧ WordAt rest 4 info ∧
      kind.code = info.toNat / 0x1000000 % 32 ∧
      e = ⟨name, kind, info.toNat / 0x80000000 = 1, info.toNat % 0x10000, start + 12⟩ := by
  obtain ⟨name, hname, h⟩ := exists_of_bind_eq_ok h
  obtain ⟨info, hinfo, h⟩ := exists_of_bind_eq_ok h
  dsimp only at h
  split at h
  · cases h
  · rename_i kind hkind
    injection h with he
    exact ⟨name, info, kind, word_eq_ok_iff.1 hname, word_eq_ok_iff.1 hinfo,
      Kind.code_of_ofCode? hkind, he.symm⟩

theorem readEntry_of_front {name info : UInt32} {kind : Kind}
    (code : kind.code = info.toNat / 0x1000000 % 32) (rest : Bytes) (start id : Nat) :
    readEntry (Bytes.ofWord32 name ++ (Bytes.ofWord32 info ++ rest)) start id =
      .ok ⟨name, kind, info.toNat / 0x80000000 = 1, info.toNat % 0x10000, start + entrySize⟩ :=
  readEntry_of_words (word_of_front ⟨_, rfl⟩) (word_of_front ⟨_, rfl⟩) (code ▸ kind.ofCode?_code)
    start id

theorem drop_declaration (name info last : UInt32) (payload later : Bytes) :
    (Bytes.ofWord32 name ++ (Bytes.ofWord32 info ++ (Bytes.ofWord32 last ++
      (payload ++ later)))).drop (12 + payload.length) = later := by
  rw [← List.drop_drop]
  exact List.drop_left

theorem Declares.readEntries_eq {start : Nat} {bytes : Bytes} {entries : List Entry}
    (h : Declares start bytes entries) (id : Nat) : readEntries bytes start id = .ok entries := by
  induction h generalizing id with
  | nil start => rw [readEntries]
  | @cons start name info last kind payload later entries code size rest ih =>
    have hsize : entrySize + kind.payload (info.toNat % 0x10000) = 12 + payload.length := by
      rw [payloadLength?_code] at size
      rw [Option.some.inj size, entrySize]
    rw [readEntries_of_ne_nil (by simp [Bytes.ofWord32]), readEntry_of_front code]
    simp only [hsize, drop_declaration, ih]
    rw [if_neg]
    · rfl
    · simp only [List.length_append, Bytes.length_ofWord32]
      omega

theorem exists_payload {rest : Bytes} {name info : UInt32} {n : Nat} (hname : WordAt rest 0 name)
    (hinfo : WordAt rest 4 info) (hsize : 12 + n ≤ rest.length) :
    ∃ last payload, payload.length = n ∧ rest = Bytes.ofWord32 name ++ (Bytes.ofWord32 info ++
      (Bytes.ofWord32 last ++ (payload ++ rest.drop (12 + n)))) := by
  obtain ⟨later, rfl⟩ := hname
  obtain ⟨later, rfl⟩ := hinfo
  simp only [List.length_append, Bytes.length_ofWord32] at hsize
  have hlast : 4 ≤ later.length := by omega
  obtain ⟨last, later, rfl⟩ := exists_ofWord32 hlast
  rw [List.length_append, Bytes.length_ofWord32] at hsize
  have hpayload : (later.take n).length = n := List.length_take_of_le (by omega)
  have hlater := drop_declaration name info last (later.take n) (later.drop n)
  rw [List.take_append_drop, hpayload] at hlater
  exact ⟨last, later.take n, hpayload, by rw [hlater, List.take_append_drop]⟩

theorem declares_of_readEntries {bytes : Bytes} {start id : Nat} {entries : List Entry}
    (h : readEntries bytes start id = .ok entries) : Declares start bytes entries := by
  fun_induction readEntries bytes start id generalizing entries with
  | case1 start =>
    cases h
    exact .nil start
  | case2 | case3 | case4 => cases h
  | case5 b tail start id e hentry size hsize es hlater =>
    rename_i ih
    cases h
    obtain ⟨name, info, kind, hname, hinfo, hcode, rfl⟩ := readEntry_eq_ok hentry
    obtain ⟨last, payload, hpayload, hbytes⟩ := exists_payload hname hinfo (Nat.not_lt.1 hsize)
    rw [hbytes]
    refine .cons hcode ?_ ?_
    · rw [payloadLength?_code, hpayload]
    · rw [hpayload]
      exact ih hlater

/-- The type section is read exactly when it is one declaration behind the other. -/
theorem readEntries_eq_ok_iff {bytes : Bytes} {start id : Nat} {entries : List Entry} :
    readEntries bytes start id = .ok entries ↔ Declares start bytes entries :=
  ⟨declares_of_readEntries, fun h => h.readEntries_eq id⟩

/-! ## The whole table -/

theorem isTable_of_parse {data : Bytes} {table : TypeTable} (h : parse data = .ok table) :
    IsTable data table := by
  unfold parse at h
  obtain ⟨hsize, h⟩ := of_guard_eq_ok h
  obtain ⟨hmagic, h⟩ := of_guard_eq_ok h
  obtain ⟨length, hlength, h⟩ := exists_of_bind_eq_ok h
  obtain ⟨hinside, h⟩ := of_guard_eq_ok h
  obtain ⟨typesOffset, h8, h⟩ := exists_of_bind_eq_ok h
  obtain ⟨typesLength, h12, h⟩ := exists_of_bind_eq_ok h
  obtain ⟨types, htypes, h⟩ := exists_of_bind_eq_ok h
  obtain ⟨stringsOffset, h16, h⟩ := exists_of_bind_eq_ok h
  obtain ⟨stringsLength, h20, h⟩ := exists_of_bind_eq_ok h
  obtain ⟨strings, hstrings, h⟩ := exists_of_bind_eq_ok h
  obtain ⟨entries, hentries, h⟩ := exists_of_bind_eq_ok h
  cases h
  refine ⟨⟨length, typesOffset, typesLength, stringsOffset, stringsLength⟩, ?_,
    sectionAt_eq_ok_iff.1 htypes, sectionAt_eq_ok_iff.1 hstrings, readEntries_eq_ok_iff.1 hentries⟩
  exact
    { size := Nat.not_lt.1 hsize
      magic := (magic_iff (Nat.not_lt.1 hsize)).1 (not_not.1 hmagic)
      length := word_eq_ok_iff.1 hlength
      typesOffset := word_eq_ok_iff.1 h8
      typesLength := word_eq_ok_iff.1 h12
      stringsOffset := word_eq_ok_iff.1 h16
      stringsLength := word_eq_ok_iff.1 h20
      inside := Nat.not_lt.1 hinside }

/-- **The reader accepts exactly the type tables**, and reads each as what it is. -/
theorem parse_eq_ok_iff {data : Bytes} {table : TypeTable} :
    parse data = .ok table ↔ IsTable data table := by
  refine ⟨isTable_of_parse, ?_⟩
  rintro ⟨h, hopens, htypes, hstrings, hentries⟩
  exact parse_of_parts hopens.size ((magic_iff hopens.size).2 hopens.magic)
    (word_of_front hopens.length) hopens.inside (word_of_front hopens.typesOffset)
    (word_of_front hopens.typesLength) (word_of_front hopens.stringsOffset)
    (word_of_front hopens.stringsLength) (sectionAt_eq_ok_iff.2 htypes)
    (sectionAt_eq_ok_iff.2 hstrings) (readEntries_eq_ok_iff.2 hentries)

/-- **Payloads lie inside the section.** By induction on the declarations from the last one on: those
behind a payload are inside it. -/
theorem Declares.payload_inside {start : Nat} {bytes : Bytes} {entries : List Entry}
    (h : Declares start bytes entries) {e : Entry} (he : e ∈ entries) :
    e.payload + e.kind.payload e.count ≤ start + bytes.length := by
  induction h with
  | nil => cases he
  | cons code size rest ih =>
    simp only [List.length_append, Bytes.length_ofWord32]
    rcases List.mem_cons.1 he with rfl | he
    · rw [payloadLength?_code] at size
      rw [Option.some.inj size, Nat.add_assoc]
      omega
    · have hlater := ih he
      omega

end ExecWatch.TypeTable
