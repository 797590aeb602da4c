import ExecWatch.Proofs.TypeTable.Flattening

/-!
# Member offsets of declared structs

`bitOffset` and `byteOffset` say where a field lies without a table: in the flattened members of the
first struct of the given name that has members, or why it lies nowhere. Main statements:

* `memberOffset_eq`: a table that holds the declarations answers with that number of bits, in bytes,
  if a word holds it;
* `lookup_undoes_encoding`: the bytes of declarations are read as those declarations, and offsets
  looked up in them are the declared ones wherever the bits fit a word.
-/

namespace ExecWatch.TypeTable

/-- The first struct of the given name that has members. -/
def structNamed? (ds : List Decl) (name : String) : Option Decl :=
  ds.find? fun d => d.kind = .struct ∧ d.members ≠ [] ∧ d.name.text = name

/-- How many bits into the struct the field lies, through at most eight levels of nameless
members. -/
def bitOffset (ds : List Decl) (struct field : String) : Except Error Nat :=
  match structNamed? ds struct with
  | none => .error (.noStruct struct)
  | some d =>
    match (flatten ds 8 d).lookup field with
    | none => .error (.noMember struct field)
    | some bits => .ok bits

/-- How many bytes into the struct the field lies; a field that begins inside a byte has no such
offset. -/
def byteOffset (ds : List Decl) (struct field : String) : Except (Failure Error) Nat :=
  match bitOffset ds struct field with
  | .error e => .error (.reported e)
  | .ok bits => if bits % 8 = 0 then .ok (bits / 8) else .error (.reported (.bitField struct field))

/-! ## Finding the struct -/

theorem isRecord_of_struct {k : Kind} (h : k = .struct) : k.isRecord = true := by
  rw [h]
  rfl

theorem findStruct_cases {table : TypeTable} {es : List Entry} {ds : List Decl} (name : String)
    (h : List.Forall₂ table.Describes es ds) :
    table.findStruct name es = .error (.noStruct name) ∧ structNamed? ds name = none ∨
      ∃ e d, table.findStruct name es = .ok e ∧ structNamed? ds name = some d ∧
        table.Describes e d ∧ d.kind = .struct := by
  induction h with
  | nil => exact .inl ⟨rfl, rfl⟩
  | @cons e d es ds he _ ih =>
    -- table and list pass over the same declarations without looking at their names
    have hcandidate : e.kind = .struct ∧ 0 < e.count ↔ d.kind = .struct ∧ d.members ≠ [] := by
      rw [he.kind, he.count]
      refine and_congr_right fun hstruct => ?_
      rw [Decl.count_of_isRecord (isRecord_of_struct hstruct), List.length_pos_iff]
    by_cases hd : d.kind = .struct ∧ d.members ≠ []
    · rw [findStruct, if_pos (hcandidate.2 hd), he.name]
      simp only [bind, Except.bind]
      by_cases hname : d.name.text = name
      · have hfound : structNamed? (d :: ds) name = some d :=
          List.find?_cons_of_pos (by simpa using ⟨hd.1, hd.2, hname⟩)
        rw [if_pos hname]
        exact .inr ⟨e, d, rfl, hfound, he, hd.1⟩
      · have hlater : structNamed? (d :: ds) name = structNamed? ds name :=
          List.find?_cons_of_neg (by simp [hname])
        rw [if_neg hname, hlater]
        exact ih
    · have hlater : structNamed? (d :: ds) name = structNamed? ds name :=
        List.find?_cons_of_neg (by simpa using fun hs hm => absurd ⟨hs, hm⟩ hd)
      rw [findStruct, if_neg (mt hcandidate.1 hd), hlater]
      exact ih

/-! ## Offsets -/

/-- What is made of the bits at which a field was found in a struct. -/
def offsetOfBits (struct field : String) : Option UInt32 → Except (Failure Error) UInt32
  | none => .error (.reported (.noMember struct field))
  | some bits =>
    if bits % 8 = 0 then .ok (bits / 8) else .error (.reported (.bitField struct field))

section
variable {table : TypeTable} {struct : String}

theorem memberOffset_of_findStruct {e : Entry} (h : table.findStruct struct table.entries = .ok e)
    (field : String) :
    table.memberOffset struct field =
      (table.memberBits field 8 e).bind (offsetOfBits struct field) := by
  have hlevels : maxNesting = 8 := rfl
  rw [memberOffset, h, hlevels]
  simp only [bind, Except.bind, Except.mapError]
  rcases table.memberBits field 8 e with failure | _ | bits
  · rfl
  · rfl
  · by_cases hwhole : bits % 8 = 0
    · simp only [offsetOfBits, if_pos hwhole]
      exact if_neg (not_not_intro hwhole)
    · simp only [offsetOfBits, if_neg hwhole]
      exact if_pos hwhole

theorem memberOffset_of_no_struct {err : Error}
    (h : table.findStruct struct table.entries = .error err) (field : String) :
    table.memberOffset struct field = .error (.reported err) := by
  rw [memberOffset, h]
  rfl

end

theorem offsetOfBits_ofNat {bits : Nat} (hfits : bits < 0x100000000) (struct field : String) :
    offsetOfBits struct field (some (UInt32.ofNat bits)) =
      if bits % 8 = 0 then .ok (UInt32.ofNat (bits / 8))
      else .error (.reported (.bitField struct field)) := by
  have hwhole : UInt32.ofNat bits % 8 = 0 ↔ bits % 8 = 0 := by
    rw [← UInt32.toNat_inj, UInt32.toNat_mod, toNat_ofNat_of_lt hfits]
    rfl
  have hbytes : UInt32.ofNat bits / 8 = UInt32.ofNat (bits / 8) := by
    rw [← UInt32.toNat_inj, UInt32.toNat_div, toNat_ofNat_of_lt hfits, toNat_ofNat_of_lt (by omega)]
    rfl
  simp only [offsetOfBits, hwhole, hbytes]

/-- A table that holds the declarations answers with the number of bits, in bytes, if a word holds
it. -/
theorem memberOffset_eq {table : TypeTable} {ds : List Decl} (h : table.Holds ds)
    (struct field : String) :
    table.memberOffset struct field =
      match bitOffset ds struct field with
      | .error e => .error (.reported e)
      | .ok bits =>
        if bits < 0x100000000 then
          if bits % 8 = 0 then .ok (UInt32.ofNat (bits / 8))
          else .error (.reported (.bitField struct field))
        else .error .overflow := by
  rw [bitOffset]
  rcases findStruct_cases struct h with ⟨hfind, hnone⟩ | ⟨e, d, hfind, hsome, he, hstruct⟩
  · rw [memberOffset_of_no_struct hfind, hnone]
  · rw [memberOffset_of_findStruct hfind, hsome,
      memberBits_eq h field _ he (isRecord_of_struct hstruct)]
    dsimp only
    cases (flatten ds 8 d).lookup field with
    | none => rfl
    | some bits =>
      by_cases hfits : bits < 0x100000000
      · have hword : wordOfBits bits = .ok (UInt32.ofNat bits) := if_pos hfits
        simp only [Option.mapM_some, hword, if_pos hfits]
        exact offsetOfBits_ofNat hfits struct field
      · have hnone : wordOfBits bits = .error .overflow := if_neg hfits
        simp only [Option.mapM_some, hnone, if_neg hfits]
        rfl

/-- A field that begins with a byte is found there, if a word holds its bits. -/
theorem memberOffset_of_bytes {table : TypeTable} {ds : List Decl} (h : table.Holds ds)
    {struct field : String} {bytes : Nat} (hbytes : bitOffset ds struct field = .ok (8 * bytes))
    (hfits : 8 * bytes < 0x100000000) : table.memberOffset struct field = .ok (UInt32.ofNat bytes) := by
  have hwhole : 8 * bytes % 8 = 0 := Nat.mul_mod_right 8 bytes
  have hcount : 8 * bytes / 8 = bytes := Nat.mul_div_cancel_left bytes (by decide)
  rw [memberOffset_eq h, hbytes]
  simp only [if_pos hfits, if_pos hwhole, hcount]

theorem memberOffset_of_long {table : TypeTable} {ds : List Decl} (h : table.Holds ds)
    {struct field : String} {bits : Nat} (hbits : bitOffset ds struct field = .ok bits)
    (hlong : 0x100000000 ≤ bits) : table.memberOffset struct field = .error .overflow := by
  rw [memberOffset_eq h, hbits]
  exact if_neg (Nat.not_lt.2 hlong)

/-- Where the number of bits fits a word, the table's answer is the declared one. -/
theorem toNat_memberOffset {table : TypeTable} {ds : List Decl} (h : table.Holds ds)
    {struct field : String}
    (hfits : ∀ bits, bitOffset ds struct field = .ok bits → bits < 0x100000000) :
    (table.memberOffset struct field).map UInt32.toNat = byteOffset ds struct field := by
  rw [memberOffset_eq h, byteOffset]
  cases hbits : bitOffset ds struct field with
  | error e => rfl
  | ok bits =>
    have hlt := hfits bits hbits
    simp only [if_pos hlt]
    by_cases hwhole : bits % 8 = 0
    · rw [if_pos hwhole, if_pos hwhole, Except.map, toNat_ofNat_of_lt (by omega)]
    · rw [if_neg hwhole, if_neg hwhole]
      rfl

/-! ## Ids -/

theorem length_typeBytes (next : Nat) (ds : List Decl) :
    entrySize * ds.length ≤ (typeBytes next ds).length := by
  induction ds generalizing next with
  | nil => exact Nat.zero_le _
  | cons d later ih =>
    have hrest := ih (next + d.strings.length)
    rw [typeBytes, List.length_append, d.length_bytes, List.length_cons, Nat.mul_succ]
    omega

/-- Declarations that fit have ids that are words. -/
theorem Fits.length_lt {ds : List Decl} (h : Fits ds) : ds.length < 0x15555556 := by
  have hbytes := length_typeBytes 1 ds
  have htypes := h.types
  rw [typeSection] at htypes
  rw [entrySize] at hbytes
  omega

theorem entry?_ofNat {table : TypeTable} {i : Nat} (hi : i < 0x15555556) :
    table.entry? (UInt32.ofNat (i + 1)) = table.entries[i]? := by
  have hid : (UInt32.ofNat (i + 1)).toNat = i + 1 := toNat_ofNat_of_lt (by omega)
  have hne : UInt32.ofNat (i + 1) ≠ 0 := by
    intro hzero
    rw [hzero] at hid
    exact absurd hid.symm (Nat.succ_ne_zero i)
  unfold entry?
  rw [if_neg hne, hid, Nat.add_sub_cancel]

/-! ## Lookup after encoding -/

/-- **Reading and looking up undo the layout.** The bytes of declarations are read as a table with one
entry for each, in order and under the ids from 1 on; a member's offset looked up in it is the one
that the flattened members give, the errors included, wherever that many bits fit a word. -/
theorem lookup_undoes_encoding {ds : List Decl} (hfits : Fits ds) :
    ∃ table, parse (encode ds) = .ok table ∧ table.Holds ds ∧
      (∀ i < ds.length, table.entry? (UInt32.ofNat (i + 1)) = table.entries[i]?) ∧
      ∀ struct field, (∀ bits, bitOffset ds struct field = .ok bits → bits < 0x100000000) →
        (table.memberOffset struct field).map UInt32.toNat = byteOffset ds struct field := by
  refine ⟨ofDecls ds, parse_encode hfits, ofDecls_holds hfits, fun i hi => ?_,
    fun struct field => toNat_memberOffset (ofDecls_holds hfits)⟩
  exact entry?_ofNat (Nat.lt_trans hi hfits.length_lt)

/-- A table like a kernel's: a struct of the name comes after a forward declaration of it, and holds
one field through a nameless struct. -/
def taskDecls : List Decl :=
  let named (text : String) (plain : '\x00' ∉ text.toList) : Name := ⟨text, plain⟩
  let nameless : Name := ⟨"", by decide⟩
  [ ⟨named "int" (by decide), false, 4, .other .int rfl 0 (by decide) [32, 0, 0, 0] rfl⟩,
    ⟨named "task_struct" (by decide), false, 0, .other .fwd rfl 0 (by decide) [] rfl⟩,
    ⟨nameless, false, 6, .other .ptr rfl 0 (by decide) [] rfl⟩,
    ⟨nameless, false, 4096, .record .struct rfl
      [ ⟨named "parent_exec_id" (by decide), 1, 0⟩, ⟨named "real_parent" (by decide), 3, 64⟩ ]
      (by decide)⟩,
    ⟨named "task_struct" (by decide), true, 4096, .record .struct rfl
      [ ⟨named "in_execve" (by decide), 1, 0x1000028⟩, ⟨nameless, 4, 0x4C00⟩,
        ⟨named "tgid" (by decide), 1, 0x4CC0⟩ ] (by decide)⟩ ]

theorem taskDecls_fits : Fits taskDecls := by
  constructor <;> decide +kernel

theorem lookup_undoes_encoding_task :
    Fits taskDecls ∧ ∃ table, parse (encode taskDecls) = .ok table ∧ table.Holds taskDecls ∧
      (table.memberOffset "task_struct" "real_parent").map UInt32.toNat = .ok 0x988 ∧
      (table.memberOffset "task_struct" "in_execve").map UInt32.toNat = .ok 5 := by
  obtain ⟨table, hparse, hholds, -, hoffset⟩ := lookup_undoes_encoding taskDecls_fits
  have hparent : bitOffset taskDecls "task_struct" "real_parent" = .ok 0x4C40 := by decide +kernel
  have hexec : bitOffset taskDecls "task_struct" "in_execve" = .ok 0x28 := by decide +kernel
  refine ⟨taskDecls_fits, table, hparse, hholds, ?_, ?_⟩
  · rw [hoffset _ _ fun bits h => ?_, byteOffset, hparent]
    · rfl
    · cases hparent.symm.trans h
      decide
  · rw [hoffset _ _ fun bits h => ?_, byteOffset, hexec]
    · rfl
    · cases hexec.symm.trans h
      decide

end ExecWatch.TypeTable
