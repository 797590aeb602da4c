import ExecWatch.Proofs.Text.Utf8
import ExecWatch.Proofs.TypeTable.Declarations
import ExecWatch.TypeTable.Offset
import Mathlib.Data.List.Forall2

/-!
# Reading what was laid out

`TypeTable.Holds table ds`: the table's entries are the declarations `ds`, one for one and in order.
Main statement: `parse_encode`: the bytes of declarations whose sections fit read back as a table
that holds them.
-/

namespace ExecWatch.TypeTable

/-! ## What a table holds -/

section
variable (table : TypeTable)

/-- The member is the declared one. -/
structure DescribesMember (m : Member) (d : MemberDecl) : Prop where
  named : m.name ≠ 0 ↔ ¬ d.name.IsNone
  name : ¬ d.name.IsNone → table.nameAt m.name = .ok d.name.text
  type : m.type = d.type
  offset : m.offset = d.offset

/-- The entry is the declaration: its own data, its members, or the payload behind its header. -/
structure Describes (e : Entry) (d : Decl) : Prop where
  name : table.nameAt e.name = .ok d.name.text
  kind : e.kind = d.kind
  flag : e.flag = d.flag
  count : e.count = d.count
  members : ∀ i m, d.members[i]? = some m →
    ∃ m', table.memberAt e i = .ok m' ∧ table.DescribesMember m' m
  raw : ∀ bytes ∈ d.raw?, bytes <+: table.types.drop e.payload

/-- The table's entries are the declarations, in order. -/
def Holds (ds : List Decl) : Prop := List.Forall₂ table.Describes table.entries ds

end

/-! ## Words and names -/

theorem word_of_front {data : Bytes} {w : UInt32} {offset : Nat}
    (h : Bytes.ofWord32 w <+: data.drop offset) : word data offset = .ok w := by
  obtain ⟨rest, hrest⟩ := h
  rw [word, ← hrest, Bytes.word32?_ofWord32]

section
variable {table : TypeTable}

/-- No name is the empty text at the section's first byte. -/
theorem nameAt_zero {later : Bytes} (h : table.strings = 0 :: later) : table.nameAt 0 = .ok "" := by
  rw [nameAt, h]
  simp [Bytes.cText, Utf8.decode?, Utf8.scan, Utf8.scanFrom]

theorem toNat_ofNat_of_lt {n : Nat} (h : n < 0x100000000) : (UInt32.ofNat n).toNat = n := by
  rw [UInt32.toNat_ofNat']
  exact Nat.mod_eq_of_lt h

/-- A name is found where it was laid. -/
theorem nameAt_ref {before after later : Bytes} {n : Name} (hzero : table.strings = 0 :: later)
    (hlaid : table.strings = before ++ (n.bytes ++ after))
    (hfits : table.strings.length < 0x100000000) :
    table.nameAt (n.ref before.length) = .ok n.text := by
  by_cases hn : n.IsNone
  · rw [Name.ref, if_pos hn, nameAt_zero hzero, hn]
  · have hlen := congrArg List.length hlaid
    rw [List.length_append] at hlen
    have hoffset : (UInt32.ofNat before.length).toNat = before.length :=
      toNat_ofNat_of_lt (by omega)
    have htail : table.strings.drop before.length =
        Utf8.encode n.text.toList ++ 0 :: after := by
      rw [hlaid, List.drop_left, Name.bytes, if_neg hn, List.append_assoc]
      rfl
    rw [Name.ref, if_neg hn, nameAt, hoffset, if_neg (by omega), htail]
    simp [Bytes.cText_append_nul (Utf8.zero_not_mem_encode n.plain)]

theorem ref_ne_zero_iff {n : Name} {next : Nat} (hpos : 0 < next) (hlt : next < 0x100000000) :
    n.ref next ≠ 0 ↔ ¬ n.IsNone := by
  unfold Name.ref
  split
  · simp_all
  · have : UInt32.ofNat next ≠ 0 := by
      intro h0
      have := congrArg UInt32.toNat h0
      rw [toNat_ofNat_of_lt hlt] at this
      exact Nat.ne_of_gt hpos this
    simp_all

end

/-! ## Headers -/

theorem Kind.ofCode?_code (k : Kind) : ofCode? k.code = some k := by
  cases k <;> rfl

theorem Kind.code_lt (k : Kind) : k.code < 20 := by
  cases k <;> decide

namespace Decl

variable (d : Decl)

theorem count_lt : d.count < 0x10000 := by
  unfold count
  split
  · assumption
  · assumption

theorem raw?_of_mem {m : MemberDecl} (h : m ∈ d.members) : d.raw? = none := by
  unfold members at h
  unfold raw?
  cases hbody : d.body with
  | record => rfl
  | other => rw [hbody] at h; cases h

theorem toNat_info : d.info.toNat = 0x80000000 * d.flag.toNat + 0x1000000 * d.kind.code + d.count := by
  have hcode := d.kind.code_lt
  have hcount := d.count_lt
  have hflag := d.flag.toNat_le
  exact toNat_ofNat_of_lt (by omega)

theorem length_memberBytes (next : Nat) (ms : List MemberDecl) :
    (memberBytes next ms).length = Member.size * ms.length := by
  induction ms generalizing next with
  | nil => rfl
  | cons m later ih =>
    simp only [memberBytes, List.length_append, Bytes.length_ofWord32, ih, Member.size,
      List.length_cons]
    omega

theorem length_payload (next : Nat) : (d.payload next).length = d.kind.payload d.count := by
  unfold payload raw? members kind count
  cases d.body with
  | record kind isRecord members fits =>
    simp only [Option.getD_none, length_memberBytes, Member.size]
    cases kind <;> first | contradiction | simp [Kind.payload, Nat.mul_comm]
  | other kind notRecord count fits payload length_eq => exact length_eq

theorem length_bytes (next : Nat) : (d.bytes next).length = entrySize + d.kind.payload d.count := by
  simp only [bytes, List.length_append, Bytes.length_ofWord32, length_payload, entrySize]
  omega

end Decl

/-- The entry of a declaration whose names are laid from `next` on and which stands `start` bytes
into its section. -/
def entryOf (next start : Nat) (d : Decl) : Entry :=
  ⟨d.name.ref next, d.kind, d.flag, d.count, start + entrySize⟩

theorem readEntry_of_words {rest : Bytes} {name info : UInt32} {kind : Kind}
    (hname : word rest 0 = .ok name) (hinfo : word rest 4 = .ok info)
    (hkind : Kind.ofCode? (info.toNat / 0x1000000 % 32) = some kind) (start id : Nat) :
    readEntry rest start id = .ok ⟨name, kind, info.toNat / 0x80000000 = 1,
      info.toNat % 0x10000, start + entrySize⟩ := by
  have hok {α β : Type} (a : α) (f : α → Except Error β) : (Except.ok a >>= f) = f a := rfl
  rw [readEntry, hname, hok, hinfo, hok]
  simp only [hkind]

/-- The header's words give back the declaration's own data. -/
theorem readEntry_bytes (d : Decl) (next start id : Nat) (rest : Bytes) :
    readEntry (d.bytes next ++ rest) start id = .ok (entryOf next start d) := by
  have hname : word (d.bytes next ++ rest) 0 = .ok (d.name.ref next) :=
    word_of_front ⟨_, by rw [Decl.bytes, List.append_assoc]; rfl⟩
  have hinfo : word (d.bytes next ++ rest) 4 = .ok d.info :=
    word_of_front ⟨_, by rw [Decl.bytes, List.append_assoc, List.append_assoc]; rfl⟩
  have hcode := d.kind.code_lt
  have hcount := d.count_lt
  have hkind : d.info.toNat / 0x1000000 % 32 = d.kind.code := by
    rw [d.toNat_info]
    omega
  have hlow : d.info.toNat % 0x10000 = d.count := by
    rw [d.toNat_info]
    omega
  have hhigh : decide (d.info.toNat / 0x80000000 = 1) = d.flag := by
    rw [d.toNat_info]
    cases d.flag with
    | false => simp; omega
    | true => simp; omega
  rw [readEntry_of_words hname hinfo (hkind ▸ d.kind.ofCode?_code), hlow, hhigh, entryOf]

/-! ## Sections -/

/-- The entries of declarations whose names are laid from `next` on and which stand `start` bytes
into their section. -/
def entriesOf : (next start : Nat) → List Decl → List Entry
  | _, _, [] => []
  | next, start, d :: later =>
    entryOf next start d ::
      entriesOf (next + d.strings.length) (start + (d.bytes next).length) later

theorem readEntries_of_ne_nil {rest : Bytes} (h : rest ≠ []) (start id : Nat) :
    readEntries rest start id =
      match readEntry rest start id with
      | .error e => .error e
      | .ok e =>
        let size := entrySize + e.kind.payload e.count
        if rest.length < size then .error .typesTruncated
        else
          match readEntries (rest.drop size) (start + size) (id + 1) with
          | .error e => .error e
          | .ok es => .ok (e :: es) := by
  cases rest with
  | nil => exact absurd rfl h
  | cons b tail => exact readEntries.eq_2 start id b tail

/-- **Every declaration is read**, whatever stands before its section. -/
theorem readEntries_typeBytes (next start id : Nat) (ds : List Decl) :
    readEntries (typeBytes next ds) start id = .ok (entriesOf next start ds) := by
  induction ds generalizing next start id with
  | nil => rw [typeBytes, readEntries]; rfl
  | cons d later ih =>
    have hlen := d.length_bytes next
    have hne : typeBytes next (d :: later) ≠ [] := by
      intro h
      have := congrArg List.length h
      rw [typeBytes, List.length_append, hlen] at this
      simp [entrySize] at this
    rw [readEntries_of_ne_nil hne, typeBytes, readEntry_bytes]
    simp only [entryOf, ← hlen, List.length_append, Nat.not_lt.2 (Nat.le_add_right _ _),
      ↓reduceIte, List.drop_left, ih]
    rfl

/-! ## Entries and their declarations -/

section
variable {table : TypeTable}

theorem memberAt_of_words {e : Entry} {i at_ : Nat} {name type offset : UInt32} {later : Bytes}
    (hat : e.payload + i * Member.size = at_)
    (h : table.types.drop at_ = Bytes.ofWord32 name ++ (Bytes.ofWord32 type ++
      (Bytes.ofWord32 offset ++ later))) :
    table.memberAt e i = .ok ⟨name, type, offset⟩ := by
  have hname : word table.types at_ = .ok name := word_of_front ⟨_, h.symm⟩
  have htype : word table.types (at_ + 4) = .ok type :=
    word_of_front ⟨_, by rw [← List.drop_drop, h]; rfl⟩
  have hoffset : word table.types (at_ + 8) = .ok offset :=
    word_of_front ⟨_, by rw [← List.drop_drop, h]; rfl⟩
  unfold memberAt
  simp only [hat, hname, htype, hoffset]
  rfl

variable {first : Bytes} (hzero : table.strings = 0 :: first)
  (hfits : table.strings.length < 0x100000000)
include hzero hfits

/-- Members are found where they were laid. -/
theorem describes_members {ms : List MemberDecl} {e : Entry} {typesBefore typesAfter : Bytes}
    {namesBefore namesAfter : Bytes} (hpos : 0 < namesBefore.length)
    (htypes : table.types = typesBefore ++ (memberBytes namesBefore.length ms ++ typesAfter))
    (hnames : table.strings = namesBefore ++ (ms.flatMap (·.name.bytes) ++ namesAfter))
    (hpayload : e.payload = typesBefore.length) {i : Nat} {m : MemberDecl} (hm : ms[i]? = some m) :
    ∃ m', table.memberAt e i = .ok m' ∧ table.DescribesMember m' m := by
  induction ms generalizing e typesBefore namesBefore i with
  | nil => cases hm
  | cons m₀ later ih =>
    rw [List.flatMap_cons, List.append_assoc] at hnames
    cases i with
    | zero =>
      obtain rfl : m₀ = m := by simpa using hm
      refine ⟨_, memberAt_of_words (by rw [hpayload, Nat.zero_mul, Nat.add_zero])
        (by rw [htypes, List.drop_left]; rfl), ?_, fun _ => nameAt_ref hzero hnames hfits, rfl, rfl⟩
      have hlen := congrArg List.length hnames
      rw [List.length_append] at hlen
      exact ref_ne_zero_iff hpos (by omega)
    | succ i =>
      have hshift : e.payload + (i + 1) * Member.size = e.payload + Member.size + i * Member.size := by
        simp only [Member.size]
        omega
      have hsame : table.memberAt e (i + 1) =
          table.memberAt { e with payload := e.payload + Member.size } i := by
        unfold memberAt
        rw [hshift]
      rw [hsame]
      have hbefore : (namesBefore ++ m₀.name.bytes).length =
          namesBefore.length + m₀.name.bytes.length := List.length_append
      have htypes' : table.types = (typesBefore ++ (Bytes.ofWord32 (m₀.name.ref namesBefore.length) ++
          (Bytes.ofWord32 m₀.type ++ Bytes.ofWord32 m₀.offset))) ++
            (memberBytes (namesBefore ++ m₀.name.bytes).length later ++ typesAfter) := by
        rw [htypes, memberBytes, hbefore]
        simp only [List.append_assoc]
      refine ih (by omega) htypes' (by rw [hnames, List.append_assoc]) ?_ hm
      rw [hpayload, List.length_append]
      rfl

/-- A declaration is found where it was laid. -/
theorem describes_entryOf {d : Decl} {typesBefore typesAfter namesBefore namesAfter : Bytes}
    (hpos : 0 < namesBefore.length)
    (htypes : table.types = typesBefore ++ (d.bytes namesBefore.length ++ typesAfter))
    (hnames : table.strings = namesBefore ++ (d.strings ++ namesAfter)) :
    table.Describes (entryOf namesBefore.length typesBefore.length d) d := by
  rw [Decl.strings, List.append_assoc] at hnames
  have hpayload : table.types = (typesBefore ++ (Bytes.ofWord32 (d.name.ref namesBefore.length) ++
      (Bytes.ofWord32 d.info ++ Bytes.ofWord32 d.word))) ++
        (d.payload (namesBefore ++ d.name.bytes).length ++ typesAfter) := by
    rw [htypes, Decl.bytes, List.length_append]
    simp only [List.append_assoc]
  have hstart : (typesBefore ++ (Bytes.ofWord32 (d.name.ref namesBefore.length) ++
      (Bytes.ofWord32 d.info ++ Bytes.ofWord32 d.word))).length =
        typesBefore.length + entrySize := by
    rw [List.length_append]
    rfl
  refine ⟨nameAt_ref hzero hnames hfits, rfl, rfl, rfl, fun i m hm => ?_, fun bytes hbytes => ?_⟩
  · have hrecord : d.payload (namesBefore ++ d.name.bytes).length =
        memberBytes (namesBefore ++ d.name.bytes).length d.members := by
      rw [Decl.payload, d.raw?_of_mem (List.mem_of_getElem? hm), Option.getD_none]
    rw [hrecord] at hpayload
    refine describes_members hzero hfits (by rw [List.length_append]; omega) hpayload
      (by rw [hnames, List.append_assoc]) hstart.symm hm
  · rw [Decl.payload, Option.mem_def.1 hbytes, Option.getD_some] at hpayload
    refine ⟨typesAfter, ?_⟩
    rw [hpayload, entryOf, ← hstart, List.drop_left]

/-- **The table holds what was laid out**: declaration by declaration, each behind the bytes and the
names of those before it. -/
theorem describes_entriesOf {ds : List Decl} {typesBefore namesBefore : Bytes}
    (hpos : 0 < namesBefore.length)
    (htypes : table.types = typesBefore ++ typeBytes namesBefore.length ds)
    (hnames : table.strings = namesBefore ++ ds.flatMap Decl.strings) :
    List.Forall₂ table.Describes (entriesOf namesBefore.length typesBefore.length ds) ds := by
  induction ds generalizing typesBefore namesBefore with
  | nil => exact .nil
  | cons d later ih =>
    rw [typeBytes] at htypes
    rw [List.flatMap_cons] at hnames
    refine .cons (describes_entryOf hzero hfits hpos htypes hnames) ?_
    rw [← List.length_append, ← List.length_append] at *
    refine ih (by rw [List.length_append]; omega) ?_ (by rw [hnames, List.append_assoc])
    rw [htypes, List.append_assoc]

end

/-! ## The whole table -/

theorem sectionAt_of_append {before content : Bytes} (after : Bytes) {offset length : UInt32}
    (hoffset : offset.toNat = before.length) (hlength : length.toNat = content.length) :
    sectionAt (before ++ (content ++ after)) offset length = .ok content := by
  rw [sectionAt, hoffset, hlength, if_pos (by simp only [List.length_append]; omega),
    List.drop_left, List.take_left]

/-- The parts that a table is read from. -/
theorem parse_of_parts {data types strings : Bytes} {headerLength : UInt32}
    {typesOffset typesLength stringsOffset stringsLength : UInt32} {entries : List Entry}
    (hsize : headerSize ≤ data.length)
    (hmagic : (data.headD 0).toNat + 0x100 * (data.tail.headD 0).toNat = magic)
    (hheader : word data 4 = .ok headerLength) (hlength : headerLength.toNat ≤ data.length)
    (h8 : word data 8 = .ok typesOffset) (h12 : word data 12 = .ok typesLength)
    (h16 : word data 16 = .ok stringsOffset) (h20 : word data 20 = .ok stringsLength)
    (htypes : sectionAt (data.drop headerLength.toNat) typesOffset typesLength = .ok types)
    (hstrings : sectionAt (data.drop headerLength.toNat) stringsOffset stringsLength = .ok strings)
    (hentries : readEntries types 0 1 = .ok entries) :
    parse data = .ok ⟨types, strings, entries⟩ := by
  unfold parse
  simp only [Nat.not_lt.2 hsize, hmagic, hheader, Nat.not_lt.2 hlength, h8, h12, h16, h20, htypes,
    hstrings, hentries, ↓reduceIte, ne_eq, not_true_eq_false, bind, Except.bind]
  rfl

/-- The table that declarations are laid out as. -/
def ofDecls (ds : List Decl) : TypeTable :=
  ⟨typeSection ds, nameSection ds, entriesOf 1 0 ds⟩

theorem ofDecls_holds {ds : List Decl} (h : Fits ds) : (ofDecls ds).Holds ds := by
  have hlaid : List.Forall₂ (ofDecls ds).Describes
      (entriesOf ([0] : Bytes).length ([] : Bytes).length ds) ds :=
    describes_entriesOf rfl h.names Nat.one_pos rfl rfl
  exact hlaid

/-- **The bytes of declarations read back** as the table they were laid out as. -/
theorem parse_encode {ds : List Decl} (h : Fits ds) : parse (encode ds) = .ok (ofDecls ds) := by
  have htypes : (UInt32.ofNat (typeSection ds).length).toNat = (typeSection ds).length :=
    toNat_ofNat_of_lt h.types
  have hnames : (UInt32.ofNat (nameSection ds).length).toNat = (nameSection ds).length :=
    toNat_ofNat_of_lt h.names
  have hheader : (UInt32.ofNat headerSize).toNat = headerSize := toNat_ofNat_of_lt (by decide)
  have hlength : headerSize ≤ (encode ds).length := by
    simp only [encode, List.length_append, Bytes.length_ofWord32, headerSize]
    simp
    omega
  have hbody : (encode ds).drop (UInt32.ofNat headerSize).toNat =
      typeSection ds ++ nameSection ds := by
    rw [hheader]
    rfl
  have hmagic : ((encode ds).headD 0).toNat + 0x100 * ((encode ds).tail.headD 0).toNat = magic := by
    have h0 : (encode ds).headD 0 = 0x9F := rfl
    have h1 : (encode ds).tail.headD 0 = 0xEB := rfl
    rw [h0, h1]
    decide
  refine parse_of_parts hlength hmagic (word_of_front ⟨_, rfl⟩) (hheader ▸ hlength)
    (word_of_front ⟨_, rfl⟩) (word_of_front ⟨_, rfl⟩) (word_of_front ⟨_, rfl⟩)
    (word_of_front ⟨_, rfl⟩) ?_ ?_ (readEntries_typeBytes 1 0 1 ds)
  · have hzero : (0 : UInt32).toNat = ([] : Bytes).length := rfl
    rw [hbody]
    exact sectionAt_of_append (nameSection ds) hzero htypes
  · have hnil := sectionAt_of_append [] htypes hnames
    rw [List.append_nil] at hnil
    rw [hbody]
    exact hnil

/-- The bytes are a table of the declarations, wherever they have put sections and names. -/
def Encodes (data : Bytes) (ds : List Decl) : Prop :=
  ∃ table, parse data = .ok table ∧ table.Holds ds

theorem encodes_encode {ds : List Decl} (h : Fits ds) : Encodes (encode ds) ds :=
  ⟨ofDecls ds, parse_encode h, ofDecls_holds h⟩

end ExecWatch.TypeTable
