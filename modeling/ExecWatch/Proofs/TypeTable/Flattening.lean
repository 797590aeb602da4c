import ExecWatch.Proofs.TypeTable.Reading

/-!
# The search among members is a lookup in a flat list

`flatten ds levels d` lists the members of the record `d` by name, each with its offset in bits as a
natural number; nameless members give way to the members of the record they hold, through `levels`
levels. Main statement: `memberBits_eq`: in a table that holds `ds` the search, which goes into
nameless members and stops at the first hit, finds what a lookup in that list finds, if a word holds
it (`wordOfBits`).
-/

namespace ExecWatch.TypeTable

/-! ## Flat lists of members -/

/-- A member's offset in bits; with the record's flag set the upper byte is a bit field's width. -/
def MemberDecl.bits (m : MemberDecl) (flag : Bool) : Nat :=
  if flag then m.offset.toNat % 0x1000000 else m.offset.toNat

/-- The declaration with type id `id`. -/
def declAt? (ds : List Decl) (id : UInt32) : Option Decl :=
  if id = 0 then none else ds[id.toNat - 1]?

/-- What a member stands for: itself, or for a nameless member whose type is a record the members
that `inner` lists for that record, moved by its own offset. -/
def flattenMember (ds : List Decl) (inner : Decl → List (String × Nat)) (flag : Bool)
    (m : MemberDecl) : List (String × Nat) :=
  if m.name.IsNone then
    match (declAt? ds m.type).filter (·.kind.isRecord) with
    | some record => (inner record).map fun (name, bits) => (name, m.bits flag + bits)
    | none => []
  else [(m.name.text, m.bits flag)]

/-- The members of a record, in order, through `levels` levels of nameless ones. -/
def flatten (ds : List Decl) : (levels : Nat) → Decl → List (String × Nat)
  | 0, d => d.members.flatMap (flattenMember ds (fun _ => []) d.flag)
  | levels + 1, d => d.members.flatMap (flattenMember ds (flatten ds levels) d.flag)

/-! ## Entries by id -/

theorem forall₂_getElem? {α β : Type} {R : α → β → Prop} {as : List α} {bs : List β}
    (h : List.Forall₂ R as bs) (i : Nat) :
    as[i]? = none ∧ bs[i]? = none ∨ ∃ a b, as[i]? = some a ∧ bs[i]? = some b ∧ R a b := by
  induction h generalizing i with
  | nil => exact .inl ⟨rfl, rfl⟩
  | cons hab _ ih =>
    cases i with
    | zero => exact .inr ⟨_, _, rfl, rfl, hab⟩
    | succ i => exact ih i

section
variable {table : TypeTable} {ds : List Decl} (h : table.Holds ds)
include h

theorem entry?_cases (id : UInt32) :
    table.entry? id = none ∧ declAt? ds id = none ∨
      ∃ e d, table.entry? id = some e ∧ declAt? ds id = some d ∧ table.Describes e d := by
  unfold entry? declAt?
  split
  · exact .inl ⟨rfl, rfl⟩
  · exact forall₂_getElem? h _

end

/-! ## Offsets as words -/

/-- A read member's offset in bits. -/
def Member.bitCount (m : Member) (flag : Bool) : Nat :=
  if flag then m.offset.toNat % 0x1000000 else m.offset.toNat

theorem Member.toNat_bits (m : Member) (flag : Bool) : (m.bits flag).toNat = m.bitCount flag := by
  have hmask : (0x00ffffff : UInt32).toNat = 2 ^ 24 - 1 := rfl
  cases flag with
  | false => rfl
  | true =>
    rw [bits, bitCount, if_pos rfl, if_pos rfl, UInt32.toNat_and, hmask,
      Nat.and_two_pow_sub_one_eq_mod]

/-- A number of bits as a word, which has to hold it. -/
def wordOfBits (bits : Nat) : Except (Failure Error) UInt32 :=
  if bits < 0x100000000 then .ok (UInt32.ofNat bits) else .error .overflow

theorem wordOfBits_toNat (w : UInt32) : wordOfBits w.toNat = .ok w := by
  rw [wordOfBits, if_pos w.toNat_lt, UInt32.ofNat_toNat]

theorem toNat_bits_eq {table : TypeTable} {m : Member} {d : MemberDecl}
    (h : table.DescribesMember m d) (flag : Bool) : (m.bits flag).toNat = d.bits flag := by
  rw [m.toNat_bits, Member.bitCount, MemberDecl.bits, h.offset]

/-- A sum is a word just where both of its parts and their sum are. -/
theorem wordOfBits_add (a : UInt32) (bits : Nat) :
    wordOfBits (a.toNat + bits) = (wordOfBits bits).bind (addBits a) := by
  by_cases hbits : bits < 0x100000000
  · have hword : (UInt32.ofNat bits).toNat = bits := UInt32.toNat_ofNat_of_lt' hbits
    have hsum : UInt32.ofNat (a.toNat + bits) = a + UInt32.ofNat bits := by
      rw [UInt32.ofNat_add, UInt32.ofNat_toNat]
    rw [wordOfBits, wordOfBits, if_pos hbits, Except.bind, addBits, hword, hsum]
  · have hsum : ¬ a.toNat + bits < 0x100000000 := by omega
    rw [wordOfBits, wordOfBits, if_neg hbits, if_neg hsum]
    rfl

/-! ## One step of the search -/

section
variable (table : TypeTable) (inner : Entry → Except (Failure Error) (Option UInt32)) (e : Entry)
  (field : String)

/-- What slot `i` of `e` gives: the member's offset if it has the name; without a name and with a
record for its type, what `inner` gives for that record, moved by the member's offset. -/
def memberHit (i : Nat) : Except (Failure Error) (Option UInt32) :=
  match table.memberAt e i with
  | .error err => .error (.reported err)
  | .ok m =>
    if m.name = 0 then
      match (table.entry? m.type).filter (·.kind.isRecord) with
      | some record => (inner record).bind (Option.mapM (addBits (m.bits e.flag)))
      | none => .ok none
    else
      match table.nameAt m.name with
      | .error err => .error (.reported err)
      | .ok name => .ok (if name = field then some (m.bits e.flag) else none)

theorem searchMembers_succ (left i : Nat) :
    table.searchMembers inner e field (left + 1) i =
      match table.memberHit inner e field i with
      | .error failure => .error failure
      | .ok (some bits) => .ok (some bits)
      | .ok none => table.searchMembers inner e field left (i + 1) := by
  rw [searchMembers, memberHit]
  cases table.memberAt e i with
  | error err => rfl
  | ok m =>
    simp only [bind, Except.bind, Except.mapError]
    by_cases hnameless : m.name = 0
    · rw [if_pos hnameless, if_pos hnameless]
      cases table.entry? m.type with
      | none => rfl
      | some record =>
        by_cases hrecord : record.kind.isRecord = true
        · simp only [Option.filter_some, if_pos hrecord]
          rcases inner record with failure | _ | nested
          · rfl
          · rfl
          · simp only [Option.mapM_some]
            cases addBits (m.bits e.flag) nested <;> rfl
        · simp only [Option.filter_some, if_neg hrecord]
    · rw [if_neg hnameless, if_neg hnameless]
      cases table.nameAt m.name with
      | error err => rfl
      | ok name =>
        by_cases hfield : name = field
        · simp only [if_pos hfield]
          rfl
        · simp only [if_neg hfield]

end

/-! ## The search -/

/-- Moving the members of a list by an offset moves what is looked up in it. -/
theorem lookup_map_bits (field : String) (w : UInt32) (members : List (String × Nat)) :
    ((members.map fun (name, bits) => (name, w.toNat + bits)).lookup field).mapM wordOfBits =
      ((members.lookup field).mapM wordOfBits).bind (Option.mapM (addBits w)) := by
  induction members with
  | nil => rfl
  | cons member later ih =>
    obtain ⟨name, bits⟩ := member
    rw [List.map_cons, List.lookup_cons, List.lookup_cons]
    by_cases hname : field = name
    · have hbeq : (field == name) = true := beq_iff_eq.2 hname
      simp only [hbeq, Option.mapM_some, wordOfBits_add]
      cases wordOfBits bits <;> rfl
    · have hbeq : (field == name) = false := beq_false_of_ne hname
      simp only [hbeq, ih]

section
variable {table : TypeTable} {ds : List Decl} (h : table.Holds ds) (field : String)
  {inner : Entry → Except (Failure Error) (Option UInt32)} {inner' : Decl → List (String × Nat)}
  (hinner : ∀ e d, table.Describes e d → d.kind.isRecord = true →
    inner e = ((inner' d).lookup field).mapM wordOfBits)
include h hinner

theorem memberHit_eq {e : Entry} {d : Decl} (he : table.Describes e d) {i : Nat} {m : MemberDecl}
    (hm : d.members[i]? = some m) :
    table.memberHit inner e field i =
      ((flattenMember ds inner' d.flag m).lookup field).mapM wordOfBits := by
  obtain ⟨m', hm', hdescribes⟩ := he.members i m hm
  have hbits : (m'.bits e.flag).toNat = m.bits d.flag := by
    rw [he.flag, toNat_bits_eq hdescribes]
  simp only [memberHit, hm']
  by_cases hn : m.name.IsNone
  · have hzero : m'.name = 0 := by
      by_contra hne
      exact hdescribes.named.1 hne hn
    rw [if_pos hzero, hdescribes.type, flattenMember, if_pos hn]
    rcases entry?_cases h m.type with ⟨hentry, hdecl⟩ | ⟨e', d', hentry, hdecl, he'⟩
    · rw [hentry, hdecl]
      rfl
    · rw [hentry, hdecl, Option.filter_some, Option.filter_some, he'.kind]
      by_cases hrecord : d'.kind.isRecord = true
      · simp only [if_pos hrecord, hinner e' d' he' hrecord, ← hbits]
        exact (lookup_map_bits field (m'.bits e.flag) (inner' d')).symm
      · rw [if_neg hrecord, if_neg hrecord]
        rfl
  · rw [if_neg (hdescribes.named.2 hn), hdescribes.name hn, flattenMember, if_neg hn,
      List.lookup_cons]
    by_cases hfield : m.name.text = field
    · have hbeq : (field == m.name.text) = true := beq_iff_eq.2 hfield.symm
      simp only [hbeq, if_pos hfield, Option.mapM_some, ← hbits, wordOfBits_toNat]
      rfl
    · have hbeq : (field == m.name.text) = false := beq_false_of_ne (Ne.symm hfield)
      simp only [hbeq, if_neg hfield]
      rfl

theorem searchMembers_eq {e : Entry} {d : Decl} (he : table.Describes e d) (left i : Nat)
    (hleft : i + left = d.members.length) :
    table.searchMembers inner e field left i =
      (((d.members.drop i).flatMap (flattenMember ds inner' d.flag)).lookup field).mapM
        wordOfBits := by
  induction left generalizing i with
  | zero =>
    rw [List.drop_eq_nil_of_le (by omega)]
    rfl
  | succ left ih =>
    have hi : i < d.members.length := by omega
    rw [searchMembers_succ, memberHit_eq h field hinner he (List.getElem?_eq_getElem hi),
      ih (i + 1) (by omega), List.drop_eq_getElem_cons hi, List.flatMap_cons, List.lookup_append]
    cases (flattenMember ds inner' d.flag d.members[i]).lookup field with
    | none => rfl
    | some bits =>
      rw [Option.some_or, Option.mapM_some]
      cases wordOfBits bits <;> rfl

end

theorem Decl.count_of_isRecord {d : Decl} (h : d.kind.isRecord = true) :
    d.count = d.members.length := by
  unfold kind at h
  unfold count members
  cases hbody : d.body with
  | record => rfl
  | other kind notRecord =>
    simp only [hbody] at h
    rw [notRecord] at h
    cases h

/-- **The search finds what a lookup among the flattened members finds.** By induction on the levels:
what is found in a nameless member's record comes from one level less. -/
theorem memberBits_eq {table : TypeTable} {ds : List Decl} (h : table.Holds ds) (field : String)
    (levels : Nat) {e : Entry} {d : Decl} (he : table.Describes e d)
    (hrecord : d.kind.isRecord = true) :
    table.memberBits field levels e = ((flatten ds levels d).lookup field).mapM wordOfBits := by
  have hcount : 0 + e.count = d.members.length := by
    rw [he.count, Decl.count_of_isRecord hrecord, Nat.zero_add]
  induction levels generalizing e d with
  | zero =>
    have hinner (e : Entry) (d : Decl) (_ : table.Describes e d) (_ : d.kind.isRecord = true) :
        (.ok none : Except (Failure Error) (Option UInt32)) =
          (([] : List (String × Nat)).lookup field).mapM wordOfBits := rfl
    exact searchMembers_eq h field hinner he e.count 0 hcount
  | succ levels ih =>
    refine searchMembers_eq h field (fun e d he hrecord => ih he hrecord ?_) he e.count 0 hcount
    rw [he.count, Decl.count_of_isRecord hrecord, Nat.zero_add]

end ExecWatch.TypeTable
