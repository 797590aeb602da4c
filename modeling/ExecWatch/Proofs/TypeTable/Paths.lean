import ExecWatch.Proofs.TypeTable.Search
import Mathlib.Algebra.Ring.Nat

/-!
# Offsets are sums along a path

A field is reached from a struct along a path of slots: nameless members first, each in the record
before it, then the field's own member. `Path` says so for the entries of a table, with the slots and
with the members' offsets in bits as natural numbers. The search goes for the first path, slots
compared from the left, and adds the offsets along it from the field outwards, as words
(`memberBits_finds`).

Main statement: `memberOffset_eq_path_sum`: eight times an answer is the sum of the offsets, and no
addition on the way passes a word; where the sum does, there is no answer. What ends the search then
is no error that a caller gets (`overflow_not_reported`).
-/

namespace ExecWatch.TypeTable

/-! ## Paths -/

/-- A path from the record `e` to a member of the name `field`, through at most `levels` nameless
members: the slots that it takes and the offsets of their members. -/
inductive Path (table : TypeTable) (field : String) :
    (levels : Nat) → Entry → (slots offsets : List Nat) → Prop
  | here {levels : Nat} {e : Entry} {i : Nat} {m : Member} (slot : i < e.count)
      (member : table.memberAt e i = .ok m) (named : m.name ≠ 0)
      (name : table.nameAt m.name = .ok field) :
      Path table field levels e [i] [m.bitCount e.flag]
  | inside {levels : Nat} {e : Entry} {i : Nat} {m : Member} {record : Entry}
      {slots offsets : List Nat} (slot : i < e.count) (member : table.memberAt e i = .ok m)
      (nameless : m.name = 0) (type : table.entry? m.type = some record)
      (isRecord : record.kind.isRecord = true) (rest : Path table field levels record slots offsets) :
      Path table field (levels + 1) e (i :: slots) (m.bitCount e.flag :: offsets)

/-- Nothing that satisfies `P` has slots before these. -/
def IsFirst (P : (slots offsets : List Nat) → Prop) (slots offsets : List Nat) : Prop :=
  P slots offsets ∧ ∀ slots' offsets', P slots' offsets' → ¬ slots' < slots

/-- What a search among the paths `P` says of them: that there is none, the sum of the offsets along the
first of them, or that this sum passes a word. An error that it reports says nothing. -/
inductive Finds (P : (slots offsets : List Nat) → Prop) :
    Except (Failure Error) (Option UInt32) → Prop
  | absent : (∀ slots offsets, ¬ P slots offsets) → Finds P (.ok none)
  | first {slots offsets : List Nat} {bits : UInt32} :
      IsFirst P slots offsets → bits.toNat = offsets.sum → Finds P (.ok (some bits))
  | overflow {slots offsets : List Nat} :
      IsFirst P slots offsets → 0x100000000 ≤ offsets.sum → Finds P (.error .overflow)
  | reported (err : Error) : Finds P (.error (.reported err))

theorem Finds.of_iff {P Q : (slots offsets : List Nat) → Prop}
    {found : Except (Failure Error) (Option UInt32)} (h : Finds P found)
    (hiff : ∀ slots offsets, P slots offsets ↔ Q slots offsets) : Finds Q found := by
  obtain rfl : P = Q := funext₂ fun slots offsets => propext (hiff slots offsets)
  exact h

theorem IsFirst.unique {P : (slots offsets : List Nat) → Prop} {slots slots' offsets offsets' : List Nat}
    (h : IsFirst P slots offsets) (h' : IsFirst P slots' offsets') : slots = slots' :=
  List.le_antisymm (List.not_lt.1 (h.2 _ _ h'.1)) (List.not_lt.1 (h'.2 _ _ h.1))

section
variable (table : TypeTable) (field : String) (levels : Nat) (e : Entry)

/-- Paths behind a nameless member, which takes one level. -/
def PathBelow (slots offsets : List Nat) : Prop :=
  ∃ below, levels = below + 1 ∧ table.Path field below e slots offsets

/-- Paths that begin with slot `i`. -/
def PathAt (i : Nat) (slots offsets : List Nat) : Prop :=
  table.Path field levels e slots offsets ∧ ∃ rest, slots = i :: rest

/-- Paths that begin with slot `i` or a later one. -/
def PathFrom (i : Nat) (slots offsets : List Nat) : Prop :=
  table.Path field levels e slots offsets ∧ ∃ j rest, slots = j :: rest ∧ i ≤ j

end

section
variable {table : TypeTable} {field : String} {levels : Nat} {e : Entry}

/-- A path begins with the slot of a member, and with that member's offset. -/
theorem Path.exists_head {slots offsets : List Nat} (h : table.Path field levels e slots offsets) :
    ∃ i rest m later, slots = i :: rest ∧ offsets = m.bitCount e.flag :: later ∧ i < e.count ∧
      table.memberAt e i = .ok m := by
  cases h with
  | here slot member => exact ⟨_, _, _, _, rfl, rfl, slot, member⟩
  | inside slot member => exact ⟨_, _, _, _, rfl, rfl, slot, member⟩

/-- What a path that begins with a slot does, by what the slot holds. -/
theorem Path.cases_of_memberAt {i : Nat} {m : Member} (hm : table.memberAt e i = .ok m)
    {slots offsets : List Nat} (h : table.Path field levels e (i :: slots) offsets) :
    (m.name ≠ 0 ∧ table.nameAt m.name = .ok field ∧ slots = [] ∧ offsets = [m.bitCount e.flag]) ∨
    (m.name = 0 ∧ ∃ record later, table.entry? m.type = some record ∧
      record.kind.isRecord = true ∧ table.PathBelow field levels record slots later ∧
      offsets = m.bitCount e.flag :: later) := by
  cases h with
  | here slot member named name =>
    cases hm.symm.trans member
    exact .inl ⟨named, name, rfl, rfl⟩
  | inside slot member nameless type isRecord rest =>
    cases hm.symm.trans member
    exact .inr ⟨nameless, _, _, type, isRecord, ⟨_, rfl, rest⟩, rfl⟩

/-! ## The search finds the first path -/

/-- Two words are added as numbers, or their sum passes a word. -/
theorem addBits_cases (a b : UInt32) :
    (∃ c, addBits a b = .ok c ∧ c.toNat = a.toNat + b.toNat) ∨
      addBits a b = .error .overflow ∧ 0x100000000 ≤ a.toNat + b.toNat := by
  by_cases hfits : a.toNat + b.toNat < 0x100000000
  · exact .inl ⟨a + b, if_pos hfits, by rw [UInt32.toNat_add, Nat.mod_eq_of_lt hfits]⟩
  · exact .inr ⟨if_neg hfits, Nat.le_of_not_lt hfits⟩

section
variable {i : Nat} {m : Member} (hm : table.memberAt e i = .ok m)
include hm

/-- A nameless member of another type leads nowhere. -/
theorem finds_nowhere (hnameless : m.name = 0)
    (hfilter : (table.entry? m.type).filter (·.kind.isRecord) = none) :
    Finds (table.PathAt field levels e i) (.ok none) := by
  refine .absent ?_
  rintro _ offsets ⟨hpath, slots, rfl⟩
  rcases hpath.cases_of_memberAt hm with ⟨hnamed, -⟩ | ⟨-, record, later, htype, hrecord, -⟩
  · exact hnamed hnameless
  · rw [htype, Option.filter_some, if_pos hrecord] at hfilter
    cases hfilter

variable (hi : i < e.count)
include hi

/-- A member with a name ends a path, if it is the name looked for. -/
theorem finds_named (hnamed : m.name ≠ 0) {text : String} (htext : table.nameAt m.name = .ok text) :
    Finds (table.PathAt field levels e i)
      (.ok (if text = field then some (m.bits e.flag) else none)) := by
  have hhere {slots offsets : List Nat} (hpath : table.Path field levels e (i :: slots) offsets) :
      text = field ∧ slots = [] := by
    rcases hpath.cases_of_memberAt hm with ⟨-, htext', hslots, -⟩ | ⟨hzero, -⟩
    · exact ⟨Except.ok.inj (htext.symm.trans htext'), hslots⟩
    · exact absurd hzero hnamed
  by_cases hfield : text = field
  · rw [if_pos hfield]
    rw [hfield] at htext
    have hpath : table.PathAt field levels e i [i] [m.bitCount e.flag] :=
      ⟨.here hi hm hnamed htext, [], rfl⟩
    refine .first ⟨hpath, ?_⟩ ?_
    · rintro _ offsets ⟨hpath', slots, rfl⟩ hlt
      rw [(hhere hpath').2] at hlt
      exact absurd hlt (List.lt_irrefl _)
    · rw [List.sum_singleton, m.toNat_bits]
  · rw [if_neg hfield]
    refine .absent ?_
    rintro _ offsets ⟨hpath, slots, rfl⟩
    exact hfield (hhere hpath).1

/-- Through a nameless member the paths are those of its record, and its offset is added. -/
theorem finds_nameless (hnameless : m.name = 0) {record : Entry}
    (htype : table.entry? m.type = some record) (hrecord : record.kind.isRecord = true)
    {nested : Except (Failure Error) (Option UInt32)}
    (hnested : Finds (table.PathBelow field levels record) nested) :
    Finds (table.PathAt field levels e i) (nested.bind (Option.mapM (addBits (m.bits e.flag)))) := by
  have hbelow {slots offsets : List Nat} (hpath : table.Path field levels e (i :: slots) offsets) :
      ∃ later, table.PathBelow field levels record slots later := by
    rcases hpath.cases_of_memberAt hm with ⟨hnamed, -⟩ | ⟨-, record', later, htype', -, hlater, -⟩
    · exact absurd hnameless hnamed
    · cases htype.symm.trans htype'
      exact ⟨later, hlater⟩
  have hfirst {slots later : List Nat}
      (h : IsFirst (table.PathBelow field levels record) slots later) :
      IsFirst (table.PathAt field levels e i) (i :: slots) (m.bitCount e.flag :: later) := by
    obtain ⟨⟨below, rfl, hrest⟩, hfirst⟩ := h
    refine ⟨⟨.inside hi hm hnameless htype hrecord hrest, slots, rfl⟩, ?_⟩
    rintro _ offsets' ⟨hpath', slots', rfl⟩ hlt
    obtain ⟨later', hlater'⟩ := hbelow hpath'
    refine hfirst slots' later' hlater' ?_
    simpa using hlt
  cases hnested with
  | absent hnone =>
    refine .absent ?_
    rintro _ offsets ⟨hpath, slots, rfl⟩
    obtain ⟨later, hlater⟩ := hbelow hpath
    exact hnone slots later hlater
  | @first slots later bits hpath hbits =>
    have hsum : (m.bits e.flag).toNat + bits.toNat = (m.bitCount e.flag :: later).sum := by
      rw [List.sum_cons, m.toNat_bits, hbits]
    rcases addBits_cases (m.bits e.flag) bits with ⟨total, htotal, hword⟩ | ⟨hpasses, hword⟩
    · rw [Except.bind, Option.mapM_some, htotal]
      exact .first (hfirst hpath) (hword.trans hsum)
    · rw [Except.bind, Option.mapM_some, hpasses]
      exact .overflow (hfirst hpath) (hsum ▸ hword)
  | @overflow slots later hpath hbits =>
    refine .overflow (hfirst hpath) ?_
    rw [List.sum_cons]
    omega
  | reported err => exact .reported err

end

section
variable {inner : Entry → Except (Failure Error) (Option UInt32)}
  (hinner : ∀ record, Finds (table.PathBelow field levels record) (inner record))
include hinner

/-- What one slot gives is what the paths that begin there give. -/
theorem memberHit_finds {i : Nat} (hi : i < e.count) :
    Finds (table.PathAt field levels e i) (table.memberHit inner e field i) := by
  unfold memberHit
  cases hm : table.memberAt e i with
  | error err => exact .reported err
  | ok m =>
    by_cases hname : m.name = 0
    · simp only [if_pos hname]
      cases hfilter : (table.entry? m.type).filter (·.kind.isRecord) with
      | none => exact finds_nowhere hm hname hfilter
      | some record =>
        obtain ⟨htype, hrecord⟩ := Option.filter_eq_some_iff.1 hfilter
        exact finds_nameless hm hi hname htype hrecord (hinner record)
    · simp only [if_neg hname]
      cases htext : table.nameAt m.name with
      | error err => exact .reported err
      | ok text => exact finds_named hm hi hname htext

end

theorem IsFirst.pathFrom {i : Nat} {slots offsets : List Nat}
    (h : IsFirst (table.PathAt field levels e i) slots offsets) :
    IsFirst (table.PathFrom field levels e i) slots offsets := by
  obtain ⟨⟨hpath, rest, rfl⟩, hfirst⟩ := h
  refine ⟨⟨hpath, i, rest, rfl, Nat.le_refl i⟩, ?_⟩
  rintro _ offsets' ⟨hpath', j, rest', rfl, hj⟩ hlt
  rcases Nat.eq_or_lt_of_le hj with rfl | hlater
  · exact hfirst _ offsets' ⟨hpath', rest', rfl⟩ hlt
  · rw [List.cons_lt_cons_iff] at hlt
    omega

theorem pathFrom_succ_iff {i : Nat} (h : Finds (table.PathAt field levels e i) (.ok none))
    (slots offsets : List Nat) :
    table.PathFrom field levels e (i + 1) slots offsets ↔
      table.PathFrom field levels e i slots offsets := by
  cases h with
  | absent hnone =>
    constructor
    · rintro ⟨hpath, j, rest, hslots, hj⟩
      exact ⟨hpath, j, rest, hslots, by omega⟩
    · rintro ⟨hpath, j, rest, hslots, hj⟩
      refine ⟨hpath, j, rest, hslots, Nat.lt_of_le_of_ne hj ?_⟩
      rintro rfl
      exact hnone slots offsets ⟨hpath, rest, hslots⟩

/-- A run over the slots from `i` on, by induction on how many are left. -/
theorem searchMembers_finds {inner : Entry → Except (Failure Error) (Option UInt32)}
    (hinner : ∀ record, Finds (table.PathBelow field levels record) (inner record))
    {left i : Nat} (hleft : i + left = e.count) :
    Finds (table.PathFrom field levels e i) (table.searchMembers inner e field left i) := by
  induction left generalizing i with
  | zero =>
    refine .absent ?_
    rintro _ offsets ⟨hpath, j, rest, rfl, hj⟩
    obtain ⟨_, _, _, _, hslots, -, hlt, -⟩ := hpath.exists_head
    cases hslots
    omega
  | succ left ih =>
    have hi : i < e.count := by omega
    have hhit := memberHit_finds hinner hi
    rw [searchMembers_succ]
    generalize table.memberHit inner e field i = found at hhit
    cases hhit with
    | absent hnone =>
      exact (ih (by omega)).of_iff (pathFrom_succ_iff (.absent hnone))
    | first hfirst hbits => exact .first hfirst.pathFrom hbits
    | overflow hfirst hbits => exact .overflow hfirst.pathFrom hbits
    | reported err => exact .reported err

theorem pathFrom_zero_iff (slots offsets : List Nat) :
    table.PathFrom field levels e 0 slots offsets ↔ table.Path field levels e slots offsets := by
  refine ⟨And.left, fun hpath => ⟨hpath, ?_⟩⟩
  obtain ⟨j, rest, _, _, hslots, -⟩ := hpath.exists_head
  exact ⟨j, rest, hslots, Nat.zero_le j⟩

theorem pathBelow_succ_iff (slots offsets : List Nat) :
    table.PathBelow field (levels + 1) e slots offsets ↔ table.Path field levels e slots offsets := by
  constructor
  · rintro ⟨below, hlevels, hpath⟩
    rw [Nat.succ.inj hlevels]
    exact hpath
  · exact fun hpath => ⟨levels, rfl, hpath⟩

/-- **The search goes for the sum along the first path.** By induction on the levels: a path behind a
nameless member has one level less. -/
theorem memberBits_finds : Finds (table.Path field levels e) (table.memberBits field levels e) := by
  induction levels generalizing e with
  | zero =>
    have hnone (record : Entry) : Finds (table.PathBelow field 0 record) (.ok none) := by
      refine .absent ?_
      rintro slots offsets ⟨below, hzero, -⟩
      cases hzero
    exact (searchMembers_finds hnone (Nat.zero_add _)).of_iff pathFrom_zero_iff
  | succ levels ih =>
    have hinner (record : Entry) :
        Finds (table.PathBelow field (levels + 1) record) (table.memberBits field levels record) :=
      ih.of_iff fun slots offsets => (pathBelow_succ_iff slots offsets).symm
    exact (searchMembers_finds hinner (Nat.zero_add _)).of_iff pathFrom_zero_iff

end

/-! ## Offsets of fields -/

section
variable {table : TypeTable} {struct field : String}

/-- The slots of a path determine the offsets along it. -/
theorem Path.offsets_unique {levels : Nat} {e : Entry} {slots offsets offsets' : List Nat}
    (h : table.Path field levels e slots offsets) (h' : table.Path field levels e slots offsets') :
    offsets = offsets' := by
  induction h generalizing offsets' with
  | here slot member named name =>
    rcases h'.cases_of_memberAt member with ⟨-, -, -, rfl⟩ | ⟨hzero, -⟩
    · rfl
    · exact absurd hzero named
  | inside slot member nameless type isRecord rest ih =>
    rcases h'.cases_of_memberAt member with ⟨hnamed, -⟩ | ⟨-, _, later, htype, -, hbelow, rfl⟩
    · exact absurd nameless hnamed
    · cases type.symm.trans htype
      obtain ⟨below, hlevels, hlater⟩ := hbelow
      rw [← Nat.succ.inj hlevels] at hlater
      rw [ih hlater]

/-- What is answered about a field of the struct `e`: that no path leads to it, what the sum along the
first path gives, or an error that the search reports. -/
theorem memberOffset_cases {e : Entry} (hfind : table.findStruct struct table.entries = .ok e) :
    ((∀ slots offsets, ¬ table.Path field 8 e slots offsets) ∧
      table.memberOffset struct field = .error (.reported (.noMember struct field))) ∨
    (∃ slots offsets, IsFirst (table.Path field 8 e) slots offsets ∧ offsets.sum < 0x100000000 ∧
      table.memberOffset struct field =
        if offsets.sum % 8 = 0 then .ok (UInt32.ofNat (offsets.sum / 8))
        else .error (.reported (.bitField struct field))) ∨
    (∃ slots offsets, IsFirst (table.Path field 8 e) slots offsets ∧ 0x100000000 ≤ offsets.sum ∧
      table.memberOffset struct field = .error .overflow) ∨
    ∃ err, table.memberBits field 8 e = .error (.reported err) ∧
      table.memberOffset struct field = .error (.reported err) := by
  have hfinds : Finds (table.Path field 8 e) (table.memberBits field 8 e) := memberBits_finds
  rw [memberOffset_of_findStruct hfind]
  generalize table.memberBits field 8 e = found at hfinds
  cases hfinds with
  | absent hnone => exact .inl ⟨hnone, rfl⟩
  | @first slots offsets bits hfirst hsum =>
    have hfits : offsets.sum < 0x100000000 := hsum ▸ bits.toNat_lt
    have hword : bits = UInt32.ofNat offsets.sum := by rw [← hsum, UInt32.ofNat_toNat]
    refine .inr (.inl ⟨slots, offsets, hfirst, hfits, ?_⟩)
    rw [hword, ← offsetOfBits_ofNat hfits]
    rfl
  | @overflow slots offsets hfirst hlong =>
    exact .inr (.inr (.inl ⟨slots, offsets, hfirst, hlong, rfl⟩))
  | reported err => exact .inr (.inr (.inr ⟨err, rfl, rfl⟩))

theorem exists_path_of_memberOffset {offset : UInt32}
    (h : table.memberOffset struct field = .ok offset) :
    ∃ e slots offsets, table.IsFirstStruct struct table.entries e ∧
      IsFirst (table.Path field 8 e) slots offsets ∧ 8 * offset.toNat = offsets.sum ∧
      offsets.sum < 0x100000000 := by
  cases hfind : table.findStruct struct table.entries with
  | error err =>
    rw [memberOffset_of_no_struct hfind] at h
    cases h
  | ok e =>
    have hstruct := isFirstStruct_of_findStruct hfind
    rcases memberOffset_cases hfind with ⟨-, hanswer⟩ | ⟨slots, offsets, hfirst, hfits, hanswer⟩ |
      ⟨slots, offsets, -, -, hanswer⟩ | ⟨err, -, hanswer⟩
    · cases h.symm.trans hanswer
    · rw [h] at hanswer
      split at hanswer
      · cases hanswer
        refine ⟨e, slots, offsets, hstruct, hfirst, ?_, hfits⟩
        rw [toNat_ofNat_of_lt (by omega)]
        omega
      · cases hanswer
    · cases h.symm.trans hanswer
    · cases h.symm.trans hanswer

theorem exists_path_of_overflow (h : table.memberOffset struct field = .error .overflow) :
    ∃ e slots offsets, table.IsFirstStruct struct table.entries e ∧
      IsFirst (table.Path field 8 e) slots offsets ∧ 0x100000000 ≤ offsets.sum := by
  cases hfind : table.findStruct struct table.entries with
  | error err =>
    rw [memberOffset_of_no_struct hfind] at h
    cases h
  | ok e =>
    rcases memberOffset_cases hfind with ⟨-, hanswer⟩ | ⟨slots, offsets, -, -, hanswer⟩ |
      ⟨slots, offsets, hfirst, hlong, -⟩ | ⟨err, -, hanswer⟩
    · cases h.symm.trans hanswer
    · rw [h] at hanswer
      split at hanswer
      · cases hanswer
      · cases hanswer
    · exact ⟨e, slots, offsets, isFirstStruct_of_findStruct hfind, hfirst, hlong⟩
    · cases h.symm.trans hanswer

/-- A sum that passes a word ends the search, unless a name on the way there cannot be read. -/
theorem memberOffset_of_long_path (hslots : SlotsInside table) {e : Entry} {slots offsets : List Nat}
    (hstruct : table.IsFirstStruct struct table.entries e)
    (hfirst : IsFirst (table.Path field 8 e) slots offsets) (hlong : 0x100000000 ≤ offsets.sum) :
    table.memberOffset struct field = .error .overflow ∨
      ∃ err ∈ nameErrors, table.memberOffset struct field = .error (.reported err) := by
  rcases findStruct_of_isFirstStruct hstruct with hfind | ⟨err, herr, hfind⟩
  · obtain ⟨before, after, hentries, he, -⟩ := hstruct
    have hmem : e ∈ table.entries := by simp [hentries]
    rcases memberOffset_cases hfind with ⟨hnone, -⟩ | ⟨slots', offsets', hfirst', hfits, -⟩ |
      ⟨_, _, -, -, hanswer⟩ | ⟨err, hbits, hanswer⟩
    · exact absurd hfirst.1 (hnone slots offsets)
    · -- the path that was found is this one, whose sum does not fit
      obtain rfl := hfirst.unique hfirst'
      rw [← hfirst.1.offsets_unique hfirst'.1] at hfits
      exact absurd hfits (Nat.not_lt.2 hlong)
    · exact .inl hanswer
    · exact .inr ⟨err, memberBits_error hslots hmem (isRecord_of_struct he.kind) hbits, hanswer⟩
  · exact .inr ⟨err, herr, memberOffset_of_no_struct hfind field⟩

end

/-- **An offset is the sum along the first path**, in a table that was read. No addition on the way
passes a word; where the sum does, there is no offset: the search ends over it, or over a name that
cannot be read on the way there. It ends over a sum only there. -/
theorem memberOffset_eq_path_sum {data : Bytes} {table : TypeTable} (hparse : parse data = .ok table)
    (struct field : String) :
    (∀ offset, table.memberOffset struct field = .ok offset →
      ∃ e slots offsets, table.IsFirstStruct struct table.entries e ∧
        IsFirst (table.Path field 8 e) slots offsets ∧ 8 * offset.toNat = offsets.sum ∧
        ∀ inner, inner <:+ offsets → inner.sum < 0x100000000) ∧
    (∀ e slots offsets, table.IsFirstStruct struct table.entries e →
      IsFirst (table.Path field 8 e) slots offsets → 0x100000000 ≤ offsets.sum →
        table.memberOffset struct field = .error .overflow ∨
          ∃ err ∈ nameErrors, table.memberOffset struct field = .error (.reported err)) ∧
    (table.memberOffset struct field = .error .overflow →
      ∃ e slots offsets, table.IsFirstStruct struct table.entries e ∧
        IsFirst (table.Path field 8 e) slots offsets ∧ 0x100000000 ≤ offsets.sum) := by
  refine ⟨fun offset h => ?_, fun e slots offsets hstruct hfirst hlong => ?_, exists_path_of_overflow⟩
  · obtain ⟨e, slots, offsets, hstruct, hfirst, hsum, hfits⟩ := exists_path_of_memberOffset h
    refine ⟨e, slots, offsets, hstruct, hfirst, hsum, ?_⟩
    rintro inner ⟨outer, rfl⟩
    rw [List.sum_append] at hfits
    exact Nat.lt_of_le_of_lt (Nat.le_add_left _ _) hfits
  · exact memberOffset_of_long_path (slotsInside_of_parse hparse) hstruct hfirst hlong

theorem memberOffset_eq_path_sum_task :
    ∃ table, parse (encode taskDecls) = .ok table ∧
      table.memberOffset "task_struct" "real_parent" = .ok 0x988 ∧
      ∃ e slots offsets, table.IsFirstStruct "task_struct" table.entries e ∧
        IsFirst (table.Path "real_parent" 8 e) slots offsets ∧ 8 * 0x988 = offsets.sum := by
  have hparse := parse_encode taskDecls_fits
  have hoffset : (ofDecls taskDecls).memberOffset "task_struct" "real_parent" = .ok 0x988 :=
    memberOffset_of_bytes (ofDecls_holds taskDecls_fits) (by decide +kernel) (by decide)
  obtain ⟨e, slots, offsets, hstruct, hfirst, hsum, -⟩ :=
    (memberOffset_eq_path_sum hparse "task_struct" "real_parent").1 _ hoffset
  exact ⟨ofDecls taskDecls, hparse, hoffset, e, slots, offsets, hstruct, hfirst, hsum⟩

/-- A table whose nested offsets add up to more bits than a word holds. -/
def farDecls : List Decl :=
  taskDecls.take 1 ++
  [ .struct (.ofText "") 4096 [⟨.ofText "real_parent", 1, 64⟩] (by decide),
    .struct (.ofText "task_struct") 4096
      [⟨.ofText "", 2, 0xFFFFFFF8⟩, ⟨.ofText "tgid", 1, 64⟩] (by decide) ]

theorem farDecls_fits : Fits farDecls := by
  constructor <;> decide +kernel

theorem memberOffset_farDecls :
    (ofDecls farDecls).memberOffset "task_struct" "real_parent" = .error .overflow := by
  have hbits : bitOffset farDecls "task_struct" "real_parent" = .ok 0x100000038 := by
    decide +kernel
  exact memberOffset_of_long (ofDecls_holds farDecls_fits) hbits (by decide)

/-- A sum that passes a word is not reported as an error. -/
theorem overflow_not_reported :
    ∃ table, parse (encode farDecls) = .ok table ∧
      (∃ e slots offsets, table.IsFirstStruct "task_struct" table.entries e ∧
        IsFirst (table.Path "real_parent" 8 e) slots offsets ∧ 0x100000000 ≤ offsets.sum) ∧
      ¬ ∃ err, table.memberOffset "task_struct" "real_parent" = .error (.reported err) := by
  refine ⟨ofDecls farDecls, parse_encode farDecls_fits,
    exists_path_of_overflow memberOffset_farDecls, ?_⟩
  rintro ⟨err, herr⟩
  rw [memberOffset_farDecls] at herr
  cases herr

end ExecWatch.TypeTable
