import ExecWatch.Proofs.TypeTable.Grammar
import ExecWatch.Proofs.TypeTable.Lookup

/-!
# Searching a table that was read

A search for a member goes through the slots of a record and, where a slot has no name, into the
record it holds, at most eight records deep; so it ends even where nameless members hold each other.

* `slotsInside_of_parse`: in a table that was read every slot lies inside the type section, so no step
  is cut off;
* `memberOffset_error_mem`: what a search there reports is an error over a name, or over what it finds;
* `isFirstStruct_of_findStruct`, `findStruct_of_isFirstStruct`: the struct that is searched is the first
  of its name, unless a name before it cannot be read.
-/

namespace ExecWatch.TypeTable

/-! ## Slots -/

/-- Every slot of every record lies inside the type section. -/
def SlotsInside (table : TypeTable) : Prop :=
  ∀ e ∈ table.entries, e.kind.isRecord = true → ∀ i < e.count,
    e.payload + (i + 1) * 12 ≤ table.types.length

theorem payload_of_isRecord {k : Kind} (h : k.isRecord = true) (count : Nat) :
    k.payload count = count * 12 := by
  cases k <;> first | rfl | cases h

theorem slotsInside_of_parse {data : Bytes} {table : TypeTable} (h : parse data = .ok table) :
    SlotsInside table := by
  obtain ⟨-, -, -, -, hentries⟩ := parse_eq_ok_iff.1 h
  intro e he hrecord i hi
  have hinside := hentries.payload_inside he
  rw [payload_of_isRecord hrecord, Nat.zero_add] at hinside
  omega

theorem SlotsInside.exists_memberAt {table : TypeTable} (h : SlotsInside table) {e : Entry}
    (he : e ∈ table.entries) (hrecord : e.kind.isRecord = true) {i : Nat} (hi : i < e.count) :
    ∃ m, table.memberAt e i = .ok m := by
  have hslot : e.payload + i * Member.size + 8 + 4 ≤ table.types.length := by
    have hinside := h e he hrecord i hi
    rw [Member.size]
    omega
  obtain ⟨name, hname⟩ : ∃ w, word table.types (e.payload + i * Member.size) = .ok w :=
    exists_word (by omega)
  obtain ⟨type, htype⟩ : ∃ w, word table.types (e.payload + i * Member.size + 4) = .ok w :=
    exists_word (by omega)
  obtain ⟨offset, hoffset⟩ : ∃ w, word table.types (e.payload + i * Member.size + 8) = .ok w :=
    exists_word hslot
  refine ⟨⟨name, type, offset⟩, ?_⟩
  unfold memberAt
  simp only [hname, htype, hoffset]
  rfl

/-! ## What a search can fail with -/

/-- What a name can be refused for. -/
def nameErrors : List Error := [.nameOffset, .unterminatedName, .nameEncoding]

/-- What a search for a field of a struct can fail with. -/
def lookupErrors (struct field : String) : List Error :=
  [.noStruct struct, .noMember struct field, .bitField struct field] ++ nameErrors

section
variable {table : TypeTable} {err : Error}

theorem nameAt_error {offset : UInt32} (h : table.nameAt offset = .error err) :
    err ∈ nameErrors := by
  unfold nameAt at h
  split at h
  · cases h
    decide
  · dsimp only at h
    split at h
    · split at h
      · cases h
      · cases h
        decide
    · cases h
      decide

theorem entry?_mem {id : UInt32} {e : Entry} (h : table.entry? id = some e) : e ∈ table.entries := by
  unfold entry? at h
  split at h
  · cases h
  · exact List.mem_of_getElem? h

/-- An addition reports no error. -/
theorem reported_of_bind_addBits {found : Except (Failure Error) (Option UInt32)} {w : UInt32}
    (h : found.bind (Option.mapM (addBits w)) = .error (.reported err)) :
    found = .error (.reported err) := by
  rcases found with failure | _ | nested
  · cases h
    rfl
  · cases h
  · rw [Except.bind, Option.mapM_some, addBits] at h
    split at h
    · cases h
    · cases h

section
variable (h : SlotsInside table) {inner : Entry → Except (Failure Error) (Option UInt32)}
  {e : Entry} {field : String} (he : e ∈ table.entries) (hrecord : e.kind.isRecord = true)
  (hinner : ∀ record ∈ table.entries, record.kind.isRecord = true →
    ∀ err, inner record = .error (.reported err) → err ∈ nameErrors)
include h he hrecord hinner

theorem memberHit_error {i : Nat} (hi : i < e.count)
    (herr : table.memberHit inner e field i = .error (.reported err)) : err ∈ nameErrors := by
  obtain ⟨m, hm⟩ := h.exists_memberAt he hrecord hi
  simp only [memberHit, hm] at herr
  split at herr
  · split at herr
    · rename_i record hfilter
      obtain ⟨hentry, hkind⟩ := Option.filter_eq_some_iff.1 hfilter
      exact hinner record (entry?_mem hentry) hkind _ (reported_of_bind_addBits herr)
    · cases herr
  · split at herr
    · rename_i hname
      cases herr
      exact nameAt_error hname
    · cases herr

theorem searchMembers_error {left i : Nat} (hleft : i + left = e.count)
    (herr : table.searchMembers inner e field left i = .error (.reported err)) :
    err ∈ nameErrors := by
  induction left generalizing i with
  | zero => cases herr
  | succ left ih =>
    rw [searchMembers_succ] at herr
    split at herr
    · rename_i failure hhit
      cases herr
      exact memberHit_error h he hrecord hinner (by omega) hhit
    · cases herr
    · exact ih (by omega) herr

end

/-- A search in a record reports only errors over names, however its nameless members hold each
other. -/
theorem memberBits_error (h : SlotsInside table) {field : String} {levels : Nat} {e : Entry}
    (he : e ∈ table.entries) (hrecord : e.kind.isRecord = true)
    (herr : table.memberBits field levels e = .error (.reported err)) : err ∈ nameErrors := by
  induction levels generalizing e err with
  | zero =>
    refine searchMembers_error h he hrecord (fun record _ _ err hnone => ?_) (Nat.zero_add _) herr
    cases hnone
  | succ levels ih =>
    exact searchMembers_error h he hrecord (fun record hmem hkind err => ih hmem hkind)
      (Nat.zero_add _) herr

end

/-! ## The struct that is searched -/

section
variable (table : TypeTable)

/-- The entry is a struct of the name, and has members. -/
structure IsStruct (name : String) (e : Entry) : Prop where
  kind : e.kind = .struct
  count : 0 < e.count
  name : table.nameAt e.name = .ok name

/-- `e` is the first struct of the name that has members. -/
def IsFirstStruct (name : String) (es : List Entry) (e : Entry) : Prop :=
  ∃ before after, es = before ++ e :: after ∧ table.IsStruct name e ∧
    ∀ e' ∈ before, ¬ table.IsStruct name e'

end

section
variable {table : TypeTable} {name : String} {es : List Entry}

theorem isFirstStruct_of_findStruct {e : Entry} (h : table.findStruct name es = .ok e) :
    table.IsFirstStruct name es e := by
  induction es with
  | nil => cases h
  | cons e₀ es ih =>
    have hlater (hnot : ¬ table.IsStruct name e₀) (h : table.findStruct name es = .ok e) :
        table.IsFirstStruct name (e₀ :: es) e := by
      obtain ⟨before, after, rfl, he, hbefore⟩ := ih h
      refine ⟨e₀ :: before, after, rfl, he, fun e' he' => ?_⟩
      rcases List.mem_cons.1 he' with rfl | he'
      · exact hnot
      · exact hbefore e' he'
    rw [findStruct] at h
    split at h
    · rename_i hcandidate
      obtain ⟨text, htext, h⟩ := exists_of_bind_eq_ok h
      split at h
      · rename_i hname
        cases h
        rw [hname] at htext
        exact ⟨[], es, rfl, ⟨hcandidate.1, hcandidate.2, htext⟩, fun e' he' => by cases he'⟩
      · rename_i hname
        refine hlater (fun hstruct => hname ?_) h
        exact Except.ok.inj (htext.symm.trans hstruct.name)
    · rename_i hcandidate
      exact hlater (fun hstruct => hcandidate ⟨hstruct.kind, hstruct.count⟩) h

theorem findStruct_error {err : Error} (h : table.findStruct name es = .error err) :
    err = .noStruct name ∨ err ∈ nameErrors := by
  induction es with
  | nil =>
    cases h
    exact .inl rfl
  | cons e es ih =>
    rw [findStruct] at h
    split at h
    · rcases or_of_bind_eq_error h with hname | ⟨text, -, hrest⟩
      · exact .inr (nameAt_error hname)
      · split at hrest
        · cases hrest
        · exact ih hrest
    · exact ih h

/-- The first struct of the name is found, unless a name before it cannot be read. -/
theorem findStruct_of_isFirstStruct {e : Entry} (h : table.IsFirstStruct name es e) :
    table.findStruct name es = .ok e ∨
      ∃ err ∈ nameErrors, table.findStruct name es = .error err := by
  obtain ⟨before, after, rfl, he, hbefore⟩ := h
  induction before with
  | nil =>
    rw [List.nil_append, findStruct, if_pos ⟨he.kind, he.count⟩, he.name]
    exact .inl (if_pos rfl)
  | cons e₀ before ih =>
    have hlater := ih fun e' he' => hbefore e' (List.mem_cons_of_mem _ he')
    rw [List.cons_append, findStruct]
    by_cases hcandidate : e₀.kind = .struct ∧ 0 < e₀.count
    · rw [if_pos hcandidate]
      cases hname : table.nameAt e₀.name with
      | error err => exact .inr ⟨err, nameAt_error hname, rfl⟩
      | ok text =>
        have hother : text ≠ name := by
          rintro rfl
          exact hbefore e₀ List.mem_cons_self ⟨hcandidate.1, hcandidate.2, hname⟩
        simp only [bind, Except.bind, if_neg hother]
        exact hlater
    · rw [if_neg hcandidate]
      exact hlater

end

/-! ## Offsets of fields -/

theorem memberOffset_error_mem {table : TypeTable} (h : SlotsInside table) {struct field : String}
    {err : Error} (herr : table.memberOffset struct field = .error (.reported err)) :
    err ∈ lookupErrors struct field := by
  have hnames {err : Error} (h : err ∈ nameErrors) : err ∈ lookupErrors struct field :=
    List.mem_append_right _ h
  cases hfind : table.findStruct struct table.entries with
  | error err' =>
    rw [memberOffset_of_no_struct hfind] at herr
    cases herr
    rcases findStruct_error hfind with rfl | hname
    · simp [lookupErrors]
    · exact hnames hname
  | ok e =>
    obtain ⟨before, after, hentries, he, -⟩ := isFirstStruct_of_findStruct hfind
    have hmem : e ∈ table.entries := by simp [hentries]
    rw [memberOffset_of_findStruct hfind] at herr
    rcases or_of_bind_eq_error herr with hbits | ⟨found, -, hoffset⟩
    · exact hnames (memberBits_error h hmem (isRecord_of_struct he.kind) hbits)
    · cases found with
      | none =>
        cases hoffset
        simp [lookupErrors]
      | some bits =>
        rw [offsetOfBits] at hoffset
        split at hoffset
        · cases hoffset
        · cases hoffset
          simp [lookupErrors]

theorem message_ne_truncated {struct field : String} {err : Error}
    (h : err ∈ lookupErrors struct field) : err.message ≠ "BTF truncated" := by
  have hletter : 's' ∈ err.message.toList ∨ 'm' ∈ err.message.toList := by
    simp only [lookupErrors, nameErrors, List.cons_append, List.nil_append, List.mem_cons,
      List.not_mem_nil, or_false] at h
    rcases h with rfl | rfl | rfl | rfl | rfl | rfl
    · have htext : (Error.noStruct struct).message = "struct " ++ struct ++ " not found in BTF" := rfl
      simp [htext]
    · have htext : (Error.noMember struct field).message =
        "struct " ++ struct ++ " has no member " ++ field := rfl
      simp [htext]
    · have htext : (Error.bitField struct field).message =
        struct ++ "." ++ field ++ " is a bitfield" := rfl
      simp [htext]
    · decide
    · decide
    · decide
  intro htruncated
  rw [htruncated] at hletter
  revert hletter
  decide

end ExecWatch.TypeTable
