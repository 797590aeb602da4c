import ExecWatch.Proofs.TypeTable.Paths

/-!
# Searching a table to the end

A search for a field of a struct ends with an offset, with an error that its caller gets, or over a
sum of offsets that passes a word. The last is a matter of the offsets along the first path alone
(`SumFits`): where their sum fits a word, the caller gets an answer (`memberOffset_ne_overflow`).

Main statement: `parse_exact_and_searchable`.
-/

namespace ExecWatch.TypeTable

/-- The offsets along the first path to the field add up to no more bits than a word holds. -/
def SumFits (table : TypeTable) (struct field : String) : Prop :=
  ∀ e slots offsets, table.IsFirstStruct struct table.entries e →
    IsFirst (table.Path field 8 e) slots offsets → offsets.sum < 0x100000000

section
variable {table : TypeTable} {struct field : String}

theorem memberOffset_ne_overflow (h : table.SumFits struct field) :
    table.memberOffset struct field ≠ .error .overflow := by
  intro hoverflow
  obtain ⟨e, slots, offsets, hstruct, hfirst, hlong⟩ := exists_path_of_overflow hoverflow
  exact absurd (h e slots offsets hstruct hfirst) (Nat.not_lt.2 hlong)

/-- Where there is an offset, the sum fits. -/
theorem sumFits_of_memberOffset (hslots : SlotsInside table) {offset : UInt32}
    (h : table.memberOffset struct field = .ok offset) : table.SumFits struct field := by
  intro e slots offsets hstruct hfirst
  by_contra hlong
  rcases memberOffset_of_long_path hslots hstruct hfirst (Nat.le_of_not_lt hlong) with
    hoverflow | ⟨err, -, herr⟩
  · rw [h] at hoverflow
    cases hoverflow
  · rw [h] at herr
    cases herr

end

/-- **The reader accepts exactly the type tables, and a table it accepted can be searched to the
end.** Every slot of every record lies inside the type section; a search for a field of a struct whose
offsets add up to a word ends with an offset, or with an error about a name or about what was found,
however the records hold each other. No search reports that the table is cut off. -/
theorem parse_exact_and_searchable (data : Bytes) :
    (∀ table, parse data = .ok table ↔ IsTable data table) ∧
    ∀ table, parse data = .ok table →
      SlotsInside table ∧
      ∀ struct field,
        (table.SumFits struct field →
          (∃ offset, table.memberOffset struct field = .ok offset) ∨
            ∃ err ∈ lookupErrors struct field,
              table.memberOffset struct field = .error (.reported err)) ∧
        ∀ err, table.memberOffset struct field = .error (.reported err) →
          err.message ≠ "BTF truncated" := by
  refine ⟨fun table => parse_eq_ok_iff, fun table hparse => ?_⟩
  have hslots := slotsInside_of_parse hparse
  refine ⟨hslots, fun struct field => ⟨fun hsum => ?_, fun err herr => ?_⟩⟩
  · rcases hresult : table.memberOffset struct field with (err | _) | offset
    · exact .inr ⟨err, memberOffset_error_mem hslots hresult, rfl⟩
    · exact absurd hresult (memberOffset_ne_overflow hsum)
    · exact .inl ⟨offset, rfl⟩
  · exact message_ne_truncated (memberOffset_error_mem hslots herr)

/-- Two records that hold each other without a name. -/
def ringDecls : List Decl :=
  [ .struct (.ofText "ring") 8 [⟨.ofText "", 2, 0⟩, ⟨.ofText "last", 0, 64⟩] (by decide),
    ⟨.ofText "", false, 8, .record .union rfl [⟨.ofText "", 1, 0⟩, ⟨.ofText "", 2, 0⟩] (by decide)⟩ ]

theorem parse_exact_and_searchable_ring :
    ∃ table, parse (encode ringDecls) = .ok table ∧ IsTable (encode ringDecls) table ∧
      SlotsInside table ∧ table.SumFits "ring" "last" ∧
      (∃ offset, table.memberOffset "ring" "last" = .ok offset) ∧
      table.memberOffset "ring" "first" = .error (.reported (.noMember "ring" "first")) ∧
      (Error.noMember "ring" "first").message ≠ "BTF truncated" := by
  have hfits : Fits ringDecls := by
    constructor <;> decide +kernel
  have hparse := parse_encode hfits
  have hnone : bitOffset ringDecls "ring" "first" = .error (.noMember "ring" "first") := by
    decide +kernel
  have hoffset : (ofDecls ringDecls).memberOffset "ring" "last" = .ok 8 :=
    memberOffset_of_bytes (ofDecls_holds hfits) (by decide +kernel) (by decide)
  have herror : (ofDecls ringDecls).memberOffset "ring" "first" =
      .error (.reported (.noMember "ring" "first")) := by
    rw [memberOffset_eq (ofDecls_holds hfits), hnone]
  obtain ⟨hexact, hsearchable⟩ := parse_exact_and_searchable (encode ringDecls)
  obtain ⟨hslots, hsearch⟩ := hsearchable _ hparse
  have hsum := sumFits_of_memberOffset hslots hoffset
  have hreturns := ((hsearch "ring" "last").1 hsum).resolve_right fun ⟨err, _, herr⟩ => by
    rw [hoffset] at herr
    cases herr
  exact ⟨ofDecls ringDecls, hparse, (hexact _).1 hparse, hslots, hsum, hreturns, herror,
    (hsearch "ring" "first").2 _ herror⟩

/-- Where the sum passes a word the caller gets neither an offset nor an error. -/
theorem search_without_answer :
    ∃ table, parse (encode farDecls) = .ok table ∧
      ¬ ((∃ offset, table.memberOffset "task_struct" "real_parent" = .ok offset) ∨
        ∃ err, table.memberOffset "task_struct" "real_parent" = .error (.reported err)) := by
  refine ⟨ofDecls farDecls, parse_encode farDecls_fits, ?_⟩
  rw [memberOffset_farDecls]
  rintro (⟨offset, hoffset⟩ | ⟨err, herr⟩)
  · cases hoffset
  · cases herr

end ExecWatch.TypeTable
