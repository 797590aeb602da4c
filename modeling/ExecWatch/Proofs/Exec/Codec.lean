import ExecWatch.Exec.Record

/-!
# Reading a record back

`decode?_encode`: the bytes of a record read back as that record. A word or field is read at its
offset when its bytes come first there (`wordAt_of_front`, `fieldAt_of_front`), and what comes
first at an offset follows from the fixed lengths of the parts before it.
-/

namespace ExecWatch.Record

theorem wordAt_of_front {bytes : Bytes} {w : UInt32} {offset : Nat}
    (hw : Bytes.ofWord32 w <+: bytes.drop offset) (h : offset + 4 ≤ bytes.length) :
    wordAt bytes offset h = w := by
  obtain ⟨right, hr⟩ := hw
  obtain ⟨left, rfl, rfl⟩ : ∃ left, bytes = left ++ (Bytes.ofWord32 w ++ right) ∧
      left.length = offset :=
    ⟨bytes.take offset, by rw [hr, List.take_append_drop], by rw [List.length_take]; omega⟩
  exact wordAt_append left w right h

theorem fieldAt_of_front {width : Nat} {bytes : Bytes} {f : Field width} {offset : Nat}
    (hf : f.bytes <+: bytes.drop offset) (h : offset + width ≤ bytes.length) :
    fieldAt bytes offset width h = f := by
  apply Field.ext'
  simp only [fieldAt]
  rw [List.prefix_iff_eq_take.1 hf, f.length_eq]

theorem drop_ofWord32 (w : UInt32) {offset : Nat} (h : 4 ≤ offset) :
    (Bytes.ofWord32 w).drop offset = [] :=
  List.drop_of_length_le h

/-- **A record's bytes read back** as the record. -/
@[simp] theorem decode?_encode (r : Record) : decode? r.encode = some r := by
  obtain ⟨pid, ppid, uid, gid, comm, filename, argv⟩ := r
  have hcomm := comm.length_eq
  have hfilename := filename.length_eq
  simp only [decode?, length_encode, ↓reduceDIte, Option.some.injEq, mk.injEq]
  refine ⟨wordAt_of_front ?_ _, wordAt_of_front ?_ _, wordAt_of_front ?_ _,
    wordAt_of_front ?_ _, fieldAt_of_front ?_ _, fieldAt_of_front ?_ _, fieldAt_of_front ?_ _⟩
  all_goals simp [encode, List.drop_append, drop_ofWord32, List.drop_of_length_le, hcomm, hfilename]

end ExecWatch.Record
