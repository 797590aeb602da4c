import ExecWatch.Proofs.Exec.Codec

/-!
# The layout of a record

* `encode_of_decode?`: 544 bytes that are read as a record are the bytes of that record, so reading and
  writing undo each other (`decode?_encode` is the other half);
* `encode_eq_flatMap`: the bytes of a record are its parts one behind the other, each at its place
  (`take_drop_encode`);
* `getElem?_encode_congr`: records that differ in one part differ in no byte outside of its place;
* `codec_bijective`: all of it.
-/

namespace ExecWatch.Record

/-! ## Writing undoes reading -/

theorem ofWord32_wordAt {bytes : Bytes} {offset : Nat} (h : offset + 4 ≤ bytes.length) :
    Bytes.ofWord32 (wordAt bytes offset h) = (bytes.drop offset).take 4 := by
  rw [wordAt, Bytes.ofWord32_word32]
  rw [List.drop_eq_getElem_cons (by omega), List.drop_eq_getElem_cons (by omega),
    List.drop_eq_getElem_cons (by omega), List.drop_eq_getElem_cons (by omega)]
  rfl

/-- A stretch of bytes and what lies behind it. -/
theorem take_append_drop_drop (bytes : Bytes) (offset width : Nat) :
    (bytes.drop offset).take width ++ bytes.drop (offset + width) = bytes.drop offset := by
  rw [← List.drop_drop, List.take_append_drop]

theorem encode_of_decode? {bytes : Bytes} {r : Record} (h : decode? bytes = some r) :
    r.encode = bytes := by
  unfold decode? at h
  split at h
  · rename_i hlen
    cases h
    have hend : bytes.drop (288 + 256) = [] := List.drop_of_length_le (by rw [hlen]; decide)
    simp only [encode, ofWord32_wordAt, fieldAt, List.append_assoc]
    rw [← List.append_nil ((bytes.drop 288).take 256), ← hend, take_append_drop_drop bytes 288,
      take_append_drop_drop bytes 32, take_append_drop_drop bytes 16, take_append_drop_drop bytes 12,
      take_append_drop_drop bytes 8, take_append_drop_drop bytes 4, take_append_drop_drop bytes 0,
      List.drop_zero]
  · cases h

/-- A text is read as a record exactly when it has the length of one. -/
theorem decode?_isSome_iff (bytes : Bytes) : (decode? bytes).isSome ↔ bytes.length = size := by
  unfold decode?
  split <;> simp_all

/-! ## The parts -/

/-- The parts of a record, in the order in which they lie. -/
inductive Part where
  | pid
  | ppid
  | uid
  | gid
  | comm
  | filename
  | argv
deriving DecidableEq, Repr

/-- A number in four bytes, the lowest first. -/
def littleEndian (w : UInt32) : Bytes :=
  (List.range 4).map fun i => UInt8.ofNat (w.toNat >>> (8 * i))

namespace Part

def all : List Part := [pid, ppid, uid, gid, comm, filename, argv]

/-- The place of the first byte. -/
def offset : Part → Nat
  | pid => 0
  | ppid => 4
  | uid => 8
  | gid => 12
  | comm => 16
  | filename => 32
  | argv => 288

def width : Part → Nat
  | pid | ppid | uid | gid => 4
  | comm => 16
  | filename | argv => 256

/-- What a record holds in the part. -/
def bytes (r : Record) : Part → Bytes
  | pid => littleEndian r.pid
  | ppid => littleEndian r.ppid
  | uid => littleEndian r.uid
  | gid => littleEndian r.gid
  | comm => r.comm.bytes
  | filename => r.filename.bytes
  | argv => r.argv.bytes

/-- Byte `i` of a record lies in the part. -/
def Covers (p : Part) (i : Nat) : Prop := p.offset ≤ i ∧ i < p.offset + p.width

theorem length_bytes (r : Record) (p : Part) : (p.bytes r).length = p.width := by
  cases p
  case comm => exact r.comm.length_eq
  case filename => exact r.filename.length_eq
  case argv => exact r.argv.length_eq
  all_goals rfl

/-- The parts leave no gap. -/
theorem exists_covers {i : Nat} (h : i < size) : ∃ p : Part, p.Covers i := by
  have hsize : size = 544 := rfl
  by_cases hwords : i < 16
  · obtain h4 | h8 | h12 | h16 : i < 4 ∨ (4 ≤ i ∧ i < 8) ∨ (8 ≤ i ∧ i < 12) ∨ 12 ≤ i := by omega
    · exact ⟨pid, Nat.zero_le i, h4⟩
    · exact ⟨ppid, h8⟩
    · exact ⟨uid, h12⟩
    · exact ⟨gid, h16, hwords⟩
  · obtain h32 | h288 | h544 : i < 32 ∨ (32 ≤ i ∧ i < 288) ∨ 288 ≤ i := by omega
    · exact ⟨comm, Nat.not_lt.1 hwords, h32⟩
    · exact ⟨filename, h288⟩
    · exact ⟨argv, h544, by simp only [offset, width]; omega⟩

end Part

theorem ofWord32_eq_littleEndian (w : UInt32) : Bytes.ofWord32 w = littleEndian w := by
  simp [Bytes.ofWord32, littleEndian, List.range, List.range.loop, Nat.shiftRight_eq_div_pow]

theorem encode_eq_flatMap (r : Record) : r.encode = Part.all.flatMap (Part.bytes r) := by
  simp [encode, Part.all, Part.bytes, ofWord32_eq_littleEndian]

/-- Each part lies at its place. -/
theorem take_drop_encode (r : Record) (p : Part) :
    (r.encode.drop p.offset).take p.width = p.bytes r := by
  have hcomm := r.comm.length_eq
  have hfilename := r.filename.length_eq
  have hargv := r.argv.length_eq
  have hword (w : UInt32) : (Bytes.ofWord32 w).take 4 = Bytes.ofWord32 w :=
    List.take_of_length_le (Nat.le_of_eq (Bytes.length_ofWord32 w))
  cases p
  all_goals
    simp [encode, Part.offset, Part.width, Part.bytes, ← ofWord32_eq_littleEndian, List.drop_append,
      List.take_append, drop_ofWord32, List.drop_of_length_le, List.take_of_length_le, hcomm,
      hfilename, hargv, hword]

/-- A byte of a record is a byte of the part that it lies in. -/
theorem getElem?_encode (r : Record) {p : Part} {i : Nat} (h : p.Covers i) :
    r.encode[i]? = (p.bytes r)[i - p.offset]? := by
  obtain ⟨hle, hlt⟩ := h
  rw [← take_drop_encode, List.getElem?_take_of_lt (by omega), List.getElem?_drop,
    Nat.add_sub_cancel' hle]

theorem getElem?_encode_congr {r s : Record} {p : Part} (h : ∀ q, q ≠ p → q.bytes r = q.bytes s)
    {i : Nat} (hi : ¬ p.Covers i) : r.encode[i]? = s.encode[i]? := by
  by_cases hsize : i < size
  · obtain ⟨q, hq⟩ := Part.exists_covers hsize
    have hne : q ≠ p := by
      rintro rfl
      exact hi hq
    rw [getElem?_encode r hq, getElem?_encode s hq, h q hne]
  · rw [List.getElem?_eq_none (by rw [length_encode]; omega),
      List.getElem?_eq_none (by rw [length_encode]; omega)]

/-! ## The codec as a whole -/

/-- **Reading and writing records are inverse to each other**, and what is written is the documented
layout. -/
theorem codec_bijective :
    (∀ bytes, (decode? bytes).isSome ↔ bytes.length = 544) ∧
      (∀ bytes, bytes.length = 544 → (decode? bytes).map encode = some bytes) ∧
      (∀ r : Record, decode? r.encode = some r) ∧
      (∀ r : Record, r.encode = littleEndian r.pid ++ littleEndian r.ppid ++ littleEndian r.uid ++
        littleEndian r.gid ++ r.comm.bytes ++ r.filename.bytes ++ r.argv.bytes) ∧
      (∀ (r : Record) (p : Part), (r.encode.drop p.offset).take p.width = p.bytes r) ∧
      ∀ (r s : Record) (p : Part), (∀ q, q ≠ p → q.bytes r = q.bytes s) →
        ∀ i, ¬ p.Covers i → r.encode[i]? = s.encode[i]? := by
  refine ⟨decode?_isSome_iff, fun bytes hlen => ?_, decode?_encode, fun r => ?_, take_drop_encode,
    fun r s p h i hi => getElem?_encode_congr h hi⟩
  · obtain ⟨r, hr⟩ := Option.isSome_iff_exists.1 ((decode?_isSome_iff bytes).2 hlen)
    rw [hr, Option.map_some, encode_of_decode? hr]
  · rw [encode_eq_flatMap]
    simp [Part.all, Part.bytes]

/-- Another parent changes no byte of the task's name, and 544 bytes that end nowhere are read. -/
theorem codec_bijective_reparented :
    (List.replicate 544 (0xFF : UInt8)).length = 544 ∧
      (decode? (List.replicate 544 0xFF)).map encode = some (List.replicate 544 0xFF) ∧
      (∀ q, q ≠ Part.ppid → q.bytes (filledWith 0xFF) = q.bytes { filledWith 0xFF with ppid := 7 }) ∧
      ¬ Part.ppid.Covers 16 ∧
      (filledWith 0xFF).encode[16]? = { filledWith 0xFF with ppid := 7 : Record }.encode[16]? := by
  have hlen : (List.replicate 544 (0xFF : UInt8)).length = 544 := List.length_replicate
  have hsame : ∀ q, q ≠ Part.ppid →
      q.bytes (filledWith 0xFF) = q.bytes { filledWith 0xFF with ppid := 7 } := by
    intro q hq
    cases q
    case ppid => exact absurd rfl hq
    all_goals rfl
  have hout : ¬ Part.ppid.Covers 16 := fun h => absurd h.2 (by decide)
  obtain ⟨-, hread, -, -, -, hchange⟩ := codec_bijective
  exact ⟨hlen, hread _ hlen, hsame, hout, hchange _ _ _ hsame 16 hout⟩

end ExecWatch.Record
