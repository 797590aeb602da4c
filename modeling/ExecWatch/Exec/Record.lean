import ExecWatch.Text.Bytes

/-!
# Exec records

The record that the probe publishes for each exec, and its 544 bytes: four little-endian words
`pid`, `ppid`, `uid`, `gid` at 0, 4, 8 and 12, then the fields `comm` at 16, `filename` at 32 and
`argv` at 288.

Main statements:
* `cleared_eq_zero`: a cleared field is all NULs, whatever it held;
* `length_encode`: a record always takes `Record.size` bytes;
* `wordAt_append`: a word is found where it was laid.
-/

namespace ExecWatch

/-- A byte field of fixed width. -/
structure Field (width : Nat) where
  bytes : Bytes
  length_eq : bytes.length = width
deriving DecidableEq

namespace Field

variable {width : Nat}

@[ext] theorem ext' {f g : Field width} (h : f.bytes = g.bytes) : f = g := by
  cases f; cases g; simp_all

/-- The field with the given bytes, NULs after them; longer input is cut. -/
def ofBytes (width : Nat) (bytes : Bytes) : Field width :=
  ⟨bytes.padTo width, Bytes.length_padTo width bytes⟩

/-- All NULs. -/
def zero (width : Nat) : Field width :=
  ⟨List.replicate width 0, List.length_replicate⟩

/-- The bytes before the first NUL. -/
def text (f : Field width) : Bytes :=
  f.bytes.cText

/-- The field with its last byte forced to NUL. -/
def terminated (f : Field width) : Field width :=
  ⟨f.bytes.set (width - 1) 0, by simp [f.length_eq]⟩

/-- The field with every byte overwritten by NUL. -/
def cleared (f : Field width) : Field width :=
  ⟨f.bytes.map fun _ => 0, by simp [f.length_eq]⟩

/-- Nothing of what a field held survives its clearing. -/
@[simp] theorem cleared_eq_zero (f : Field width) : f.cleared = zero width :=
  ext' (by simp only [cleared, zero, List.map_const', f.length_eq])

end Field

/-- What is known of one exec. -/
structure Record where
  pid : UInt32
  ppid : UInt32
  uid : UInt32
  gid : UInt32
  comm : Field 16
  filename : Field 256
  argv : Field 256
deriving DecidableEq

namespace Record

/-- Bytes of a record. -/
def size : Nat := 544

/-- All zero. -/
def zero : Record :=
  ⟨0, 0, 0, 0, .zero 16, .zero 256, .zero 256⟩

/-- Every byte of it is `b`. -/
def filledWith (b : UInt8) : Record :=
  let w := Bytes.word32 b b b b
  ⟨w, w, w, w, .ofBytes 16 (List.replicate 16 b), .ofBytes 256 (List.replicate 256 b),
    .ofBytes 256 (List.replicate 256 b)⟩

/-- The bytes of a record. -/
def encode (r : Record) : Bytes :=
  Bytes.ofWord32 r.pid ++ Bytes.ofWord32 r.ppid ++ Bytes.ofWord32 r.uid ++ Bytes.ofWord32 r.gid ++
    r.comm.bytes ++ r.filename.bytes ++ r.argv.bytes

/-- The `width` bytes of `bytes` from `offset` on. -/
def fieldAt (bytes : Bytes) (offset width : Nat) (h : offset + width ≤ bytes.length) :
    Field width :=
  ⟨(bytes.drop offset).take width, by simp only [List.length_take, List.length_drop]; omega⟩

/-- The word of `bytes` at `offset`. -/
def wordAt (bytes : Bytes) (offset : Nat) (h : offset + 4 ≤ bytes.length) : UInt32 :=
  Bytes.word32 bytes[offset] bytes[offset + 1] bytes[offset + 2] bytes[offset + 3]

/-- The record whose bytes are given; `none` unless there are exactly `size` of them. -/
def decode? (bytes : Bytes) : Option Record :=
  if h : bytes.length = size then
    have le {n : Nat} (hn : n ≤ size) : n ≤ bytes.length := h ▸ hn
    some
      { pid := wordAt bytes 0 (le (by decide))
        ppid := wordAt bytes 4 (le (by decide))
        uid := wordAt bytes 8 (le (by decide))
        gid := wordAt bytes 12 (le (by decide))
        comm := fieldAt bytes 16 16 (le (by decide))
        filename := fieldAt bytes 32 256 (le (by decide))
        argv := fieldAt bytes 288 256 (le (by decide)) }
  else none

@[simp] theorem length_encode (r : Record) : r.encode.length = size := by
  simp [encode, size, r.comm.length_eq, r.filename.length_eq, r.argv.length_eq]

theorem wordAt_append (left : Bytes) (w : UInt32) (right : Bytes)
    (h : left.length + 4 ≤ (left ++ (Bytes.ofWord32 w ++ right)).length) :
    wordAt (left ++ (Bytes.ofWord32 w ++ right)) left.length h = w := by
  have := Bytes.word32?_ofWord32 w right
  simp only [Bytes.ofWord32, List.cons_append, List.nil_append, Bytes.word32?,
    Option.some.injEq] at this
  simpa [wordAt, Bytes.ofWord32, List.getElem_append_right] using this

end Record

end ExecWatch
