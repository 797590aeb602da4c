import ExecWatch.TypeTable.Basic

/-!
# Reading a type table

The header gives its own length, and the places of the two sections relative to its end; the type
section must be an exact concatenation of declarations.
-/

namespace ExecWatch.TypeTable

/-- The magic number of tables in this byte order. -/
def magic : Nat := 0xeb9f

/-- Bytes of the shortest header. -/
def headerSize : Nat := 24

/-- Bytes of a declaration's header. -/
def entrySize : Nat := 12

/-- The word at `offset`. -/
def word (data : Bytes) (offset : Nat) : Except Error UInt32 :=
  match Bytes.word32? (data.drop offset) with
  | some w => .ok w
  | none => .error .truncated

/-- The `length` bytes of `body` from `offset` on. -/
def sectionAt (body : Bytes) (offset length : UInt32) : Except Error Bytes :=
  if offset.toNat + length.toNat ≤ body.length then
    .ok ((body.drop offset.toNat).take length.toNat)
  else .error .section

/-- The declaration whose header is at the front of `rest`, which starts `start` bytes into the type
section; `id` is its type id. -/
def readEntry (rest : Bytes) (start id : Nat) : Except Error Entry := do
  let name ← word rest 0
  let info ← word rest 4
  let code := info.toNat / 0x1000000 % 32
  let count := info.toNat % 0x10000
  match Kind.ofCode? code with
  | none => .error (.unknownKind code id)
  | some kind => .ok ⟨name, kind, info.toNat / 0x80000000 = 1, count, start + entrySize⟩

/-- The declarations in `rest`, which starts `start` bytes into the type section and at type id
`id`. A declaration that reaches beyond the end is refused. -/
def readEntries : (rest : Bytes) → (start id : Nat) → Except Error (List Entry)
  | [], _, _ => .ok []
  | b :: tail, start, id =>
    match readEntry (b :: tail) start id with
    | .error e => .error e
    | .ok e =>
      let size := entrySize + e.kind.payload e.count
      if (b :: tail).length < size then .error .typesTruncated
      else
        match readEntries ((b :: tail).drop size) (start + size) (id + 1) with
        | .error e => .error e
        | .ok es => .ok (e :: es)
termination_by rest => rest.length
decreasing_by
  simp only [List.length_drop, List.length_cons, entrySize]
  omega

/-- Reads a type table. -/
def parse (data : Bytes) : Except Error TypeTable := do
  if data.length < headerSize then throw .headerTruncated
  let first := (data.headD 0).toNat + 0x100 * (data.tail.headD 0).toNat
  if first ≠ magic then throw (.badMagic first)
  let headerLength ← word data 4
  if data.length < headerLength.toNat then throw .headerLength
  let body := data.drop headerLength.toNat
  let types ← sectionAt body (← word data 8) (← word data 12)
  let strings ← sectionAt body (← word data 16) (← word data 20)
  let entries ← readEntries types 0 1
  return ⟨types, strings, entries⟩

end ExecWatch.TypeTable
