import ExecWatch.Capture.Parent
import ExecWatch.Text.Utf8
import ExecWatch.TypeTable.Reader

/-!
# Member offsets

Where a field lies in a struct. Members without a name whose type is directly a struct or union
lend their own members to the record that holds them; such members are followed through at most
`maxNesting` levels, the first hit in declaration order wins. Offsets are added as words; a sum that
passes a word ends the program.
-/

namespace ExecWatch.TypeTable

/-- Levels of nameless members that are followed. -/
def maxNesting : Nat := 8

variable (table : TypeTable)

/-- The name that starts at `offset` of the string section. -/
def nameAt (offset : UInt32) : Except Error String :=
  if table.strings.length < offset.toNat then .error .nameOffset
  else
    let tail := table.strings.drop offset.toNat
    if (0 : UInt8) ∈ tail then
      match Utf8.decode? (Bytes.cText tail) with
      | some name => .ok (String.ofList name)
      | none => .error .nameEncoding
    else .error .unterminatedName

/-- The declaration with type id `id`. -/
def entry? (id : UInt32) : Option Entry :=
  if id = 0 then none else table.entries[id.toNat - 1]?

/-- The first struct of the given name that has members. -/
def findStruct (name : String) : List Entry → Except Error Entry
  | [] => .error (.noStruct name)
  | e :: rest =>
    if e.kind = .struct ∧ 0 < e.count then do
      if (← table.nameAt e.name) = name then return e
      findStruct name rest
    else findStruct name rest

/-- Member `i` of a record. -/
def memberAt (e : Entry) (i : Nat) : Except Error Member := do
  let start := e.payload + i * Member.size
  return ⟨← word table.types start, ← word table.types (start + 4),
    ← word table.types (start + 8)⟩

/-- A member's offset in bits within its record. -/
def Member.bits (m : Member) (flag : Bool) : UInt32 :=
  if flag then m.offset &&& 0x00ffffff else m.offset

/-- The sum of two numbers of bits, which a word has to hold. -/
def addBits (a b : UInt32) : Except (Failure Error) UInt32 :=
  if a.toNat + b.toNat < 0x100000000 then .ok (a + b) else .error .overflow

/-- Looks for `field` among the `left` members of `e` from member `i` on. `inner` looks in the record
of a nameless member. -/
def searchMembers (inner : Entry → Except (Failure Error) (Option UInt32)) (e : Entry)
    (field : String) : (left i : Nat) → Except (Failure Error) (Option UInt32)
  | 0, _ => .ok none
  | left + 1, i => do
    let m ← (table.memberAt e i).mapError .reported
    if m.name = 0 then
      match table.entry? m.type with
      | some record =>
        if record.kind.isRecord then
          match ← inner record with
          | some nested => return some (← addBits (m.bits e.flag) nested)
          | none => searchMembers inner e field left (i + 1)
        else searchMembers inner e field left (i + 1)
      | none => searchMembers inner e field left (i + 1)
    else if (← (table.nameAt m.name).mapError .reported) = field then return some (m.bits e.flag)
    else searchMembers inner e field left (i + 1)

/-- Bit offset of `field` in the record `e`, following nameless members through `levels` levels. -/
def memberBits (field : String) : (levels : Nat) → Entry → Except (Failure Error) (Option UInt32)
  | 0, e => table.searchMembers (fun _ => .ok none) e field e.count 0
  | levels + 1, e => table.searchMembers (memberBits field levels) e field e.count 0

/-- Byte offset of `field` in the struct `struct`. -/
def memberOffset (struct field : String) : Except (Failure Error) UInt32 := do
  let e ← (table.findStruct struct table.entries).mapError .reported
  match ← table.memberBits field maxNesting e with
  | none => throw (.reported (.noMember struct field))
  | some bits =>
    if bits % 8 ≠ 0 then throw (.reported (.bitField struct field))
    return bits / 8

/-- The offsets behind a parent's process id. -/
def taskOffsets : Except (Failure Error) TaskOffsets := do
  return ⟨← table.memberOffset "task_struct" "real_parent",
    ← table.memberOffset "task_struct" "tgid"⟩

end TypeTable

/-- The offsets behind a parent's process id in the table whose bytes are given. -/
def taskOffsetsOf (data : Bytes) : Except (TypeTable.Failure TypeTable.Error) TaskOffsets := do
  (← (TypeTable.parse data).mapError .reported).taskOffsets

end ExecWatch
