import ExecWatch.Text.Utf8
import ExecWatch.TypeTable.Reader

/-!
# Declarations and their bytes

A type table said without offsets: a list of declarations, each with its name, its flag, and either
members or a payload of another kind (`Decl`); the types hold only what a table can express. `encode`
lays such a list out: the header, the declarations one behind the other, and a name section that
begins with a NUL and holds the names in the order in which the declarations mention them.
-/

namespace ExecWatch.TypeTable

/-- The code of a kind. -/
def Kind.code (k : Kind) : Nat := Kind.all.idxOf k + 1

/-- A name, which holds no NUL; the empty one stands for no name. -/
structure Name where
  text : String
  plain : '\x00' ∉ text.toList
deriving DecidableEq

namespace Name

/-- The name that a text gives, which ends before its first NUL. -/
def ofText (text : String) : Name where
  text := String.ofList (text.toList.takeWhile (· ≠ '\x00'))
  plain h := by
    rw [String.toList_ofList] at h
    simpa using List.all_eq_true.1 List.all_takeWhile _ h

def IsNone (n : Name) : Prop := n.text = ""

instance (n : Name) : Decidable n.IsNone := inferInstanceAs (Decidable (n.text = ""))

/-- What a name takes in the name section. -/
def bytes (n : Name) : Bytes :=
  if n.IsNone then [] else Utf8.encode n.text.toList ++ [0]

/-- How a name is referred to that is laid at `next`. -/
def ref (next : Nat) (n : Name) : UInt32 :=
  if n.IsNone then 0 else UInt32.ofNat next

end Name

/-- A member of a record. -/
structure MemberDecl where
  name : Name
  type : UInt32
  offset : UInt32
deriving DecidableEq

/-- What stands behind a declaration's header. -/
inductive Body where
  | record (kind : Kind) (isRecord : kind.isRecord = true) (members : List MemberDecl)
      (fits : members.length < 0x10000)
  | other (kind : Kind) (notRecord : kind.isRecord = false) (count : Nat) (fits : count < 0x10000)
      (payload : Bytes) (length_eq : payload.length = kind.payload count)

/-- A declaration; `word` is its size or the id of the type it refers to. -/
structure Decl where
  name : Name
  flag : Bool
  word : UInt32
  body : Body

theorem Kind.isRecord_struct : Kind.struct.isRecord = true := rfl

namespace Decl

/-- A struct of `size` bytes. -/
def struct (name : Name) (size : UInt32) (members : List MemberDecl)
    (fits : members.length < 0x10000) : Decl :=
  ⟨name, false, size, .record .struct Kind.isRecord_struct members fits⟩

variable (d : Decl)

def kind : Kind :=
  match d.body with
  | .record kind .. | .other kind .. => kind

def members : List MemberDecl :=
  match d.body with
  | .record _ _ members _ => members
  | .other .. => []

def count : Nat :=
  match d.body with
  | .record _ _ members _ => members.length
  | .other _ _ count .. => count

/-- The payload of a declaration that is no record. -/
def raw? : Option Bytes :=
  match d.body with
  | .record .. => none
  | .other _ _ _ _ payload _ => some payload

/-- The second word of the header. -/
def info : UInt32 :=
  UInt32.ofNat (0x80000000 * d.flag.toNat + 0x1000000 * d.kind.code + d.count)

/-- The names that the declaration mentions, as they are laid. -/
def strings : Bytes :=
  d.name.bytes ++ d.members.flatMap (·.name.bytes)

end Decl

/-! ## Layout -/

/-- Members whose names are laid from `next` on. -/
def memberBytes : (next : Nat) → List MemberDecl → Bytes
  | _, [] => []
  | next, m :: later =>
    Bytes.ofWord32 (m.name.ref next) ++ (Bytes.ofWord32 m.type ++ (Bytes.ofWord32 m.offset ++
      memberBytes (next + m.name.bytes.length) later))

/-- A declaration's payload, its members' names being laid from `next` on. -/
def Decl.payload (next : Nat) (d : Decl) : Bytes :=
  d.raw?.getD (memberBytes next d.members)

/-- A declaration whose names are laid from `next` on. -/
def Decl.bytes (next : Nat) (d : Decl) : Bytes :=
  Bytes.ofWord32 (d.name.ref next) ++ (Bytes.ofWord32 d.info ++ (Bytes.ofWord32 d.word ++
    d.payload (next + d.name.bytes.length)))

def typeBytes : (next : Nat) → List Decl → Bytes
  | _, [] => []
  | next, d :: later => d.bytes next ++ typeBytes (next + d.strings.length) later

/-- The type section of a table. -/
def typeSection (ds : List Decl) : Bytes := typeBytes 1 ds

/-- The name section of a table. -/
def nameSection (ds : List Decl) : Bytes := 0 :: ds.flatMap Decl.strings

/-- The bytes of a table. -/
def encode (ds : List Decl) : Bytes :=
  [0x9F, 0xEB, 1, 0] ++ (Bytes.ofWord32 (UInt32.ofNat headerSize) ++ (Bytes.ofWord32 0 ++
    (Bytes.ofWord32 (UInt32.ofNat (typeSection ds).length) ++
    (Bytes.ofWord32 (UInt32.ofNat (typeSection ds).length) ++
    (Bytes.ofWord32 (UInt32.ofNat (nameSection ds).length) ++ (typeSection ds ++ nameSection ds))))))

/-- The sizes of the sections are words. -/
structure Fits (ds : List Decl) : Prop where
  types : (typeSection ds).length < 0x100000000
  names : (nameSection ds).length < 0x100000000

end ExecWatch.TypeTable
