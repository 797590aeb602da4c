import ExecWatch.Text.Bytes

/-!
# Type tables

A running kernel describes its own types in a binary table: a header, a section of type
declarations and a section of NUL-terminated names. Each declaration is a 12-byte header, whose
second word packs kind, flag and count, and a payload whose size its kind and count fix. Type ids
count declarations from 1; 0 is `void`.
-/

namespace ExecWatch.TypeTable

/-- The kinds of declarations. -/
inductive Kind where
  | int | ptr | array | struct | union | enum | fwd | typedef | volatile | const | restrict | func
  | funcProto | var | datasec | float | declTag | typeTag | enum64
deriving Repr, DecidableEq

namespace Kind

/-- All kinds in the order of their codes, which start at 1. -/
def all : List Kind :=
  [.int, .ptr, .array, .struct, .union, .enum, .fwd, .typedef, .volatile, .const, .restrict, .func,
    .funcProto, .var, .datasec, .float, .declTag, .typeTag, .enum64]

/-- The kind with the given code. -/
def ofCode? : Nat → Option Kind
  | 0 => none
  | code + 1 => all[code]?

/-- Bytes of the payload of a declaration with count `count`. -/
def payload (count : Nat) : Kind → Nat
  | .int | .var | .declTag => 4
  | .ptr | .fwd | .typedef | .volatile | .const | .restrict | .func | .float | .typeTag => 0
  | .array => 12
  | .struct | .union => count * 12
  | .enum | .funcProto => count * 8
  | .datasec | .enum64 => count * 12

/-- The kind has members. -/
def isRecord : Kind → Bool
  | .struct | .union => true
  | _ => false

end Kind

/-- One declaration: where its name starts, its kind, flag and count, and where its payload starts in
the type section. -/
structure Entry where
  name : UInt32
  kind : Kind
  flag : Bool
  count : Nat
  payload : Nat
deriving Repr, DecidableEq

/-- One member of a struct or union: where its name starts (0: it has none), its type's id, and its
offset. With the record's flag set the offset's upper byte is a bit field's width. -/
structure Member where
  name : UInt32
  type : UInt32
  offset : UInt32
deriving Repr, DecidableEq

/-- Bytes of a member. -/
def Member.size : Nat := 12

/-- Why a table cannot be read, or does not hold what is asked. -/
inductive Error where
  | headerTruncated
  | badMagic (magic : Nat)
  | headerLength
  | section
  | truncated
  | unknownKind (code id : Nat)
  | typesTruncated
  | nameOffset
  | unterminatedName
  | nameEncoding
  | noStruct (name : String)
  | noMember (struct field : String)
  | bitField (struct field : String)
deriving Repr, DecidableEq

/-- A number in hexadecimal, at least four digits, after `0x`. -/
def hex4 (n : Nat) : String :=
  let digits := Nat.toDigits 16 n
  String.ofList ('0' :: 'x' :: List.replicate (4 - digits.length) '0' ++ digits)

def Error.message : Error → String
  | .headerTruncated => "BTF header truncated"
  | .badMagic magic => "bad BTF magic " ++ hex4 magic ++ " (not BTF, or foreign byte order)"
  | .headerLength => "BTF header length out of bounds"
  | .section => "BTF section out of bounds"
  | .truncated => "BTF truncated"
  | .unknownKind code id => "unknown BTF kind " ++ toString code ++ " at type " ++ toString id
  | .typesTruncated => "BTF type section truncated"
  | .nameOffset => "BTF name offset out of bounds"
  | .unterminatedName => "unterminated BTF name"
  | .nameEncoding => "BTF name is not UTF-8"
  | .noStruct name => "struct " ++ name ++ " not found in BTF"
  | .noMember struct field => "struct " ++ struct ++ " has no member " ++ field
  | .bitField struct field => struct ++ "." ++ field ++ " is a bitfield"

/-- How a search in a table ends without an answer. -/
inductive Failure (ε : Type) where
  /-- With an error, which the caller gets. -/
  | reported (e : ε)
  /-- Two offsets add up to more than a word holds. The program panics: nobody gets an error. -/
  | overflow
deriving Repr, DecidableEq

/-- Changes the error that is reported, if one is. -/
def Failure.map {ε ε' : Type} (f : ε → ε') : Failure ε → Failure ε'
  | .reported e => .reported (f e)
  | .overflow => .overflow

end TypeTable

/-- The sections of a type table and the declarations in its type section, in order. -/
structure TypeTable where
  types : Bytes
  strings : Bytes
  entries : List TypeTable.Entry

end ExecWatch
