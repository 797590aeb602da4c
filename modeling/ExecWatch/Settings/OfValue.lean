import ExecWatch.Number.Integer
import ExecWatch.Settings.Basic
import ExecWatch.Settings.Value
import ExecWatch.Text.Quoted

/-!
# Settings from gathered values

Gathered values are read leniently: where a setting has a scalar type, every scalar that can stand for
one is taken. A table may also be given as the list of its values in their order. Unknown members are
ignored and missing ones have their defaults.
-/

namespace ExecWatch.Settings

/-- A value that cannot be read. A scalar's error says under which key it stands. -/
inductive Mismatch where
  | scalar (found : Value) (expected : String) (key : String)
  | shape (found : Value) (expected : String)
  | length (found : Nat) (expected : String)

namespace Value

def source : Value → Option Source
  | .null s | .bool s _ | .int s _ | .real s _ | .string s _ | .list s _ | .table s _ => s

/-- How messages about shapes name a value. -/
def kindText : Value → String
  | .null _ => "unit value"
  | .bool _ b => "boolean `" ++ toString b ++ "`"
  | .int _ n => "integer `" ++ toString n ++ "`"
  | .real _ x =>
    let digits := x.positional
    let point := match x with
      | .finite .. => !digits.contains '.'
      | _ => false
    "floating point `" ++ String.ofList digits ++ (if point then ".0`" else "`")
  | .string _ s => "string " ++ Text.quoted s
  | .list .. => "sequence"
  | .table .. => "map"

/-- How messages about scalars name a value. -/
def scalarText : Value → String
  | .int _ n => "64-bit integer `" ++ toString n ++ "`"
  | v => v.kindText

end Value

namespace Mismatch

/-- Puts a key in front of the one that an error names. -/
def under (key : String) : Mismatch → Mismatch
  | .scalar found expected inner =>
    let point := !inner.isEmpty && inner.toList.head? ≠ some '['
    .scalar found expected (key ++ (if point then "." else "") ++ inner)
  | e => e

/-- Puts an index in front of the key that an error names. -/
def at' (index : Nat) : Mismatch → Mismatch
  | .scalar found expected inner => .scalar found expected ("[" ++ toString index ++ "]" ++ inner)
  | e => e

def message : Mismatch → String
  | .scalar found expected key =>
    "invalid type: " ++ found.scalarText ++ ", expected " ++ expected ++
      (if key.isEmpty then "" else " for key `" ++ key ++ "`") ++
      (match found.source with
        | some s => " in " ++ s.text
        | none => "")
  | .shape found expected => "invalid type: " ++ found.kindText ++ ", expected " ++ expected
  | .length found expected => "invalid length " ++ toString found ++ ", expected " ++ expected

end Mismatch

namespace Value

/-! ## Scalars -/

/-- A boolean: numbers other than zero are true, and words in any case. The error names a word in lower
case. -/
def toBool : Value → Except Mismatch Bool
  | .bool _ b => .ok b
  | .int _ n => .ok (n ≠ 0)
  | .real _ (.finite _ significand _) => .ok (significand ≠ 0)
  | .real _ _ => .ok true
  | .string source s =>
    let word := Text.lowerCase s
    if word ∈ ["1", "true", "on", "yes"] then .ok true
    else if word ∈ ["0", "false", "off", "no"] then .ok false
    else .error (.scalar (.string source word) "a boolean" "")
  | v => .error (.scalar v "a boolean" "")

/-- A whole number of 64 bits without a sign; other numbers are rounded and clamped. -/
def toSize : Value → Except Mismatch Nat
  | .bool _ b => .ok b.toNat
  | .int source n =>
    if n < 0 then
      .error (.scalar (.int source n) "an unsigned 64 bit or less integer" "")
    else .ok n.toNat
  | .real _ x => .ok (x.toUnsigned 64)
  | .string source s =>
    let word := Text.lowerCase s
    if word ∈ ["true", "on", "yes"] then .ok 1
    else if word ∈ ["false", "off", "no"] then .ok 0
    else
      match Integer.unsigned? 64 s.toList with
      | some n => .ok n
      | none => .error (.scalar (.string source s) "an integer" "")
  | v => .error (.scalar v "an integer" "")

/-- A string: scalars are written out, numbers without an exponent. -/
def toStr : Value → Except Mismatch String
  | .bool _ b => .ok (toString b)
  | .int _ n => .ok (toString n)
  | .real _ x => .ok (String.ofList x.positional)
  | .string _ s => .ok s
  | v => .error (.scalar v "a string" "")

/-- A string, or nothing for null. -/
def toOptionalStr : Value → Except Mismatch (Option String)
  | .null _ => .ok none
  | v => return some (← v.toStr)

/-! ## Tables -/

/-- A setter of one member, under the member's key, and whether a list must hold it. -/
structure Slot (α : Type) where
  key : String
  required : Bool
  set : α → Value → Except Mismatch α

/-- Reads the members of a table into `a`. -/
def setMembers {α : Type} (slots : List (Slot α)) (a : α) : Members → Except Mismatch α
  | [] => .ok a
  | (key, value) :: rest =>
    match slots.find? (·.key = key) with
    | none => setMembers slots a rest
    | some slot => do
      let a ← (slot.set a value).mapError (Mismatch.under key)
      setMembers slots a rest

/-- Reads the items of a list from item `i` on into the slots left; items beyond them are ignored. -/
def setItems {α : Type} (name : String) (count : Nat) :
    (i : Nat) → α → List (Slot α) → List Value → Except Mismatch α
  | _, a, [], _ => .ok a
  | i, a, slot :: slots, value :: rest => do
    let a ← (slot.set a value).mapError (Mismatch.at' i)
    setItems name count (i + 1) a slots rest
  | i, a, slot :: slots, [] =>
    if slot.required then
      .error (.length i ("struct " ++ name ++ " with " ++ toString count ++ " elements"))
    else setItems name count (i + 1) a slots []

/-- Reads a table or list into `start`. -/
def toStructure {α : Type} (name : String) (start : α) (slots : List (Slot α)) :
    Value → Except Mismatch α
  | .table _ members => setMembers slots start members
  | .list _ items => setItems name slots.length 0 start slots items
  | v => .error (.shape v ("struct " ++ name))

/-! ## Settings -/

/-- A rule. -/
def toRule (v : Value) : Except Mismatch Rule :=
  v.toStructure "TripwireRule" ⟨"", "", "", ""⟩
    [ ⟨"name", false, fun r v => return { r with name := ← v.toStr }⟩,
      ⟨"type", false, fun r v => return { r with type := ← v.toStr }⟩,
      ⟨"target", false, fun r v => return { r with target := ← v.toStr }⟩,
      ⟨"severity", false, fun r v => return { r with severity := ← v.toStr }⟩ ]

/-- The rules in a list from item `i` on. -/
def toRulesFrom : (i : Nat) → List Value → Except Mismatch (List Rule)
  | _, [] => .ok []
  | i, v :: rest => do
    let r ← v.toRule.mapError (Mismatch.at' i)
    return r :: (← toRulesFrom (i + 1) rest)

/-- A list of rules. -/
def toRules : Value → Except Mismatch (List Rule)
  | .list _ items => toRulesFrom 0 items
  | v => .error (.shape v "a sequence")

def toToggles (v : Value) : Except Mismatch ProbeToggles :=
  v.toStructure "ProbeToggles" {}
    [ ⟨"execve", false, fun t v => return { t with execve := ← v.toBool }⟩,
      ⟨"execveat", false, fun t v => return { t with execveat := ← v.toBool }⟩ ]

/-- The slots of the settings. -/
def slots : List (Slot Settings) :=
  [ ⟨"log_level", true, fun s v => return { s with logLevel := ← v.toOptionalStr }⟩,
    ⟨"probes", false, fun s v => return { s with probes := ← v.toToggles }⟩,
    ⟨"alert_channel_capacity", false, fun s v => return { s with channelCapacity := ← v.toSize }⟩,
    ⟨"otel_exporter_otlp_endpoint", true, fun s v => return { s with endpoint := ← v.toOptionalStr }⟩,
    ⟨"rules", false, fun s v => return { s with rules := ← v.toRules }⟩ ]

end Value

/-- The settings that gathered members hold; they are not validated. -/
def ofMembers (members : Members) : Except Mismatch Settings :=
  Value.setMembers Value.slots {} members

end ExecWatch.Settings
