import ExecWatch.Json.Writer
import ExecWatch.Settings.Basic
import ExecWatch.Text.Quoted

/-!
# Settings from JSON

Settings written as JSON are read strictly: every value must have the type of its setting. The
members of an object are visited in the order of their keys and unknown ones are ignored; a missing
setting has its default. An object may also be given as the array of its values in their order.
-/

namespace ExecWatch

/-- A value that does not have the shape that is asked for. -/
inductive Json.Mismatch where
  | type (found : Json) (expected : String)
  | value (found : Int) (expected : String)
  | length (found : Nat) (expected : String)

namespace Json

/-- How messages name a value. -/
def kindText : Json → String
  | .null => "null"
  | .bool b => "boolean `" ++ toString b ++ "`"
  | .int n => "integer `" ++ toString n ++ "`"
  | .real x => "floating point `" ++ String.ofList x.compact ++ "`"
  | .string s => "string " ++ Text.quoted s
  | .array _ => "sequence"
  | .object _ => "map"

def Mismatch.message : Mismatch → String
  | .type found expected => "invalid type: " ++ found.kindText ++ ", expected " ++ expected
  | .value found expected =>
    "invalid value: " ++ (Json.int found).kindText ++ ", expected " ++ expected
  | .length found expected => "invalid length " ++ toString found ++ ", expected " ++ expected

def toBool : Json → Except Mismatch Bool
  | .bool b => .ok b
  | j => .error (.type j "a boolean")

def toStr : Json → Except Mismatch String
  | .string s => .ok s
  | j => .error (.type j "a string")

/-- A string, or nothing for null. -/
def toOptionalStr : Json → Except Mismatch (Option String)
  | .null => .ok none
  | j => return some (← j.toStr)

/-- A whole number of 64 bits without a sign. -/
def toSize : Json → Except Mismatch Nat
  | .int n => if n < 0 then .error (.value n "usize") else .ok n.toNat
  | j => .error (.type j "usize")

/-- How a value in an array is put in its place, and whether the place may not stay empty. -/
structure Place (α : Type) where
  required : Bool
  set : α → Json → Except Mismatch α

/-- Puts the items from item `i` on in the places left. An optional place without an item is left as
it is; an item without a place is refused. -/
def setItems {α : Type} (name : String) (count length : Nat) :
    (i : Nat) → α → List (Place α) → List Json → Except Mismatch α
  | _, a, [], [] => .ok a
  | _, _, [], _ :: _ => .error (.length length "fewer elements in array")
  | i, a, place :: places, item :: rest => do
    setItems name count length (i + 1) (← place.set a item) places rest
  | i, a, place :: places, [] =>
    if place.required then
      .error (.length i ("struct " ++ name ++ " with " ++ toString count ++ " elements"))
    else setItems name count length (i + 1) a places []

/-- Reads the members of an object into `start` in the order of their keys. -/
def setMembers {α : Type} (start : α) (set : α → String → Json → Except Mismatch α)
    (members : List (String × Json)) : Except Mismatch α :=
  (members.mergeSort (fun a b => a.1 ≤ b.1)).foldlM (fun a m => set a m.1 m.2) start

/-- Reads an object or array into `start`. -/
def toStructure {α : Type} (name : String) (start : α)
    (places : List (Place α)) (set : α → String → Json → Except Mismatch α) :
    Json → Except Mismatch α
  | .object members => setMembers start set members
  | .array items => setItems name places.length items.length 0 start places items
  | j => .error (.type j ("struct " ++ name))

end Json

namespace Rule

def setName (r : Rule) (j : Json) : Except Json.Mismatch Rule :=
  return { r with name := ← j.toStr }

def setType (r : Rule) (j : Json) : Except Json.Mismatch Rule :=
  return { r with type := ← j.toStr }

def setTarget (r : Rule) (j : Json) : Except Json.Mismatch Rule :=
  return { r with target := ← j.toStr }

def setSeverity (r : Rule) (j : Json) : Except Json.Mismatch Rule :=
  return { r with severity := ← j.toStr }

def setMember (r : Rule) (key : String) (j : Json) : Except Json.Mismatch Rule :=
  match key with
  | "name" => r.setName j
  | "type" => r.setType j
  | "target" => r.setTarget j
  | "severity" => r.setSeverity j
  | _ => .ok r

def ofJson (j : Json) : Except Json.Mismatch Rule :=
  j.toStructure "TripwireRule" ⟨"", "", "", ""⟩
    [⟨false, setName⟩, ⟨false, setType⟩, ⟨false, setTarget⟩, ⟨false, setSeverity⟩] setMember

end Rule

namespace ProbeToggles

def setExecve (t : ProbeToggles) (j : Json) : Except Json.Mismatch ProbeToggles :=
  return { t with execve := ← j.toBool }

def setExecveat (t : ProbeToggles) (j : Json) : Except Json.Mismatch ProbeToggles :=
  return { t with execveat := ← j.toBool }

def setMember (t : ProbeToggles) (key : String) (j : Json) :
    Except Json.Mismatch ProbeToggles :=
  match key with
  | "execve" => t.setExecve j
  | "execveat" => t.setExecveat j
  | _ => .ok t

def ofJson (j : Json) : Except Json.Mismatch ProbeToggles :=
  j.toStructure "ProbeToggles" {} [⟨false, setExecve⟩, ⟨false, setExecveat⟩] setMember

end ProbeToggles

namespace Settings

def setLogLevel (s : Settings) (j : Json) : Except Json.Mismatch Settings :=
  return { s with logLevel := ← j.toOptionalStr }

def setProbes (s : Settings) (j : Json) : Except Json.Mismatch Settings :=
  return { s with probes := ← ProbeToggles.ofJson j }

def setChannelCapacity (s : Settings) (j : Json) : Except Json.Mismatch Settings :=
  return { s with channelCapacity := ← j.toSize }

def setEndpoint (s : Settings) (j : Json) : Except Json.Mismatch Settings :=
  return { s with endpoint := ← j.toOptionalStr }

def setRules (s : Settings) : Json → Except Json.Mismatch Settings
  | .array items => return { s with rules := ← items.mapM Rule.ofJson }
  | j => .error (.type j "a sequence")

def setMember (s : Settings) (key : String) (j : Json) : Except Json.Mismatch Settings :=
  match key with
  | "log_level" => s.setLogLevel j
  | "probes" => s.setProbes j
  | "alert_channel_capacity" => s.setChannelCapacity j
  | "otel_exporter_otlp_endpoint" => s.setEndpoint j
  | "rules" => s.setRules j
  | _ => .ok s

/-- The settings that a JSON value holds; they are not validated. -/
def ofJson (j : Json) : Except Json.Mismatch Settings :=
  j.toStructure "Settings" {}
    [⟨true, setLogLevel⟩, ⟨false, setProbes⟩, ⟨false, setChannelCapacity⟩, ⟨true, setEndpoint⟩,
      ⟨false, setRules⟩] setMember

end Settings

end ExecWatch
