import ExecWatch.Settings.Environment
import ExecWatch.Text.Pieces

/-!
# Flags on command lines

A flag is given by its long name after `--`, or by its letter after `-`, where several letters may
stand together. The value of a flag follows it, behind a `=`, at once behind the letter, or as the next
argument. A flag may be given once, and there are no arguments but flags.
-/

namespace ExecWatch.CommandLine

/-- What a flag does. -/
inductive FlagKind where
  | switch
  /-- Asks for the program's version. -/
  | version
  | value (mayBeEmpty : Bool)
deriving Repr, DecidableEq

structure Flag where
  long : String
  short : Option Char := none
  kind : FlagKind
  /-- The variable that stands in for a value that is not given. -/
  standIn : Option String := none
deriving Repr, DecidableEq

/-- Why a command line is not run. -/
inductive Refusal where
  | unknownArgument
  | invalidValue
  /-- A flag is given twice. -/
  | givenTwice
  /-- A flag without a value is given one. -/
  | surplusValue
  | unknownCommand
  | noCommand
  /-- The version is asked for instead. -/
  | versionAsked
deriving Repr, DecidableEq

/-- What was read of a command line: the flags given, with their values, and the flag that was read last,
if it is not among them yet. -/
structure Reading where
  given : List (String × Option String) := []
  /-- The flag read last and its value; a missing value must come next. -/
  last : Option (Flag × Option String) := none
deriving Repr, DecidableEq

namespace Reading

/-- Adds a flag to those given. -/
def record (r : Reading) (f : Flag) (value : Option String) : Except Refusal Reading :=
  let isGiven := (r.given.lookup f.long).isSome
  match f.kind, value with
  | .version, _ => .error .versionAsked
  | .switch, _ => if isGiven then .error .givenTwice else .ok ⟨(f.long, none) :: r.given, none⟩
  | .value _, none => .error .invalidValue
  | .value mayBeEmpty, some v =>
    if isGiven then .error .givenTwice
    else if v.isEmpty && !mayBeEmpty then .error .invalidValue
    else .ok ⟨(f.long, some v) :: r.given, none⟩

/-- Settles the flag read last. -/
def settle (r : Reading) : Except Refusal Reading :=
  match r.last with
  | none => .ok r
  | some (f, value) => r.record f value

/-- Reads a flag that stands with all it has. -/
def add (r : Reading) (f : Flag) (value : Option String) : Except Refusal Reading := do
  (← r.settle).record f value

/-- Reads a flag that takes a value, which may be attached to it. -/
def addValued (r : Reading) (f : Flag) (attached : Option String) : Except Refusal Reading := do
  match attached with
  | some value => r.add f (some value)
  | none => return { ← r.settle with last := some (f, none) }

variable (flags : List Flag)

/-- Reads the text behind `--`. -/
def long (r : Reading) (text : List Char) : Except Refusal Reading :=
  let name := String.ofList (text.takeWhile (· ≠ '='))
  let attached :=
    match text.dropWhile (· ≠ '=') with
    | _ :: value => some (String.ofList value)
    | [] => none
  match flags.find? (·.long = name) with
  | none => .error .unknownArgument
  | some f =>
    match f.kind, attached with
    | .value _, _ => r.addValued f attached
    | _, some _ => .error .surplusValue
    | _, none => r.add f none

/-- Reads the letters behind `-`. -/
def letters (r : Reading) : List Char → Except Refusal Reading
  | [] => .ok r
  | c :: rest =>
    match flags.find? (·.short = some c) with
    | none => .error .unknownArgument
    | some f =>
      match f.kind with
      | .value _ =>
        r.addValued f (match rest with
          | [] => none
          | '=' :: value => some (String.ofList value)
          | value => some (String.ofList value))
      | _ => do letters (← r.add f none) rest

/-- Reads all arguments. -/
def arguments (r : Reading) : List String → Except Refusal Reading
  | [] => r.settle
  | arg :: rest =>
    match arg.toList with
    | ['-', '-'] => if rest.isEmpty then r.settle else .error .unknownArgument
    | '-' :: '-' :: text => do arguments (← r.long flags text) rest
    | '-' :: c :: letters => do arguments (← r.letters flags (c :: letters)) rest
    | _ =>
      match r.last with
      | some (f, none) => arguments { r with last := some (f, some arg) } rest
      | _ => .error .unknownArgument

/-- Takes the values of flags that are not given from their variables. -/
def addVariables (r : Reading) (environment : Environment) : List Flag → Except Refusal Reading
  | [] => .ok r
  | f :: rest =>
    match r.given.lookup f.long, f.standIn.bind (fun name => environment.lookup name) with
    | none, some value => do addVariables (← r.record f (some value)) environment rest
    | _, _ => addVariables r environment rest

/-- The switch is given. -/
def hasSwitch (r : Reading) (name : String) : Bool := (r.given.lookup name).isSome

/-- The value of a flag, if it is given. -/
def value? (r : Reading) (name : String) : Option String := (r.given.lookup name).join

end Reading

/-- Reads arguments and what the environment stands in for. -/
def read (flags : List Flag) (environment : Environment) (args : List String) :
    Except Refusal Reading := do
  (← Reading.arguments flags {} args).addVariables environment flags

end ExecWatch.CommandLine
