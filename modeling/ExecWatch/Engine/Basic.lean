import ExecWatch.Engine.Host
import ExecWatch.Log.Basic
import ExecWatch.Rule.Matcher

/-!
# What the engine does

The engine's steps write log lines, load and attach programs, and write alerts. They stop at the first
error, with everything done before it in place.
-/

namespace ExecWatch.Engine

/-- Why the engine stops. -/
inductive Error where
  /-- No probe is embedded. -/
  | noObject
  | unknownKernel
  | unsupportedKernel (version : KernelVersion)
  /-- The kernel's type table has offsets that add up to more than a word holds. -/
  | offsetOverflow
  /-- The object cannot be loaded. -/
  | objectRefused
  | rule (e : ProcessRule.Error)
  /-- There is no alert channel of this capacity. -/
  | channelCapacity (capacity : Nat)
  | noProgram (program : String)
  /-- A program has the wrong type or cannot be loaded. -/
  | programRefused (program : String)
  | notAttached (tracepoint : String)
  | nothingAttached
  | noMap (map : String)
  /-- A map has the wrong type. -/
  | mapRefused (map : String)
deriving Repr, DecidableEq

/-- The messages that the engine has for an error, the outermost first. -/
def Error.messages : Error → List String
  | .noObject => ["no eBPF object embedded in this binary; rebuild with the nightly toolchain and " ++
      "bpf-linker available"]
  | .unknownKernel => ["Failed to determine kernel version: failed to parse kernel version"]
  | .unsupportedKernel version => ["kernel " ++ version.describe ++
      " is not supported: exec tracing needs BPF ring buffers (>= " ++
      KernelVersion.minimum.describe ++ ")"]
  | .offsetOverflow => []
  | .objectRefused => ["Failed to load eBPF object"]
  | .rule e => [e.message, e.cause.message]
  | .channelCapacity _ => []
  | .noProgram program => ["Failed to find " ++ program ++ " program"]
  | .programRefused _ => []
  | .notAttached tracepoint => ["Failed to attach " ++ tracepoint]
  | .nothingAttached =>
    ["No exec tracepoint could be attached (check probes.execve / probes.execveat)"]
  | .noMap map => ["Failed to find " ++ map ++ " map"]
  | .mapRefused _ => []

/-- Everything that was done so far, in order. -/
structure Activity where
  logs : List LogLine := []
  /-- Programs loaded into the kernel. -/
  loaded : List String := []
  /-- Programs attached, each with the id of its tracepoint. -/
  attached : List (String × Nat) := []
  /-- Lines written to the output, without the breaks that end them. -/
  written : List (List Char) := []
deriving Repr, DecidableEq

/-- A step of the engine. -/
abbrev Action := ExceptT Error (StateM Activity)

def log (line : LogLine) : Action Unit :=
  modify fun a => { a with logs := a.logs ++ [line] }

def logAll (lines : List LogLine) : Action Unit :=
  modify fun a => { a with logs := a.logs ++ lines }

/-- What a run did, and how it ended. -/
def Action.outcome {α : Type} (action : Action α) (before : Activity := {}) :
    Except Error α × Activity :=
  action.run.run before

namespace Action

variable {α β : Type}

theorem outcome_pure (a : α) (before : Activity) :
    outcome (pure a : Action α) before = (.ok a, before) := rfl

theorem outcome_modify (f : Activity → Activity) (before : Activity) :
    outcome (modify f : Action Unit) before = (.ok (), f before) := rfl

/-- The second of two actions goes on from what the first did, unless that failed. -/
theorem outcome_bind (action : Action α) (next : α → Action β) (before : Activity) :
    outcome (action >>= next) before =
      match outcome action before with
      | (.ok a, later) => outcome (next a) later
      | (.error e, later) => (.error e, later) := by
  unfold outcome
  rw [ExceptT.run_bind, StateT.run_bind]
  rcases action.run.run before with ⟨e | a, later⟩
  · rfl
  · rfl

end Action

/-- A kernel must be new enough. -/
def checkKernel (version : KernelVersion) : Except Error Unit :=
  if version.isSupported then .ok () else .error (.unsupportedKernel version)

end ExecWatch.Engine
