import ExecWatch.Command.Job
import ExecWatch.Settings.Environment

/-!
# Embedding the probe

When the agent is compiled its probe is built first, for the byte order of the agent's architecture, and
put where the compiler embeds it. A probe that cannot be built is replaced by an empty file, with which
the agent compiles but refuses to start.
-/

namespace ExecWatch.Embed

open Files

/-- Why the agent cannot be compiled. -/
inductive Error where
  | noArchitecture
  /-- The build succeeded, but its result cannot be copied. -/
  | notCopied (cause : Files.Error)
  | notWritten (cause : Files.Error)
deriving Repr, DecidableEq

/-- Architectures whose probes are of little-endian byte order. -/
def littleEndian : List String := ["x86_64", "x86", "aarch64", "arm", "riscv64"]

/-- Architectures whose probes are of big-endian byte order. -/
def bigEndian : List String := ["mips", "mips64", "powerpc", "powerpc64", "s390x"]

/-- The target of a probe for agents of an architecture, little-endian where the architecture is not
known. -/
def probeTarget (architecture : String) : String :=
  if architecture ∈ bigEndian then "bpfeb-unknown-none" else "bpfel-unknown-none"

def isKnown (architecture : String) : Bool :=
  architecture ∈ littleEndian || architecture ∈ bigEndian

/-- Where the build happens: the working directory and the directory for its results. -/
structure Site where
  directory : Place
  output : String
deriving Repr, DecidableEq

namespace Site

/-- The file that is embedded. -/
def object (s : Site) : String := join s.output "tripwire"

end Site

/-- What the compiler must watch to know when to build again. -/
def watched : List String :=
  [ "cargo:rerun-if-changed=../tripwire-ebpf/src",
    "cargo:rerun-if-changed=../tripwire-ebpf/build.rs",
    "cargo:rerun-if-changed=../tripwire-common/src",
    "cargo:rerun-if-env-changed=TRIPWIRE_SKIP_EBPF" ]

/-- The variable that asks for no probe. -/
def skipVariable : String := "TRIPWIRE_SKIP_EBPF"

/-- Where the probe's sources are, from the working directory. -/
def probeDirectory : String := "../tripwire-ebpf"

/-- The directory for everything that the probe's build makes. It is not the agent's, whose builds would
wait for it. -/
def buildDirectory (s : Site) (environment : Environment) : String :=
  match environment.lookup "HOME" with
  | some home => join home "cargo-target-ebpf"
  | none => join s.output "ebpf-target"

/-- The command that builds the probe. -/
def buildCommand (s : Site) (environment : Environment) (target : String) : Command where
  program := (environment.lookup "CARGO").getD "cargo"
  directory := probeDirectory
  arguments := ["build", "--release", "--target=" ++ target, "-Z", "build-std=core"]
  environment := [("RUSTUP_TOOLCHAIN", "nightly"),
    ("CARGO_TARGET_DIR", buildDirectory s environment)]

/-- Puts an empty file in the probe's place. -/
def writeEmpty (s : Site) (reason : String) : Work Error Unit := do
  Work.say ("cargo:warning=eBPF object not built (" ++ reason ++
    "); the tripwire binary will refuse to start")
  Work.files (·.writeFile s.directory s.object "") .notWritten

/-- Builds the probe for agents of an architecture and puts it in its place. -/
def buildProbe (shell : Command.Shell) (s : Site) (environment : Environment) (architecture : String) :
    Work Error Unit := do
  let target := probeTarget architecture
  if !isKnown architecture then
    Work.warn ("Warning: Unknown architecture '" ++ architecture ++ "', defaulting to " ++ target)
  Work.say ("cargo:warning=Building eBPF for target: " ++ target ++ " (host arch: " ++ architecture ++
    ")")
  match ← Work.execute shell (buildCommand s environment target) with
  | .error e => writeEmpty s ("failed to run cargo: " ++ e.message)
  | .ok exit =>
    if exit.isSuccess then
      let built := join (buildDirectory s environment) (target ++ "/release/tripwire")
      Work.files (·.copyFile s.directory built s.object) .notCopied
      Work.say ("cargo:warning=eBPF object embedded from " ++ built)
    else writeEmpty s ("eBPF build exited with " ++ exit.describe)

/-- Puts a probe, or an empty file, where the compiler embeds it. -/
def run (shell : Command.Shell) (s : Site) (environment : Environment) : Work Error Unit := do
  watched.forM Work.say
  if (environment.lookup skipVariable).isSome then writeEmpty s (skipVariable ++ " is set")
  else
    match environment.lookup "CARGO_CFG_TARGET_ARCH" with
    | none => throw .noArchitecture
    | some architecture => buildProbe shell s environment architecture

end ExecWatch.Embed
