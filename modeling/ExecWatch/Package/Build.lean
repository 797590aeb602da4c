import ExecWatch.Command.Job
import ExecWatch.CommandLine.Packager
import ExecWatch.Package.Layout

/-!
# Building and packaging

A package is a tarball of the agent, an example configuration, install scripts and a service unit. They
are gathered in a directory of their own, which is taken away once the tarball is there.
-/

namespace ExecWatch.Package

open Files

/-- Why nothing is built or packaged. -/
inductive Error where
  | builderNotRun (cause : Files.Error)
  | buildFailed
  | noBinary (path : String)
  | noOutputDirectory (cause : Files.Error)
  | file (cause : Files.Error)
  | noExample (cause : Files.Error)
  | archiverNotRun (cause : Files.Error)
  | archiveFailed
deriving Repr, DecidableEq

/-- The messages of an error, the outermost first. -/
def Error.messages : Error → List String
  | .builderNotRun cause => ["Failed to run cargo build", cause.message]
  | .buildFailed => ["Build failed"]
  | .noBinary path => ["Binary not found at: " ++ path]
  | .noOutputDirectory cause => ["Failed to create output directory", cause.message]
  | .file cause => [cause.message]
  | .noExample cause => ["Failed to copy " ++ exampleConfig, cause.message]
  | .archiverNotRun cause => ["Failed to create tarball", cause.message]
  | .archiveFailed => ["Failed to create tarball"]

variable (shell : Command.Shell) (root : String)

/-- The command that builds the agent. -/
def buildCommand (release : Bool) (target : Option String) : Command where
  program := "cargo"
  directory := root
  arguments := ["build"] ++ (if release then ["--release"] else []) ++
    (match target with
      | some t => ["--target", t]
      | none => []) ++ ["-p", program]

/-- Builds the agent; the path is where it is put. -/
def build (release : Bool) (target : Option String) : Work Error String := do
  Work.say ("Building " ++ program ++ "...")
  if let some t := target then Work.say ("   Target: " ++ t)
  match ← Work.execute shell (buildCommand root release target) with
  | .error e => throw (.builderNotRun e)
  | .ok exit =>
    if !exit.isSuccess then throw .buildFailed
    let binary := binaryPath root release target
    Work.say ("Build complete: " ++ binary)
    return binary

/-- Gathers what belongs into a package. -/
def gather (binary directory : String) : Work Error Unit := do
  let inside (name : String) := join directory name
  Work.files (·.copyFile [] binary (inside program)) .file
  Work.files (·.copyFile [] (join root exampleConfig) (inside (program ++ ".yaml.example"))) .noExample
  Work.files (·.writeFile [] (inside "install.sh") installScript) .file
  Work.files (·.writeFile [] (inside "install-service.sh") serviceScript) .file
  Work.files (·.writeFile [] (inside (program ++ ".service")) (serviceUnit configPath)) .file

/-- The command that makes the tarball of a package. -/
def archiveCommand (output tarball name : String) : Command where
  program := "tar"
  directory := output
  arguments := ["-czf", tarball, name]

/-- Builds the agent and packages it; `architecture` is that of the host. -/
def package (architecture : String) (target : Option String) (output : String) : Work Error Unit := do
  let binary ← build shell root true target
  if !(← get).tree.isThere [] binary then throw (.noBinary binary)
  let output := join root output
  Work.files (·.makePath [] output) .noOutputDirectory
  let name := packageName (target.getD architecture)
  let directory := join output name
  Work.files (·.makePath [] directory) .file
  gather root binary directory
  let tarball := join output (name ++ ".tar.gz")
  match ← Work.execute shell (archiveCommand output tarball name) with
  | .error e => throw (.archiverNotRun e)
  | .ok exit =>
    if !exit.isSuccess then throw .archiveFailed
    Work.files (·.removeAll [] directory) .file
    Work.say ("Package created: " ++ tarball)

/-- Does what the packager is told to. -/
def run (architecture : String) : CommandLine.PackagerCommand → Work Error Unit
  | .build release target => do
    let _ ← build shell root release target
  | .package target output => package shell root architecture target output

end ExecWatch.Package
