import ExecWatch.Files.Path

/-!
# What a package holds

Where a build puts the agent, how packages are called, and the texts that go into them.
-/

namespace ExecWatch.Package

open Files

/-- The agent's name. -/
def program : String := "tripwire"

/-- The agent's version. -/
def version : String := "0.1.0"

/-- Where the agent's configuration is installed. -/
def configDirectory : String := "/etc/tripwire"

/-- The configuration in the project that goes into packages as an example. -/
def exampleConfig : String := "tripwire.example.yaml"

/-- The installed configuration. -/
def configPath : String := configDirectory ++ "/" ++ program ++ ".yaml"

/-- Where a build below `root` puts the agent. -/
def binaryPath (root : String) (release : Bool) (target : Option String) : String :=
  joinAll (join root "target")
    (target.toList ++ [if release then "release" else "debug", program])

/-- The name of the package for an architecture or target. -/
def packageName (architecture : String) : String :=
  program ++ "-" ++ version ++ "-" ++ architecture

/-! ## Texts -/

/-- Joins lines, each with its break. -/
def ofLines (lines : List String) : String :=
  String.join (lines.map (· ++ "\n"))

/-- The service unit that runs the agent with a configuration. -/
def serviceUnit (config : String) : String :=
  ofLines
    [ "[Unit]",
      "Description=tripwire exec tracing agent",
      "After=network.target",
      "",
      "[Service]",
      "Type=simple",
      "ExecStart=/usr/local/bin/" ++ program ++ " --config " ++ config,
      "Restart=on-failure",
      "RestartSec=5",
      "",
      "CapabilityBoundingSet=CAP_BPF CAP_PERFMON CAP_SYS_RESOURCE CAP_SYS_ADMIN",
      "AmbientCapabilities=CAP_BPF CAP_PERFMON CAP_SYS_RESOURCE CAP_SYS_ADMIN",
      "",
      "[Install]",
      "WantedBy=multi-user.target" ]

/-- The script that installs the agent and, where there is none yet, a configuration. -/
def installScript : String :=
  ofLines
    [ "#!/bin/bash",
      "set -e",
      "",
      "INSTALL_DIR=\"$\x7bINSTALL_DIR:-/usr/local/bin\x7d\"",
      "CONFIG_DIR=\"$\x7bCONFIG_DIR:-" ++ configDirectory ++ "\x7d\"",
      "",
      "echo \"Installing " ++ program ++ "...\"",
      "",
      "sudo install -m 755 " ++ program ++ " \"$INSTALL_DIR/" ++ program ++ "\"",
      "",
      "sudo mkdir -p \"$CONFIG_DIR\"",
      "sudo cp " ++ program ++ ".yaml.example \"$CONFIG_DIR/" ++ program ++ ".yaml.example\"",
      "if [ ! -f \"$CONFIG_DIR/" ++ program ++ ".yaml\" ]; then",
      "    sudo cp " ++ program ++ ".yaml.example \"$CONFIG_DIR/" ++ program ++ ".yaml\"",
      "fi",
      "",
      "echo \"Installed to $INSTALL_DIR/" ++ program ++ "\"",
      "echo \"\"",
      "echo \"To install as a systemd service, run:\"",
      "echo \"  sudo ./install-service.sh\"" ]

/-- The script that installs the service unit. -/
def serviceScript : String :=
  ofLines
    [ "#!/bin/bash",
      "set -e",
      "",
      "sudo install -m 644 " ++ program ++ ".service /etc/systemd/system/" ++ program ++ ".service",
      "sudo systemctl daemon-reload",
      "sudo systemctl enable " ++ program,
      "",
      "echo \"Systemd service installed\"",
      "echo \"   Start with: sudo systemctl start " ++ program ++ "\"" ]

end ExecWatch.Package
