/-!
# Log lines

A log line has a level, the part of the program it comes from, and a message.
-/

namespace ExecWatch

/-- Levels of log lines, the most severe first. -/
inductive Level where
  | error
  | warn
  | info
  | debug
  | trace
deriving Repr, DecidableEq

namespace Level

/-- All levels, the most severe first. -/
def all : List Level := [.error, .warn, .info, .debug, .trace]

def name : Level → String
  | .error => "ERROR"
  | .warn => "WARN"
  | .info => "INFO"
  | .debug => "DEBUG"
  | .trace => "TRACE"

/-- The more severe, the lower. -/
def rank : Level → Nat
  | .error => 1
  | .warn => 2
  | .info => 3
  | .debug => 4
  | .trace => 5

end Level

/-- The parts of the program that log. -/
inductive Component where
  | agent
  | alerts
  | probes
  | execProbe
  | telemetry
deriving Repr, DecidableEq

/-- The path under which filters and log lines know a component. -/
def Component.path : Component → String
  | .agent => "tripwire"
  | .alerts => "tripwire::alert"
  | .probes => "tripwire::probes"
  | .execProbe => "tripwire::probes::exec"
  | .telemetry => "tripwire::telemetry"

structure LogLine where
  level : Level
  component : Component
  message : String
deriving Repr, DecidableEq

end ExecWatch
