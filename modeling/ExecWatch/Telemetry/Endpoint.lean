import ExecWatch.Log.Basic
import ExecWatch.Settings.Environment

/-!
# Metrics

Where metrics are sent: to the endpoint in the settings, else to the one in the environment, else
nowhere. An endpoint without a scheme is reached by `http`.
-/

namespace ExecWatch.Telemetry

/-- The variable that names an endpoint. -/
def endpointVariable : String := "OTEL_EXPORTER_OTLP_ENDPOINT"

/-- An endpoint with its scheme. -/
def withScheme (endpoint : String) : String :=
  if "http://".isPrefixOf endpoint || "https://".isPrefixOf endpoint then endpoint
  else "http://" ++ endpoint

/-- The endpoint that metrics go to. An empty one in the settings counts as none; an empty one in the
environment turns metrics off. -/
def endpoint? (configured : Option String) (environment : Environment) : Option String :=
  let named :=
    match configured.filter (!·.isEmpty) with
    | some endpoint => some endpoint
    | none => environment.lookup endpointVariable
  (named.filter (!·.isEmpty)).map withScheme

/-- Why metrics cannot be sent. -/
inductive Error where
  | invalidEndpoint
deriving Repr, DecidableEq

def Error.message : Error → String
  | .invalidEndpoint => "Failed to create OTLP metric exporter"

/-- What is wrong, in detail. -/
def Error.cause : Error → String
  | .invalidEndpoint => "Metrics exporter otlp failed with invalid URI invalid uri character"

/-- An endpoint must not hold a space. -/
def isValidEndpoint (endpoint : String) : Bool :=
  !endpoint.toList.contains ' '

def line (message : String) : LogLine := ⟨.info, .telemetry, message⟩

/-- Sets metrics up, and says so. -/
def start (configured : Option String) (environment : Environment) :
    List LogLine × Except Error Unit :=
  match endpoint? configured environment with
  | none => ([line "No OTLP endpoint configured. Metrics export disabled."], .ok ())
  | some endpoint =>
    let first := [line "Initializing OpenTelemetry metrics exporter",
      line ("OTLP endpoint: " ++ endpoint)]
    if isValidEndpoint endpoint then
      (first ++ [line "OpenTelemetry metrics initialized successfully"], .ok ())
    else (first, .error .invalidEndpoint)

/-- Logged when the number of a probe's attached tracepoints becomes known. -/
def activeProbeLine (probe : String) (count : Nat) : LogLine :=
  line ("Active probe registered: " ++ probe ++ " = " ++ toString count)

end ExecWatch.Telemetry
