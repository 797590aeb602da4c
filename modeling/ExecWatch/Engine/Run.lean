import ExecWatch.Alert.Handler
import ExecWatch.Engine.Attach
import ExecWatch.Telemetry.Endpoint

/-!
# A run of the engine

A run compiles the rules, opens the alert channel, attaches the probe, and handles samples off the
event ring until it is interrupted. The sink writes each alert before the next sample is handled.
-/

namespace ExecWatch.Engine

/-- The name of the probe in metrics. -/
def probeName : String := "exec"

/-- Compiles the rules. -/
def compileRules (s : Settings) : Action Matcher := do
  match Matcher.ofRules s.processRules with
  | .error e => throw (.rule e)
  | .ok m =>
    if m.rules.isEmpty then
      log ⟨.warn, .agent, "No PROCESS rules configured; exec records will not raise alerts"⟩
    else log ⟨.info, .agent, "Loaded " ++ toString m.rules.length ++ " PROCESS rules"⟩
    return m

/-- Opens the alert channel. -/
def openChannel (s : Settings) : Action (Channel Alert) :=
  match Channel.ofCapacity? s.channelCapacity with
  | none => throw (.channelCapacity s.channelCapacity)
  | some c => return c

/-- Attaches the probe; something must be attached. -/
def attach (h : Host) (e : Engine) : Action Unit := do
  let calls := e.settings.probes.calls
  let attached ← attachCalls h e.code calls
  log (Telemetry.activeProbeLine probeName attached)
  log ⟨.info, .execProbe, "ExecProbe attached " ++ toString attached ++ " of " ++
    toString calls.length ++ " tracepoints"⟩
  if attached = 0 then throw .nothingAttached

/-- Opens the event ring. -/
def openRing (code : ProbeCode) : Action Unit :=
  match code.maps.lookup ProbeCode.eventsMap with
  | none => throw (.noMap ProbeCode.eventsMap)
  | some type =>
    if type = ringBufferType then return () else throw (.mapRefused ProbeCode.eventsMap)

/-- The sink writes everything that waits in the channel. -/
def writeWaiting (c : Channel Alert) : Action (Channel Alert) := do
  modify fun a => { a with written := a.written ++ c.queue.map Alert.text }
  return { c with queue := [] }

/-- Handles samples in order, all at the time `now`. -/
def handleSamples (m : Matcher) (now : Timestamp) (c : Channel Alert) :
    List Bytes → Action (Channel Alert)
  | [] => return c
  | sample :: rest => do
    let (c, _, lines) := Handler.handle m now c sample
    logAll lines
    handleSamples m now (← writeWaiting c) rest

/-- Runs the engine over `samples` until it is interrupted. -/
def run (e : Engine) (h : Host) (now : Timestamp) (samples : List Bytes) : Action Unit := do
  let m ← compileRules e.settings
  let c ← openChannel e.settings
  attach h e
  openRing e.code
  log ⟨.info, .agent, "Monitoring active. Press Ctrl-C to exit."⟩
  let _ ← handleSamples m now c samples
  log ⟨.info, .agent, "Exiting..."⟩

end ExecWatch.Engine
