import ExecWatch.Alert.Channel
import ExecWatch.Alert.Event
import ExecWatch.Log.Basic
import ExecWatch.Text.Quoted

/-!
# Handling samples

Each sample off the event ring is decoded and matched; a hit is sent into the alert channel. A hit
that finds no room there is lost, and logged.
-/

namespace ExecWatch

namespace Alert

/-- Sends an alert; one that cannot be queued is logged. -/
def send (c : Channel Alert) (a : Alert) : Channel Alert × Bool × List LogLine :=
  match c.send a with
  | (c, .queued) => (c, true, [])
  | (c, .full) =>
    (c, false, [⟨.warn, .alerts,
      "Alert channel full, dropping alert rule=" ++ a.rule ++ " ts=" ++ a.time.toText⟩])
  | (c, .closed) =>
    (c, false, [⟨.warn, .alerts, "Alert sink closed, dropping alert rule=" ++ a.rule⟩])

end Alert

/-- What became of a sample. -/
inductive Outcome where
  | malformed
  | noMatch
  | alerted
  | dropped
deriving Repr, DecidableEq

namespace Handler

/-- Logged for a sample that is not one record. -/
def malformedLine (sample : Bytes) : LogLine :=
  ⟨.warn, .execProbe, "Unexpected exec record size: got " ++ toString sample.length ++ " want " ++
    toString Record.size⟩

/-- Logged for every exec. -/
def execLine (e : ExecInfo) : LogLine :=
  ⟨.debug, .execProbe, "EXEC pid=" ++ toString e.pid.toNat ++ " ppid=" ++ toString e.ppid.toNat ++
    " uid=" ++ toString e.uid.toNat ++ " gid=" ++ toString e.gid.toNat ++ " comm=" ++ e.comm ++
    " exe=" ++ e.filename ++ " argv=" ++ Text.quoted e.argv⟩

/-- Logged for every hit. -/
def hitLine (rule : ProcessRule) (e : ExecInfo) : LogLine :=
  ⟨.info, .execProbe, "exec alert rule=" ++ rule.name ++ " pid=" ++ toString e.pid.toNat ++
    " exe=" ++ e.filename ++ " comm=" ++ e.comm⟩

/-- Handles one sample at the time `now`. -/
def handle (m : Matcher) (now : Timestamp) (c : Channel Alert) (sample : Bytes) :
    Channel Alert × Outcome × List LogLine :=
  match ExecInfo.decode? sample with
  | none => (c, .malformed, [malformedLine sample])
  | some exec =>
    match m.matchExec exec with
    | none => (c, .noMatch, [execLine exec])
    | some rule =>
      let (c, queued, logs) := Alert.send c (.ofMatch rule exec now)
      (c, if queued then .alerted else .dropped, execLine exec :: hitLine rule exec :: logs)

end Handler

end ExecWatch
