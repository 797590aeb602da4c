import ExecWatch.Alert.Timestamp
import ExecWatch.Json.Writer
import ExecWatch.Rule.Matcher

/-!
# Alerts

What is reported of an exec that a rule matches, and the line of JSON that carries it. The members
stand in a fixed order, those of `detail` in the order of their keys; `cmdline` is there only when
the exec has arguments.
-/

namespace ExecWatch

/-- A rule's hit on an exec. -/
structure Alert where
  rule : String
  severity : String
  time : Timestamp
  exec : ExecInfo
deriving Repr, DecidableEq

namespace Alert

/-- The alert of a rule that matches an exec. -/
def ofMatch (rule : ProcessRule) (exec : ExecInfo) (time : Timestamp) : Alert :=
  ⟨rule.name, rule.severity, time, exec⟩

/-- The exec's part of an alert. -/
def detail (exec : ExecInfo) : List (String × Json) :=
  (if exec.argv.isEmpty then [] else [("cmdline", .string exec.argv)]) ++
    [ ("comm", .string exec.comm),
      ("exe", .string exec.filename),
      ("gid", .int exec.gid.toNat),
      ("pid", .int exec.pid.toNat),
      ("ppid", .int exec.ppid.toNat),
      ("uid", .int exec.uid.toNat) ]

def toJson (a : Alert) : Json :=
  .object
    [ ("tripwire_type", .string Rule.processType),
      ("rule_name", .string a.rule),
      ("severity", .string a.severity),
      ("timestamp", .string a.time.toIso),
      ("detail", .object (detail a.exec)) ]

/-- The text of an alert, without a line break. -/
def text (a : Alert) : List Char :=
  a.toJson.write

/-- The line that carries an alert. -/
def line (a : Alert) : List Char :=
  a.text ++ ['\n']

end Alert

end ExecWatch
