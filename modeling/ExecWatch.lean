import ExecWatch.Capture.Staging
import ExecWatch.Main
import ExecWatch.Package.Build
import ExecWatch.Package.Embed
import ExecWatch.Proofs.Alert.Stream
import ExecWatch.Proofs.Capture.ParentLayout
import ExecWatch.Proofs.Capture.Safety
import ExecWatch.Proofs.Capture.Truncation
import ExecWatch.Proofs.Engine.Sequential
import ExecWatch.Proofs.Engine.Shutdown
import ExecWatch.Proofs.Exec.Layout
import ExecWatch.Proofs.Pattern.Classes
import ExecWatch.Proofs.Rule.BaseName
import ExecWatch.Proofs.Settings.Capacity
import ExecWatch.Proofs.Settings.RuleSource
import ExecWatch.Proofs.Settings.Violations
import ExecWatch.Proofs.TypeTable.Paths
import ExecWatch.Settings.OfJson
import ExecWatch.Proofs.TypeTable.Grammar
