import ExecWatch.Number.Integer
import ExecWatch.Text.CharClass
import ExecWatch.Text.Pieces

/-!
# Kernel versions

Which kernel runs, and whether exec tracing can run on it. Distributions hide the version of their
kernels in different places: in a signature file, behind the distribution's name, or in the release.
-/

namespace ExecWatch

structure KernelVersion where
  major : Nat
  minor : Nat
  patch : Nat
deriving Repr, DecidableEq

namespace KernelVersion

/-- Ring buffers between kernel and programs are there from this version on. -/
def minimum : KernelVersion := ⟨5, 8, 0⟩

/-- The version `a` is older than `b`. -/
def isOlder (a b : KernelVersion) : Bool :=
  a.major < b.major ||
    (a.major = b.major && (a.minor < b.minor || (a.minor = b.minor && a.patch < b.patch)))

def isSupported (v : KernelVersion) : Bool := !v.isOlder minimum

/-- The version with the names of its parts. -/
def describe (v : KernelVersion) : String :=
  "KernelVersion \x7b major: " ++ toString v.major ++ ", minor: " ++ toString v.minor ++ ", patch: " ++
    toString v.patch ++ " \x7d"

/-! ## Reading -/

/-- The first three runs of digits, of 8, 8 and 16 bits, each a single character behind the one
before. -/
def ofText? (text : List Char) : Option KernelVersion :=
  match Text.pieces (fun c => !c.isDigit) text with
  | major :: minor :: patch :: _ => do
    return ⟨← Integer.unsigned? 8 major, ← Integer.unsigned? 8 minor, ← Integer.unsigned? 16 patch⟩
  | _ => none

/-- What stands before the version in the version text of some kernels. -/
def distributionMark : List Char := "Debian ".toList

/-- The version in a signature file: its third word. -/
def ofSignature? (signature : String) : Option KernelVersion :=
  match Text.pieces Text.isBlank signature.toList with
  | _ :: _ :: version :: _ => ofText? version
  | _ => none

/-- The version of a kernel that shows these texts. A distribution's mark decides even when no version
follows it. -/
def ofKernelTexts? (signature : Option String) (version release : String) : Option KernelVersion :=
  match signature.bind ofSignature? with
  | some v => some v
  | none =>
    match Text.after? distributionMark version.toList with
    | some text => ofText? text
    | none => ofText? release.toList

end KernelVersion

end ExecWatch
