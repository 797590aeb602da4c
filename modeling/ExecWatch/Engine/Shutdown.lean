/-!
# Shutting down

A flag tells the reader of the event ring to stop. Once raised it stays raised. A reader that finds the
ring empty sleeps before it looks again.
-/

namespace ExecWatch

structure ShutdownFlag where
  raised : Bool := false
deriving Repr, DecidableEq

namespace ShutdownFlag

/-- Asks the reader to stop. -/
def request (_ : ShutdownFlag) : ShutdownFlag := ⟨true⟩

/-- Milliseconds for which a reader sleeps. -/
def pollInterval : Nat := 10

theorem request_raised (f : ShutdownFlag) : f.request.raised = true := rfl

end ShutdownFlag

end ExecWatch
