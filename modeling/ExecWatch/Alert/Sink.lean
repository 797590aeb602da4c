import ExecWatch.Alert.Event
import ExecWatch.Text.Utf8

/-!
# The sink

Alerts are written to a sink as lines of JSON, each flushed before the next is begun. A sink may
take fewer bytes than it is given, and may stop taking any; then the run ends inside a line, with
everything before it written.
-/

namespace ExecWatch

/-- Why a sink stops. -/
inductive Sink.Fault where
  | full
  | tookNothing
  | flushRefused
deriving Repr, DecidableEq

/-- What a sink without room does: it fails, or it takes nothing. -/
inductive Sink.WhenFull where
  | fails
  | takesNothing
deriving Repr, DecidableEq

/-- A sink, what was written to it and what it still takes: `room` bytes in writes of at most `chunk`,
and `flushes` flushes; where a bound is missing there is none. -/
structure Sink where
  written : Bytes := []
  room : Option Nat := none
  chunk : Option Nat := none
  flushes : Option Nat := none
  whenFull : Sink.WhenFull := .fails
deriving Repr, DecidableEq

namespace Sink

def Fault.message : Fault → String
  | .full => "sink full"
  | .tookNothing => "write zero"
  | .flushRefused => "flush refused"

/-- The smaller of a number and a bound, if there is one. -/
def atMost (n : Nat) (bound : Option Nat) : Nat :=
  bound.elim n (min n)

/-- How many of `length` bytes one write takes. -/
def accepts (s : Sink) (length : Nat) : Nat :=
  atMost (atMost length s.chunk) s.room

/-- The sink after it took `bytes`. -/
def take (s : Sink) (bytes : Bytes) : Sink :=
  { s with written := s.written ++ bytes, room := s.room.map (· - bytes.length) }

/-- The fault of a sink that takes none of the bytes given to it. -/
def refusal (s : Sink) : Fault :=
  if s.room = some 0 ∧ s.whenFull = .fails then .full else .tookNothing

/-- Writes `bytes` in as many writes as it takes. -/
def writeAll (s : Sink) (bytes : Bytes) : Sink × Except Fault Unit :=
  match bytes with
  | [] => (s, .ok ())
  | b :: rest =>
    match s.accepts (b :: rest).length with
    | 0 => (s, .error s.refusal)
    | n + 1 => writeAll (s.take ((b :: rest).take (n + 1))) (rest.drop n)
termination_by bytes.length
decreasing_by
  simp only [List.length_drop, List.length_cons]
  omega

/-- Flushes. -/
def flush (s : Sink) : Sink × Except Fault Unit :=
  match s.flushes with
  | some 0 => (s, .error .flushRefused)
  | flushes => ({ s with flushes := flushes.map (· - 1) }, .ok ())

/-- Why the run of lines ended early. -/
inductive Error where
  | write (cause : Fault)
  | flush (cause : Fault)
deriving Repr, DecidableEq

def Error.message : Error → String
  | .write _ => "Failed to write alert"
  | .flush _ => "Failed to flush alert sink"

def Error.cause : Error → Fault
  | .write cause | .flush cause => cause

/-- Writes each alert as a line and flushes it. -/
def writeLines (s : Sink) : List Alert → Sink × Except Error Unit
  | [] => (s, .ok ())
  | a :: rest =>
    match s.writeAll (Utf8.encode a.line) with
    | (s, .error cause) => (s, .error (.write cause))
    | (s, .ok ()) =>
      match s.flush with
      | (s, .error cause) => (s, .error (.flush cause))
      | (s, .ok ()) => writeLines s rest

end Sink

end ExecWatch
