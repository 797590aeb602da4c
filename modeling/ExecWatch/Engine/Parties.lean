import ExecWatch.Alert.Handler
import ExecWatch.Alert.Sink
import ExecWatch.Engine.Shutdown

/-!
# The parties of a run

While the engine runs, four parties go on side by side. The kernel publishes samples into the event
ring. The reader drains the ring, handling each sample, until it sees the shutdown flag raised. The
sink's task takes alerts out of the channel and writes and flushes the line of each. The main task
starts the reader, and on Ctrl-C raises the flag, joins the reader and waits for the sink's task.

A run is a list of moves, one for each turn that a party gets, so that every order of their steps is
one of the lists. A party that waits for another lets its turn pass.
-/

namespace ExecWatch.Engine

/-- Where the reader is. -/
inductive Reader where
  | unstarted
  /-- About to look at the flag. -/
  | checking
  /-- About to poll the ring, in which it found a sample since it looked at the flag if it is `busy`. -/
  | draining (busy : Bool)
  | handling (sample : Bytes)
  | sleeping
  /-- It has seen the flag raised. -/
  | leaving
  /-- It is gone, and its handler with the sender in it. -/
  | finished
deriving Repr, DecidableEq

/-- Where the sink's task is. -/
inductive Writer where
  | receiving
  | writing (alert : Alert)
  | flushing
  /-- It is gone, and the receiver with it. -/
  | ended (result : Except Sink.Error Unit)
deriving Repr

/-- Where the main task is. -/
inductive MainTask where
  /-- The probe is attached, and holds the only sender. -/
  | starting
  /-- The reader is started, with a clone of the probe's sender. -/
  | started
  /-- The probe is dropped. -/
  | monitoring
  | joining
  | awaiting
  | returned
deriving Repr, DecidableEq

structure Parties where
  ring : List Bytes
  flag : ShutdownFlag
  channel : Channel Alert
  sink : Sink
  reader : Reader
  writer : Writer
  main : MainTask
deriving Repr

namespace Parties

/-- A turn of one party. -/
inductive Move where
  | publish (sample : Bytes)
  /-- The reader's turn, at the time `now`. The flag is read without synchronization, so that a raised
  one may still look lowered unless the read is `fresh`. -/
  | read (now : Timestamp) (fresh : Bool)
  | write
  | proceed
deriving Repr, DecidableEq

/-- What a turn shows. -/
inductive Event where
  | published (sample : Bytes)
  | checked (raised : Bool)
  | took (sample : Bytes)
  | foundEmpty
  | handled (now : Timestamp) (sample : Bytes) (outcome : Outcome)
  | received (alert : Alert)
  /-- Something else was done. -/
  | went
  /-- The party had to wait, or is gone. -/
  | waited
deriving Repr, DecidableEq

/-- The parties as the probe has been attached, with the channel `c` and the output `out`. The flag may
still be raised from an earlier run. -/
def start (c : Channel Alert) (out : Sink) (flag : ShutdownFlag) : Parties :=
  ⟨[], flag, c, out, .unstarted, .receiving, .starting⟩

/-- The reader's turn. -/
def read (m : Matcher) (now : Timestamp) (fresh : Bool) (s : Parties) : Parties × Event :=
  match s.reader with
  | .unstarted | .finished => (s, .waited)
  | .checking =>
    if fresh && s.flag.raised then ({ s with reader := .leaving }, .checked true)
    else ({ s with reader := .draining false }, .checked false)
  | .draining busy =>
    match s.ring with
    | [] => ({ s with reader := if busy then .checking else .sleeping }, .foundEmpty)
    | sample :: rest => ({ s with ring := rest, reader := .handling sample }, .took sample)
  | .handling sample =>
    let (c, outcome, _) := Handler.handle m now s.channel sample
    ({ s with channel := c, reader := .draining true }, .handled now sample outcome)
  | .sleeping => ({ s with reader := .checking }, .went)
  | .leaving => ({ s with channel := s.channel.dropSender, reader := .finished }, .went)

/-- The sink's task ends. -/
def endWriter (s : Parties) (result : Except Sink.Error Unit) : Parties :=
  { s with channel := s.channel.dropReceiver, writer := .ended result }

/-- The turn of the sink's task. -/
def write (s : Parties) : Parties × Event :=
  match s.writer with
  | .receiving =>
    match s.channel.receive with
    | (c, .value alert) => ({ s with channel := c, writer := .writing alert }, .received alert)
    | (_, .empty) => (s, .waited)
    | (_, .disconnected) => (s.endWriter (.ok ()), .went)
  | .writing alert =>
    match s.sink.writeAll (Utf8.encode alert.line) with
    | (sink, .ok ()) => ({ s with sink := sink, writer := .flushing }, .went)
    | (sink, .error cause) => ({ s with sink := sink }.endWriter (.error (.write cause)), .went)
  | .flushing =>
    match s.sink.flush with
    | (sink, .ok ()) => ({ s with sink := sink, writer := .receiving }, .went)
    | (sink, .error cause) => ({ s with sink := sink }.endWriter (.error (.flush cause)), .went)
  | .ended _ => (s, .waited)

/-- The turn of the main task; while it monitors, its turn is Ctrl-C. -/
def proceed (s : Parties) : Parties × Event :=
  match s.main with
  | .starting =>
    ({ s with channel := s.channel.cloneSender, reader := .checking, main := .started }, .went)
  | .started => ({ s with channel := s.channel.dropSender, main := .monitoring }, .went)
  | .monitoring => ({ s with flag := s.flag.request, main := .joining }, .went)
  | .joining =>
    if s.reader = .finished then ({ s with main := .awaiting }, .went) else (s, .waited)
  | .awaiting =>
    match s.writer with
    | .ended _ => ({ s with main := .returned }, .went)
    | _ => (s, .waited)
  | .returned => (s, .waited)

/-- One turn. -/
def step (m : Matcher) (s : Parties) : Move → Parties × Event
  | .publish sample => ({ s with ring := s.ring ++ [sample] }, .published sample)
  | .read now fresh => s.read m now fresh
  | .write => s.write
  | .proceed => s.proceed

end Parties

end ExecWatch.Engine
