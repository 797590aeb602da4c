import ExecWatch.Engine.Run
import ExecWatch.Proofs.Engine.Turns
import ExecWatch.Proofs.Runs

/-!
# Samples handled one by one

Where the parties take turns so that the alert of each sample is written before the next sample is
published, they write what `handleSamples` writes. Main statements:

* `outcome_handleSamples`: `handleSamples` writes the texts of all alerts;
* `after_turnsOf`: the turns for one sample write the line of its alert, and leave all else as it was;
* `sequentially_writes`: the whole run writes these texts as lines.
-/

namespace ExecWatch.Engine

/-! ## Handling samples -/

/-- A channel that accepts is given the alert of a sample, if it has one. -/
theorem handle_of_accepts (m : Matcher) (now : Timestamp) {c : Channel Alert} (hc : c.Accepts)
    (sample : Bytes) : (Handler.handle m now c sample).1 =
      { c with queue := c.queue ++ (Handler.alertOf? m now sample).toList } := by
  have h := Handler.handled m now c sample
  generalize (Handler.handle m now c sample).1 = next, (Handler.handle m now c sample).2.1 = outcome at h
  cases h with
  | malformed hdecode => simp [Handler.alertOf?, hdecode]
  | noMatch hdecode hmatch => simp [Handler.alertOf?, hdecode, hmatch]
  | alerted hdecode hmatch => simp [Handler.alertOf?, hdecode, hmatch]
  | dropped _ _ hrefuses => exact absurd hc hrefuses

/-- The alerts of samples that are all handled at the same time. -/
def alertsAt (m : Matcher) (now : Timestamp) (samples : List Bytes) : List Alert :=
  samples.flatMap fun sample => (Handler.alertOf? m now sample).toList

/-- Nothing is dropped where each alert is written before the next sample is handled. -/
theorem outcome_handleSamples (m : Matcher) (now : Timestamp) {c : Channel Alert} (hc : c.Accepts)
    (hqueue : c.queue = []) (samples : List Bytes) (before : Activity) :
    ∃ later, (handleSamples m now c samples).outcome before = (.ok c, later) ∧
      later.written = before.written ++ (alertsAt m now samples).map Alert.text := by
  induction samples generalizing before with
  | nil => exact ⟨before, rfl, (List.append_nil _).symm⟩
  | cons sample rest ih =>
    have hhandle := handle_of_accepts m now hc sample
    rw [hqueue, List.nil_append] at hhandle
    have hkept : { c with queue := [] } = c := by rw [← hqueue]
    rw [handleSamples]
    simp only [Action.outcome_bind, logAll, writeWaiting, Action.outcome_modify, Action.outcome_pure,
      hhandle, hkept]
    obtain ⟨later, hrun, hwritten⟩ := ih _
    refine ⟨later, hrun, ?_⟩
    rw [hwritten]
    simp [alertsAt]

namespace Parties

/-! ## Taking turns -/

/-- The turns in which a sample is published and handled, and its alert is written. -/
def turnsOf (now : Timestamp) (sample : Bytes) : List Move :=
  [.publish sample, .read now true, .read now true, .read now true, .write, .write, .write,
    .read now true]

/-- The turns of a run that is interrupted after the last sample. -/
def sequentially (now : Timestamp) (samples : List Bytes) : List Move :=
  [.proceed, .proceed] ++ samples.flatMap (turnsOf now) ++
    [.proceed, .read now true, .read now true, .proceed, .write, .proceed]

/-- The parties between two samples. -/
def resting (capacity : Nat) (sink : Sink) : Parties :=
  ⟨[], {}, .fresh capacity, sink, .checking, .receiving, .monitoring⟩

section
variable (m : Matcher) (now : Timestamp) {capacity : Nat} (hcapacity : 1 ≤ capacity) {sink : Sink}
  (hsink : sink.Reliable)
include hcapacity

/-- The parties with the alert of a sample in the channel, if it has one. -/
theorem after_handled (sample : Bytes) :
    Runs.after (step m) (resting capacity sink)
        [.publish sample, .read now true, .read now true, .read now true] =
      { resting capacity sink with
        channel.queue := (Handler.alertOf? m now sample).toList, reader := .draining true } := by
  have haccepts : (Channel.fresh capacity : Channel Alert).Accepts := ⟨rfl, hcapacity⟩
  have hhandle := handle_of_accepts m now haccepts sample
  show { resting capacity sink with
    channel := (Handler.handle m now (.fresh capacity) sample).1, reader := .draining true } = _
  rw [hhandle]
  rfl

include hsink

/-- The turns for one sample write the line of its alert. -/
theorem after_turnsOf (sample : Bytes) :
    ∃ sink', sink'.Reliable ∧
      sink.writeLines (Handler.alertOf? m now sample).toList = (sink', .ok ()) ∧
      Runs.after (step m) (resting capacity sink) (turnsOf now sample) = resting capacity sink' := by
  have hsplit : turnsOf now sample =
      [.publish sample, .read now true, .read now true, .read now true] ++
        [.write, .write, .write, .read now true] := rfl
  rw [hsplit, Runs.after_append, after_handled m now hcapacity]
  cases Handler.alertOf? m now sample with
  | none => exact ⟨sink, hsink, rfl, rfl⟩
  | some alert =>
    obtain ⟨sink₁, hwrite, hsink₁⟩ := hsink.writeAll_ok (Utf8.encode alert.line)
    obtain ⟨sink₂, hflush, hsink₂⟩ := hsink₁.flush_ok
    refine ⟨sink₂, hsink₂, ?_, ?_⟩
    · simp only [Option.toList, Sink.writeLines, hwrite, hflush]
    · simp [Runs.after, step, write, read, Channel.receive, resting, hwrite, hflush, Channel.fresh]

theorem after_turnsOf_all (samples : List Bytes) :
    ∃ sink', sink'.Reliable ∧ sink.writeLines (alertsAt m now samples) = (sink', .ok ()) ∧
      Runs.after (step m) (resting capacity sink) (samples.flatMap (turnsOf now)) =
        resting capacity sink' := by
  induction samples generalizing sink with
  | nil => exact ⟨sink, hsink, rfl, rfl⟩
  | cons sample rest ih =>
    obtain ⟨sink₁, hsink₁, hlines, hafter⟩ := after_turnsOf m now hcapacity hsink sample
    obtain ⟨sink₂, hsink₂, hlines', hafter'⟩ := ih hsink₁
    refine ⟨sink₂, hsink₂, ?_, ?_⟩
    · rw [alertsAt, List.flatMap_cons, Sink.writeLines_append hlines]
      exact hlines'
    · rw [List.flatMap_cons, Runs.after_append, hafter, hafter']

end

/-- **Samples handled one by one are one of the runs of the parties**, in which these write the texts
that `handleSamples` writes, as lines. -/
theorem sequentially_writes {capacity : Nat} {c : Channel Alert}
    (hc : Channel.ofCapacity? capacity = some c) {out : Sink} (hout : out.Reliable) (m : Matcher)
    (now : Timestamp) (samples : List Bytes) :
    let s := Runs.after (step m) (start c out {}) (sequentially now samples)
    s.main = .returned ∧ ∃ later, (handleSamples m now c samples).outcome = (.ok c, later) ∧
      s.sink.written = out.written ++ Utf8.encode (later.written.flatMap (· ++ ['\n'])) := by
  intro s
  obtain ⟨hcapacity, rfl⟩ := Channel.eq_fresh hc
  obtain ⟨sink, hsink, hlines, hafter⟩ := after_turnsOf_all m now hcapacity hout samples
  obtain ⟨later, hrun, hwritten⟩ := outcome_handleSamples m now (c := .fresh capacity) ⟨rfl, hcapacity⟩
    rfl samples {}
  have hs : s = { resting capacity sink with
      flag := ⟨true⟩, reader := .finished, writer := .ended (.ok ()), main := .returned
      channel.receiver := .dropped, channel.senders := 0 } := by
    show Runs.after (step m) _ (_ ++ _ ++ _) = _
    rw [Runs.after_append, Runs.after_append]
    have hfirst : Runs.after (step m) (start (.fresh capacity) out {}) [.proceed, .proceed] =
      resting capacity out := rfl
    rw [hfirst, hafter]
    rfl
  rw [hs]
  refine ⟨rfl, later, hrun, ?_⟩
  show sink.written = _
  rw [Sink.written_of_writeLines hlines, hwritten, List.nil_append, List.flatMap_map]
  rfl

end Parties

end ExecWatch.Engine
