import ExecWatch.Proofs.Engine.History
import ExecWatch.Proofs.Engine.Return
import ExecWatch.Proofs.Runs

/-!
# Shutting down loses no alert

The parties of a run take turns in any order, from the moment the probe is attached. Main statements:

* `handled_append_pending`: what was handled and what is pending is what was published;
* `received_append_queue`: what the sink's task received and what is queued are the alerts of the samples
  that were alerted;
* `wrote_after`, `drained_after`: what was written, and what is left in the ring, at every moment;
* `shutdown_keeps_alerts`: once the run has returned the output holds the lines of all these alerts, and
  an interrupted run returns.
-/

namespace ExecWatch.Engine.Parties

/-! ## At every moment of a run -/

/-- Where every element has a value, the values stand as the elements do. -/
theorem forall₂_filterMap {α β : Type} {f : α → Option β} {as : List α}
    (h : ∀ a ∈ as, (f a).isSome = true) : List.Forall₂ (fun a b => f a = some b) as (as.filterMap f) := by
  induction as with
  | nil => exact .nil
  | cons a as ih =>
    obtain ⟨ha, has⟩ := List.forall_mem_cons.1 h
    obtain ⟨b, hb⟩ := Option.isSome_iff_exists.1 ha
    rw [List.filterMap_cons_some hb]
    exact .cons hb (ih has)

section
variable {m : Matcher} {s : Parties} (moves : List Move)

theorem held_after (h : s.Held) : (Runs.after (step m) s moves).Held :=
  Runs.after_induction (fun s move h => h.turn (turn_step m s move)) h moves

theorem handled_append_pending (h : s.Held) :
    (Runs.events (step m) s moves).flatMap handledBy ++ (Runs.after (step m) s moves).pending =
      s.pending ++ (Runs.events (step m) s moves).flatMap publishedBy :=
  Runs.events_append_content pending Held (fun _ => True)
    (fun s move h _ => h.turn (turn_step m s move))
    (fun s move h _ => turn_conserves_samples h (turn_step m s move)) h fun _ _ => trivial

theorem received_append_queue (h : s.Held) :
    (Runs.events (step m) s moves).flatMap receivedBy ++ (Runs.after (step m) s moves).channel.queue =
      s.channel.queue ++ ((Runs.events (step m) s moves).flatMap alertedBy).filterMap (alertOf? m) := by
  rw [List.filterMap_flatMap]
  exact Runs.events_append_content (fun s : Parties => s.channel.queue) Held (fun _ => True)
    (fun s move h _ => h.turn (turn_step m s move))
    (fun s move h _ => turn_conserves_alerts h (turn_step m s move)) h fun _ _ => trivial

theorem isSome_of_mem_alertedBy :
    ∀ hit ∈ (Runs.events (step m) s moves).flatMap alertedBy, (alertOf? m hit).isSome = true := by
  intro hit hmem
  obtain ⟨e, he, hhit⟩ := List.mem_flatMap.1 hmem
  have h : ∀ e ∈ Runs.events (step m) s moves, ∀ hit ∈ alertedBy e, (alertOf? m hit).isSome = true :=
    Runs.forall_events (fun s move => isSome_of_alertedBy (turn_step m s move)) s moves
  exact h e he hit hhit

theorem wrote_after (out : Sink) (h : s.Wrote out []) :
    (Runs.after (step m) s moves).Wrote out ((Runs.events (step m) s moves).flatMap receivedBy) := by
  refine Runs.history_induction (P := fun es s => Wrote out (es.flatMap receivedBy) s) ?_ h moves
  intro es s move h
  rw [List.flatMap_append, List.flatMap_singleton]
  exact h.turn (turn_step m s move)

theorem drained_after (hheld : s.Held) (h : Drained [] s) :
    Drained (Runs.events (step m) s moves) (Runs.after (step m) s moves) := by
  refine (Runs.history_induction (P := fun es s => s.Held ∧ Drained es s) ?_ ⟨hheld, h⟩ moves).2
  rintro es s move ⟨hheld, h⟩
  exact ⟨hheld.turn (turn_step m s move), h.turn hheld (turn_step m s move)⟩

end

/-! ## When the run has returned -/

/-- The sink's task ends only when the reader is gone, and with it the last sender. -/
theorem Held.finished_of_ended {s : Parties} (h : s.Held) {result : Except Sink.Error Unit}
    (hended : s.writer = .ended result) : s.reader = .finished := by
  have hruns : s.reader.runs ≠ true := fun hruns => h.not_ended (.inr hruns) result hended
  have hprobe : s.main.hasProbe ≠ true := fun hprobe => h.not_ended (.inl hprobe) result hended
  by_cases hreader : s.reader = .unstarted
  · rw [h.unstarted.2 hreader] at hprobe
    exact absurd rfl hprobe
  · by_contra hthere
    exact hruns ((Reader.runs_iff _).2 ⟨hreader, hthere⟩)

/-- The last empty poll of the ring stands before everything that is left in it, unless there was no
drain. -/
theorem Unread.cases {es : List Event} {ring : List Bytes} (h : Unread es ring) :
    (∀ e ∈ es, inDrain e = false) ∨
      ∃ before later, es = before ++ .foundEmpty :: later ∧ (∀ e ∈ later, inDrain e = false) ∧
        later.flatMap publishedBy = ring := by
  obtain ⟨before, later, rfl, hlast, hlater, rfl⟩ := h
  rcases hlast with rfl | hlast
  · exact .inl hlater
  · obtain ⟨first, rfl⟩ := List.getLast?_eq_some_iff.1 hlast
    exact .inr ⟨first, later, by simp, hlater, rfl⟩

/-- **Shutdown loses no accepted alert.** A run starts on a fresh channel, and its output never fails.
Whatever turns are taken, in whatever order:

* the samples handled are a beginning of those published, in order and each once;
* after the probe is dropped the reader holds the only sender, and the sink's task ends, without an
  error, only when the reader is gone and nothing is queued;
* when the run has returned, the lines of the alerts of all samples that were alerted have been written,
  in the order in which these were handled. Published and not handled are only the samples published
  after the last empty poll of the ring, unless the reader saw the flag raised before its first drain;
* a run that Ctrl-C has interrupted returns, once it has been given enough rounds of calm turns. -/
theorem shutdown_keeps_alerts {capacity : Nat} {c : Channel Alert}
    (hc : Channel.ofCapacity? capacity = some c) {out : Sink} (hout : out.Reliable) (m : Matcher)
    (flag : ShutdownFlag) (moves : List Move) :
    let s := Runs.after (step m) (start c out flag) moves
    let es := Runs.events (step m) (start c out flag) moves
    es.flatMap handledBy <+: es.flatMap publishedBy ∧
      (s.main.hasProbe = false → s.channel.senders = s.reader.runs.toNat) ∧
      (∀ result, s.writer = .ended result →
        result = .ok () ∧ s.reader = .finished ∧ s.channel.senders = 0 ∧ s.channel.queue = []) ∧
      (s.main = .returned →
        (∃ alerts, List.Forall₂ (fun hit alert => alertOf? m hit = some alert) (es.flatMap alertedBy)
            alerts ∧
          s.sink.written = out.written ++ Utf8.encode (Sink.linesText alerts)) ∧
        ∃ unhandled, es.flatMap publishedBy = es.flatMap handledBy ++ unhandled ∧
          ((.checked true ∈ es ∧ ∀ e ∈ es, inDrain e = false) ∨
            ∃ before later, es = before ++ .foundEmpty :: later ∧ (∀ e ∈ later, inDrain e = false) ∧
              later.flatMap publishedBy = unhandled)) ∧
      (s.main.interrupted = true → ∃ n, ∀ rounds : List (List Move), (∀ round ∈ rounds, Round round) →
        n ≤ rounds.length → (Runs.after (step m) s rounds.flatten).main = .returned) := by
  intro s es
  obtain ⟨-, rfl⟩ := Channel.eq_fresh hc
  have hstart := Held.start capacity hout flag
  have hheld : s.Held := held_after moves hstart
  have hsamples : es.flatMap handledBy ++ s.pending = es.flatMap publishedBy :=
    handled_append_pending moves hstart
  have halerts : es.flatMap receivedBy ++ s.channel.queue = (es.flatMap alertedBy).filterMap (alertOf? m) :=
    received_append_queue moves hstart
  have hwrote : s.Wrote out (es.flatMap receivedBy) := wrote_after moves out rfl
  have hdrained : Drained es s := drained_after moves hstart (Drained.start _ _ _)
  refine ⟨⟨_, hsamples⟩, ?_, ?_, ?_, ?_⟩
  · intro hprobe
    rw [hheld.senders, hprobe]
    exact Nat.zero_add _
  · intro result hended
    obtain ⟨hok, hsenders, hqueue⟩ := hheld.ended result hended
    exact ⟨hok, hheld.finished_of_ended hended, hsenders, hqueue⟩
  · intro hreturned
    obtain ⟨result, hended⟩ := hheld.returned hreturned
    obtain ⟨rfl, -, hqueue⟩ := hheld.ended result hended
    have hreader := hheld.joined (.inr hreturned)
    refine ⟨⟨_, forall₂_filterMap (isSome_of_mem_alertedBy moves), ?_⟩, s.ring, ?_, ?_⟩
    · rw [hqueue, List.append_nil] at halerts
      rw [← halerts]
      simp only [Wrote, hended] at hwrote
      exact Sink.written_of_writeLines hwrote
    · rw [← hsamples, pending, hreader]
    · rcases (hdrained.unread (by rw [hreader]; rfl)).cases with hnone | hlast
      · exact .inl ⟨hdrained.seen (.inr hreader), hnone⟩
      · exact .inr hlast
  · intro hmain
    exact ⟨s.remaining, fun rounds hrounds henough => returns_of_rounds hheld hmain hrounds henough⟩

/-- A rule that every process matches. -/
def anyMatcher : Matcher := ⟨[⟨"any", "INFO", none⟩]⟩

/-- The sample of an exec of which only the process id is known. -/
def sampleOfPid (pid : UInt32) : Bytes := { Record.zero with pid }.encode

/-- Two samples share one place in the channel. Ctrl-C comes while the second is handled, the reader
misses the flag at its next look, and a third sample is published after its last poll. -/
def crossedMoves : List Move :=
  [.proceed, .publish (sampleOfPid 1), .read ⟨1, 0⟩ true, .proceed, .publish (sampleOfPid 2),
    .read ⟨1, 0⟩ true, .read ⟨1, 0⟩ true, .write, .read ⟨2, 0⟩ true, .proceed, .read ⟨2, 0⟩ true,
    .proceed, .read ⟨2, 0⟩ true, .write, .read ⟨2, 0⟩ false, .read ⟨2, 0⟩ true,
    .publish (sampleOfPid 3), .read ⟨3, 0⟩ true, .write, .read ⟨3, 0⟩ true, .read ⟨3, 0⟩ true, .proceed,
    .write, .proceed, .write, .write, .write, .proceed]

theorem shutdown_keeps_alerts_crossed :
    (Channel.ofCapacity? 1 = some (.fresh 1 : Channel Alert) ∧ Sink.Reliable { chunk := some 5 }) ∧
      ∃ s es, s = Runs.after (step anyMatcher) (start (.fresh 1) { chunk := some 5 } {}) crossedMoves ∧
        es = Runs.events (step anyMatcher) (start (.fresh 1) { chunk := some 5 } {}) crossedMoves ∧
        s.main = .returned ∧
        s.sink.written = Utf8.encode (Sink.linesText
          [⟨"any", "INFO", ⟨1, 0⟩, ⟨1, 0, 0, 0, "", "", ""⟩⟩,
            ⟨"any", "INFO", ⟨2, 0⟩, ⟨2, 0, 0, 0, "", "", ""⟩⟩]) ∧
        ∃ before later, es = before ++ .foundEmpty :: later ∧
          later.flatMap publishedBy = [sampleOfPid 3] := by
  have hc : Channel.ofCapacity? 1 = some (.fresh 1 : Channel Alert) := rfl
  have hout : Sink.Reliable { chunk := some 5 } := ⟨rfl, rfl, by decide⟩
  refine ⟨⟨hc, hout⟩, _, _, rfl, rfl, ?_⟩
  obtain ⟨-, -, -, hwhole, -⟩ := shutdown_keeps_alerts hc hout anyMatcher {} crossedMoves
  have hreturned : (Runs.after (step anyMatcher) (start (.fresh 1) { chunk := some 5 } {})
      crossedMoves).main = .returned := by decide +kernel
  obtain ⟨⟨alerts, halerts, hwritten⟩, unhandled, hpublished, hleft⟩ := hwhole hreturned
  refine ⟨hreturned, ?_, ?_⟩
  · have hhits : (Runs.events (step anyMatcher) (start (.fresh 1) { chunk := some 5 } {})
        crossedMoves).flatMap alertedBy =
        [(⟨1, 0⟩, sampleOfPid 1), (⟨2, 0⟩, sampleOfPid 2)] := by decide +kernel
    have hfirst : alertOf? anyMatcher (⟨1, 0⟩, sampleOfPid 1) =
        some ⟨"any", "INFO", ⟨1, 0⟩, ⟨1, 0, 0, 0, "", "", ""⟩⟩ := by decide +kernel
    have hsecond : alertOf? anyMatcher (⟨2, 0⟩, sampleOfPid 2) =
        some ⟨"any", "INFO", ⟨2, 0⟩, ⟨2, 0, 0, 0, "", "", ""⟩⟩ := by decide +kernel
    rw [hhits] at halerts
    cases halerts with
    | cons h halerts =>
      cases halerts with
      | cons h' halerts =>
        cases halerts
        cases hfirst.symm.trans h
        cases hsecond.symm.trans h'
        exact hwritten
  · have hshare : (Runs.events (step anyMatcher) (start (.fresh 1) { chunk := some 5 } {})
        crossedMoves).flatMap publishedBy =
        (Runs.events (step anyMatcher) (start (.fresh 1) { chunk := some 5 } {})
          crossedMoves).flatMap handledBy ++ [sampleOfPid 3] := by decide +kernel
    obtain rfl : [sampleOfPid 3] = unhandled := List.append_cancel_left (hshare.symm.trans hpublished)
    rcases hleft with ⟨-, hnone⟩ | ⟨before, later, hsplit, -, hlater⟩
    · have hdrain : .foundEmpty ∈ Runs.events (step anyMatcher)
          (start (.fresh 1) { chunk := some 5 } {}) crossedMoves := by decide +kernel
      cases hnone _ hdrain
    · exact ⟨before, later, hsplit, hlater⟩

end ExecWatch.Engine.Parties
