import ExecWatch.Proofs.Engine.Turns
import ExecWatch.Proofs.Runs

/-!
# An interrupted run returns

After Ctrl-C, no party waits for ever: once the kernel publishes nothing more and the raised flag has
become visible to the reader, the run returns. Main statements:

* `turn_remaining`: such a turn leaves less to do (`remaining`), unless it is waited out;
* `returned_of_waited`: where everybody waits, the run has returned;
* `returns_of_rounds`: after as many rounds of turns (`Round`) as there was left to do, it has returned.
-/

namespace ExecWatch.Engine

/-! ## What is left to do -/

/-- How far the reader is from its end, once the flag is raised and the ring is empty; a sample in its
hands may still make an alert. -/
def Reader.remaining : Reader → Nat
  | .unstarted | .finished => 0
  | .leaving => 1
  | .checking => 2
  | .sleeping => 3
  | .draining _ => 4
  | .handling _ => 8

/-- How far the sink's task is from its end, once nothing is queued. -/
def Writer.remaining : Writer → Nat
  | .ended _ => 0
  | .receiving => 1
  | .flushing => 2
  | .writing _ => 3

def MainTask.remaining : MainTask → Nat
  | .joining => 2
  | .awaiting => 1
  | _ => 0

theorem MainTask.eq_returned {main : MainTask} (h : main.interrupted = true)
    (hnone : main.remaining = 0) : main = .returned := by
  cases main with
  | returned => rfl
  | joining | awaiting => cases hnone
  | _ => cases h

namespace Parties

/-- What is left to do until the run returns. A sample in the ring costs a turn more than one in the
reader's hands, and a queued alert three: to be received, written and flushed. -/
def remaining (s : Parties) : Nat :=
  5 * s.ring.length + s.reader.remaining + 3 * s.channel.queue.length + s.writer.remaining +
    s.main.remaining

/-- The kernel publishes nothing, and the reader reads the flag as it is. -/
def Move.calm : Move → Bool
  | .publish _ => false
  | .read _ fresh => fresh
  | _ => true

/-- Calm turns, one at least of each party but the kernel. -/
structure Round (moves : List Move) : Prop where
  calm : ∀ move ∈ moves, move.calm = true
  reads : ∃ now, .read now true ∈ moves
  writes : .write ∈ moves
  proceeds : .proceed ∈ moves

variable {m : Matcher} {s s' : Parties} {move : Move} {e : Event}

theorem turn_interrupted (h : s.main.interrupted = true) (hturn : Turn m s move s' e) :
    s'.main.interrupted = true := by
  cases hturn with
  | started hmain | droppedProbe hmain =>
    rw [hmain] at h
    cases h
  | interrupted | joined | returned => rfl
  | _ => exact h

theorem turn_returned (h : s.main = .returned) (hturn : Turn m s move s' e) : s'.main = .returned := by
  cases hturn with
  | started hmain | droppedProbe hmain | interrupted hmain | joined hmain | returned hmain =>
    cases h.symm.trans hmain
  | _ => exact h

theorem turn_waited (hturn : Turn m s move s' .waited) : s' = s := by
  cases hturn <;> rfl

/-- A calm turn after Ctrl-C that is not waited out leaves less to do. -/
theorem turn_remaining (h : s.Held) (hmain : s.main.interrupted = true) (hmove : move.calm = true)
    (hturn : Turn m s move s' e) (hwaited : e ≠ .waited) : s'.remaining < s.remaining := by
  cases hturn with
  | published => cases hmove
  | sawRaised hreader => simp [remaining, hreader, Reader.remaining]
  | sawLowered _ hflag =>
    -- a calm reader does not miss the raised flag
    rw [Move.calm] at hmove
    rw [hmove, h.raised hmain] at hflag
    cases hflag
  | took hreader hring =>
    simp only [remaining, hreader, hring, Reader.remaining, List.length_cons]
    omega
  | @foundEmpty _ _ busy hreader => cases busy <;> simp [remaining, hreader, Reader.remaining]
  | @handled now _ sample hreader =>
    rw [Handler.handle_queue]
    generalize Handler.alerted? m (.handle now sample) _ = alert
    have hone : alert.toList.length ≤ 1 := by cases alert <;> simp
    simp only [remaining, hreader, Reader.remaining, List.length_append]
    omega
  | woke hreader => simp [remaining, hreader, Reader.remaining]
  | left hreader => simp [remaining, hreader, Reader.remaining, Channel.dropSender]
  | received hwriter hqueue =>
    simp only [remaining, hwriter, hqueue, Writer.remaining, List.length_cons]
    omega
  | wrote hwriter | flushed hwriter => simp [remaining, hwriter, Writer.remaining]
  | disconnected hwriter | writeFailed hwriter | flushFailed hwriter =>
    simp only [remaining, hwriter, Writer.remaining, endWriter, Channel.dropReceiver, List.length_nil]
    omega
  | started hmain' | droppedProbe hmain' | interrupted hmain' =>
    rw [hmain'] at hmain
    cases hmain
  | joined hmain' | returned hmain' => simp [remaining, hmain', MainTask.remaining]
  | readerWaits | writerWaits | mainWaits => exact absurd rfl hwaited

/-! ## Rounds -/

/-- There is no deadlock: where everybody waits after Ctrl-C, the run has returned. -/
theorem returned_of_waited (h : s.Held) (hmain : s.main.interrupted = true) {now : Timestamp}
    {fresh : Bool} (hread : (step m s (.read now fresh)).2 = .waited)
    (hwrite : (step m s .write).2 = .waited) (hproceed : (step m s .proceed).2 = .waited) :
    s.main = .returned := by
  have hreads := turn_step m s (.read now fresh)
  have hwrites := turn_step m s .write
  have hproceeds := turn_step m s .proceed
  rw [hread] at hreads
  rw [hwrite] at hwrites
  rw [hproceed] at hproceeds
  have hprobe := MainTask.hasProbe_of_interrupted hmain
  have hreader : s.reader = .finished := by
    generalize (step m s (.read now fresh)).1 = next at hreads
    cases hreads with
    | readerWaits hreader =>
      rcases hreader with hreader | hreader
      · rw [h.unstarted.2 hreader] at hprobe
        cases hprobe
      · exact hreader
  have hsenders : s.channel.senders = 0 := by
    rw [h.senders, hprobe, hreader]
    rfl
  have hwriter : ∃ result, s.writer = .ended result := by
    generalize (step m s .write).1 = next at hwrites
    cases hwrites with
    | writerWaits hwriter =>
      rcases hwriter with ⟨-, -, hsome⟩ | hended
      · exact absurd hsenders hsome
      · exact hended
  generalize (step m s .proceed).1 = next at hproceeds
  cases hproceeds with
  | mainWaits hwaits =>
    rcases hwaits with ⟨-, hthere⟩ | ⟨-, hnot⟩ | hreturned
    · exact absurd hreader hthere
    · obtain ⟨result, hended⟩ := hwriter
      exact absurd hended (hnot result)
    · exact hreturned

/-- Calm turns after Ctrl-C are all waited out, or leave less to do. -/
theorem waited_or_remaining (h : s.Held) (hmain : s.main.interrupted = true) {moves : List Move}
    (hcalm : ∀ move ∈ moves, move.calm = true) :
    (Runs.after (step m) s moves = s ∧ ∀ move ∈ moves, (step m s move).2 = .waited) ∨
      (Runs.after (step m) s moves).remaining < s.remaining := by
  induction moves generalizing s with
  | nil => exact .inl ⟨rfl, nofun⟩
  | cons move rest ih =>
    obtain ⟨hmove, hrest⟩ := List.forall_mem_cons.1 hcalm
    have hturn := turn_step m s move
    have hlater := ih (h.turn hturn) (turn_interrupted hmain hturn) hrest
    rw [Runs.after_cons]
    by_cases hwaited : (step m s move).2 = .waited
    · have hsame : (step m s move).1 = s := turn_waited (hwaited ▸ hturn)
      rw [hsame] at hlater ⊢
      rcases hlater with ⟨hafter, hall⟩ | hless
      · exact .inl ⟨hafter, List.forall_mem_cons.2 ⟨hwaited, hall⟩⟩
      · exact .inr hless
    · have hless := turn_remaining h hmain hmove hturn hwaited
      rcases hlater with ⟨hafter, -⟩ | hless'
      · rw [hafter]
        exact .inr hless
      · exact .inr (Nat.lt_trans hless' hless)

/-- A round leaves less to do, unless the run has returned. -/
theorem Round.remaining {moves : List Move} (hround : Round moves) (h : s.Held) (hmain : s.main.interrupted = true)
    (hreturned : s.main ≠ .returned) : (Runs.after (step m) s moves).remaining < s.remaining := by
  rcases waited_or_remaining h hmain hround.calm with ⟨-, hall⟩ | hless
  · obtain ⟨now, hreads⟩ := hround.reads
    exact absurd (returned_of_waited h hmain (hall _ hreads) (hall _ hround.writes)
      (hall _ hround.proceeds)) hreturned
  · exact hless

theorem after_returned (h : s.main = .returned) (moves : List Move) :
    (Runs.after (step m) s moves).main = .returned :=
  Runs.after_induction (fun s move h => turn_returned h (turn_step m s move)) h moves

/-- **An interrupted run returns**, after as many rounds as there was left to do. -/
theorem returns_of_rounds (h : s.Held) (hmain : s.main.interrupted = true) {rounds : List (List Move)}
    (hrounds : ∀ round ∈ rounds, Round round) (henough : s.remaining ≤ rounds.length) :
    (Runs.after (step m) s rounds.flatten).main = .returned := by
  induction rounds generalizing s with
  | nil =>
    have hnone : s.main.remaining = 0 := by
      unfold remaining at henough
      rw [List.length_nil] at henough
      omega
    exact MainTask.eq_returned hmain hnone
  | cons round rest ih =>
    obtain ⟨hround, hrest⟩ := List.forall_mem_cons.1 hrounds
    rw [List.flatten_cons, Runs.after_append]
    by_cases hreturned : s.main = .returned
    · exact after_returned (after_returned hreturned round) rest.flatten
    · have hless := hround.remaining h hmain hreturned (m := m)
      obtain ⟨hheld, hmain'⟩ : (Runs.after (step m) s round).Held ∧
          (Runs.after (step m) s round).main.interrupted = true :=
        Runs.after_induction (P := fun s => s.Held ∧ s.main.interrupted = true)
          (fun s move h => ⟨h.1.turn (turn_step m s move), turn_interrupted h.2 (turn_step m s move)⟩)
          ⟨h, hmain⟩ round
      rw [List.length_cons] at henough
      exact ih hheld hmain' hrest (by omega)

end Parties

end ExecWatch.Engine
