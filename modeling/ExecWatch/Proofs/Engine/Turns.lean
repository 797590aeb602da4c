import ExecWatch.Engine.Parties
import ExecWatch.Proofs.Alert.Ends
import ExecWatch.Proofs.Alert.History
import ExecWatch.Proofs.Alert.Lines

/-!
# Turns of the parties

What one party does with one turn, and who holds the ends of the channel after it. Main statements:

* `turn_step`: everything that a turn can do, case by case (`Turn`);
* `Held.turn`: every turn keeps the order in which the parties let go of what they hold (`Held`).
-/

namespace ExecWatch.Engine

/-- The main task still has the probe, and the sender in it. -/
def MainTask.hasProbe : MainTask → Bool
  | .starting | .started => true
  | _ => false

/-- Ctrl-C was pressed. -/
def MainTask.interrupted : MainTask → Bool
  | .joining | .awaiting | .returned => true
  | _ => false

/-- Ctrl-C is waited for only after the probe is dropped. -/
theorem MainTask.hasProbe_of_interrupted {main : MainTask} (h : main.interrupted = true) :
    main.hasProbe = false := by
  cases main with
  | starting | started => cases h
  | _ => rfl

/-- The reader's thread is there, and the sender in its handler. -/
def Reader.runs : Reader → Bool
  | .unstarted | .finished => false
  | _ => true

/-- The task of the sink is there, and the receiver with it. -/
def Writer.runs : Writer → Bool
  | .ended _ => false
  | _ => true

theorem Writer.runs_iff (w : Writer) : w.runs = true ↔ ∀ result, w ≠ .ended result := by
  cases w <;> simp [runs]

theorem Reader.runs_iff (r : Reader) : r.runs = true ↔ r ≠ .unstarted ∧ r ≠ .finished := by
  cases r <;> simp [runs]

namespace Parties

/-! ## Turns -/

/-- Everything that a turn can do. -/
inductive Turn (m : Matcher) (s : Parties) : Move → Parties → Event → Prop
  | published {sample : Bytes} :
      Turn m s (.publish sample) { s with ring := s.ring ++ [sample] } (.published sample)
  | sawRaised {now : Timestamp} (hreader : s.reader = .checking) (hflag : s.flag.raised = true) :
      Turn m s (.read now true) { s with reader := .leaving } (.checked true)
  | sawLowered {now : Timestamp} {fresh : Bool} (hreader : s.reader = .checking)
      (hflag : (fresh && s.flag.raised) = false) :
      Turn m s (.read now fresh) { s with reader := .draining false } (.checked false)
  | took {now : Timestamp} {fresh busy : Bool} {sample : Bytes} {rest : List Bytes}
      (hreader : s.reader = .draining busy) (hring : s.ring = sample :: rest) :
      Turn m s (.read now fresh) { s with ring := rest, reader := .handling sample } (.took sample)
  | foundEmpty {now : Timestamp} {fresh busy : Bool} (hreader : s.reader = .draining busy)
      (hring : s.ring = []) :
      Turn m s (.read now fresh) { s with reader := if busy then .checking else .sleeping } .foundEmpty
  | handled {now : Timestamp} {fresh : Bool} {sample : Bytes} (hreader : s.reader = .handling sample) :
      Turn m s (.read now fresh)
        { s with channel := (Handler.handle m now s.channel sample).1, reader := .draining true }
        (.handled now sample (Handler.handle m now s.channel sample).2.1)
  | woke {now : Timestamp} {fresh : Bool} (hreader : s.reader = .sleeping) :
      Turn m s (.read now fresh) { s with reader := .checking } .went
  | left {now : Timestamp} {fresh : Bool} (hreader : s.reader = .leaving) :
      Turn m s (.read now fresh)
        { s with channel := s.channel.dropSender, reader := .finished } .went
  | readerWaits {now : Timestamp} {fresh : Bool}
      (hreader : s.reader = .unstarted ∨ s.reader = .finished) :
      Turn m s (.read now fresh) s .waited
  | received {alert : Alert} {rest : List Alert} (hwriter : s.writer = .receiving)
      (hqueue : s.channel.queue = alert :: rest) :
      Turn m s .write { s with channel.queue := rest, writer := .writing alert } (.received alert)
  | disconnected (hwriter : s.writer = .receiving) (hqueue : s.channel.queue = [])
      (hended : s.channel.senders = 0 ∨ s.channel.receiver ≠ .opened) :
      Turn m s .write (s.endWriter (.ok ())) .went
  | wrote {alert : Alert} {sink : Sink} (hwriter : s.writer = .writing alert)
      (hwrite : s.sink.writeAll (Utf8.encode alert.line) = (sink, .ok ())) :
      Turn m s .write { s with sink := sink, writer := .flushing } .went
  | writeFailed {alert : Alert} {sink : Sink} {cause : Sink.Fault} (hwriter : s.writer = .writing alert)
      (hwrite : s.sink.writeAll (Utf8.encode alert.line) = (sink, .error cause)) :
      Turn m s .write ({ s with sink := sink }.endWriter (.error (.write cause))) .went
  | flushed {sink : Sink} (hwriter : s.writer = .flushing) (hflush : s.sink.flush = (sink, .ok ())) :
      Turn m s .write { s with sink := sink, writer := .receiving } .went
  | flushFailed {sink : Sink} {cause : Sink.Fault} (hwriter : s.writer = .flushing)
      (hflush : s.sink.flush = (sink, .error cause)) :
      Turn m s .write ({ s with sink := sink }.endWriter (.error (.flush cause))) .went
  | writerWaits (hwriter : (s.writer = .receiving ∧ s.channel.queue = [] ∧ s.channel.senders ≠ 0) ∨
        ∃ result, s.writer = .ended result) :
      Turn m s .write s .waited
  | started (hmain : s.main = .starting) :
      Turn m s .proceed
        { s with channel := s.channel.cloneSender, reader := .checking, main := .started } .went
  | droppedProbe (hmain : s.main = .started) :
      Turn m s .proceed { s with channel := s.channel.dropSender, main := .monitoring } .went
  | interrupted (hmain : s.main = .monitoring) :
      Turn m s .proceed { s with flag := s.flag.request, main := .joining } .went
  | joined (hmain : s.main = .joining) (hreader : s.reader = .finished) :
      Turn m s .proceed { s with main := .awaiting } .went
  | returned {result : Except Sink.Error Unit} (hmain : s.main = .awaiting)
      (hwriter : s.writer = .ended result) :
      Turn m s .proceed { s with main := .returned } .went
  | mainWaits (hmain : (s.main = .joining ∧ s.reader ≠ .finished) ∨
        (s.main = .awaiting ∧ ∀ result, s.writer ≠ .ended result) ∨ s.main = .returned) :
      Turn m s .proceed s .waited

theorem turn_read (m : Matcher) (now : Timestamp) (fresh : Bool) (s : Parties) :
    Turn m s (.read now fresh) (s.read m now fresh).1 (s.read m now fresh).2 := by
  unfold read
  split
  · rename_i hreader
    exact .readerWaits (.inl hreader)
  · rename_i hreader
    exact .readerWaits (.inr hreader)
  · rename_i hreader
    split
    · rename_i hseen
      obtain ⟨rfl, hflag⟩ := Bool.and_eq_true_iff.1 hseen
      exact .sawRaised hreader hflag
    · rename_i hunseen
      exact .sawLowered hreader (Bool.eq_false_iff.2 hunseen)
  · rename_i hreader
    split
    · rename_i hring
      exact .foundEmpty hreader hring
    · rename_i hring
      exact .took hreader hring
  · rename_i hreader
    exact .handled hreader
  · rename_i hreader
    exact .woke hreader
  · rename_i hreader
    exact .left hreader

theorem turn_write (m : Matcher) (s : Parties) : Turn m s .write s.write.1 s.write.2 := by
  have hreceives := s.channel.receives
  unfold write
  split
  · rename_i hwriter
    split
    · rename_i c alert hfound
      rw [hfound] at hreceives
      obtain ⟨rest, hqueue, hnext⟩ := (hreceives.value alert).1 rfl
      cases hnext
      exact .received hwriter hqueue
    · rename_i c hfound
      rw [hfound] at hreceives
      obtain ⟨hqueue, hended⟩ := hreceives.empty.1 rfl
      exact .writerWaits (.inl ⟨hwriter, hqueue, fun hnone => hended (.inl hnone)⟩)
    · rename_i c hfound
      rw [hfound] at hreceives
      obtain ⟨hqueue, hended⟩ := hreceives.disconnected.1 rfl
      exact .disconnected hwriter hqueue hended
  · rename_i hwriter
    split
    · rename_i hwrite
      exact .wrote hwriter hwrite
    · rename_i hwrite
      exact .writeFailed hwriter hwrite
  · rename_i hwriter
    split
    · rename_i hflush
      exact .flushed hwriter hflush
    · rename_i hflush
      exact .flushFailed hwriter hflush
  · rename_i result hwriter
    exact .writerWaits (.inr ⟨result, hwriter⟩)

theorem turn_proceed (m : Matcher) (s : Parties) : Turn m s .proceed s.proceed.1 s.proceed.2 := by
  unfold proceed
  split
  · rename_i hmain
    exact .started hmain
  · rename_i hmain
    exact .droppedProbe hmain
  · rename_i hmain
    exact .interrupted hmain
  · rename_i hmain
    split
    · rename_i hreader
      exact .joined hmain hreader
    · rename_i hreader
      exact .mainWaits (.inl ⟨hmain, hreader⟩)
  · rename_i hmain
    split
    · rename_i hwriter
      exact .returned hmain hwriter
    · rename_i hwriter
      exact .mainWaits (.inr (.inl ⟨hmain, hwriter⟩))
  · rename_i hmain
    exact .mainWaits (.inr (.inr hmain))

theorem turn_step (m : Matcher) (s : Parties) (move : Move) :
    Turn m s move (step m s move).1 (step m s move).2 := by
  cases move with
  | publish sample => exact .published
  | read now fresh => exact turn_read m now fresh s
  | write => exact turn_write m s
  | proceed => exact turn_proceed m s

/-! ## Who holds what -/

/-- Who holds the ends of the channel, and how far a party can be ahead of the others: the reader is
joined before the sink's task is awaited, and that ends only when no sender is left and nothing is
queued. -/
structure Held (s : Parties) : Prop where
  senders : s.channel.senders = s.main.hasProbe.toNat + s.reader.runs.toNat
  unstarted : s.main = .starting ↔ s.reader = .unstarted
  raised : s.main.interrupted = true → s.flag.raised = true
  joined : s.main = .awaiting ∨ s.main = .returned → s.reader = .finished
  returned : s.main = .returned → ∃ result, s.writer = .ended result
  opened : s.writer.runs = true → s.channel.receiver = .opened
  ended : ∀ result, s.writer = .ended result →
    result = .ok () ∧ s.channel.senders = 0 ∧ s.channel.queue = []
  reliable : s.sink.Reliable

theorem Held.start (capacity : Nat) {out : Sink} (hout : out.Reliable) (flag : ShutdownFlag) :
    (start (.fresh capacity) out flag).Held where
  senders := rfl
  unstarted := iff_of_true rfl rfl
  raised := nofun
  joined := nofun
  returned := nofun
  opened _ := rfl
  ended := nofun
  reliable := hout

section
variable {m : Matcher} {s s' : Parties} {move : Move} {e : Event}

/-- The sink's task goes on while the probe or the reader holds a sender. -/
theorem Held.not_ended (h : s.Held) (hholds : s.main.hasProbe = true ∨ s.reader.runs = true)
    (result : Except Sink.Error Unit) : s.writer ≠ .ended result := by
  intro hwriter
  have hsenders := h.senders
  rw [(h.ended result hwriter).2.1] at hsenders
  have hone : true.toNat = 1 := rfl
  rcases hholds with hholds | hholds
  · rw [hholds] at hsenders
    omega
  · rw [hholds] at hsenders
    omega

/-- A reader that goes on holds what it held, whatever is in the ring and in the queue. -/
theorem Held.reads_on (h : s.Held) (hruns : s.reader.runs = true) {reader : Reader}
    (hnext : reader.runs = true) (ring : List Bytes) (queue : List Alert) :
    Held { s with ring := ring, channel.queue := queue, reader := reader } := by
  obtain ⟨hstarted, hthere⟩ := (Reader.runs_iff _).1 hruns
  obtain ⟨hstarted', -⟩ := (Reader.runs_iff _).1 hnext
  exact { h with
    senders := by rw [hnext, ← hruns]; exact h.senders
    unstarted := iff_of_false (fun hmain => hstarted (h.unstarted.1 hmain)) hstarted'
    joined := fun hmain => absurd (h.joined hmain) hthere
    ended := fun result hwriter => absurd hwriter (h.not_ended (.inr hruns) result) }

/-- So does a task of the sink that goes on, if the sink stays reliable. -/
theorem Held.writes_on (h : s.Held) (hruns : s.writer.runs = true) {writer : Writer}
    (hnext : writer.runs = true) (queue : List Alert) {sink : Sink}
    (hreliable : sink.Reliable) :
    Held { s with channel.queue := queue, sink := sink, writer := writer } := by
  exact { h with
    returned := fun hmain => by
      obtain ⟨result, hended⟩ := h.returned hmain
      exact absurd hended ((Writer.runs_iff _).1 hruns result)
    opened := fun _ => h.opened hruns
    ended := fun result hended => absurd hended ((Writer.runs_iff _).1 hnext result)
    reliable := hreliable }

/-- So does a main task without the probe, if it stops no sooner than it may. -/
theorem Held.proceeds (h : s.Held) (hprobe : s.main.hasProbe = false) {main : MainTask}
    (hnext : main.hasProbe = false) {flag : ShutdownFlag}
    (hraised : main.interrupted = true → flag.raised = true)
    (hjoined : main = .awaiting ∨ main = .returned → s.reader = .finished)
    (hreturned : main = .returned → ∃ result, s.writer = .ended result) :
    Held { s with flag := flag, main := main } := by
  have hstarted : s.reader ≠ .unstarted := by
    intro hreader
    rw [h.unstarted.2 hreader] at hprobe
    cases hprobe
  exact { h with
    senders := by rw [hnext, ← hprobe]; exact h.senders
    unstarted := iff_of_false (fun hmain : main = .starting => by rw [hmain] at hnext; cases hnext)
      hstarted
    raised := hraised
    joined := hjoined
    returned := hreturned }

/-- No turn lets go of an end of the channel that a party behind it still needs. -/
theorem Held.turn (h : s.Held) (hturn : Turn m s move s' e) : s'.Held := by
  cases hturn with
  | published => exact { h with }
  | sawRaised hreader => exact h.reads_on (by rw [hreader]; rfl) rfl s.ring s.channel.queue
  | sawLowered hreader => exact h.reads_on (by rw [hreader]; rfl) rfl s.ring s.channel.queue
  | @took _ _ _ _ rest hreader => exact h.reads_on (by rw [hreader]; rfl) rfl rest s.channel.queue
  | @foundEmpty _ _ busy hreader =>
    exact h.reads_on (by rw [hreader]; rfl) (by cases busy <;> rfl) s.ring s.channel.queue
  | handled hreader =>
    rw [Handler.handle_queue]
    exact h.reads_on (by rw [hreader]; rfl) rfl s.ring _
  | woke hreader => exact h.reads_on (by rw [hreader]; rfl) rfl s.ring s.channel.queue
  | left hreader =>
    have hruns : s.reader.runs = true := by rw [hreader]; rfl
    have hsenders := h.senders
    rw [hruns] at hsenders
    obtain ⟨hstarted, -⟩ := (Reader.runs_iff _).1 hruns
    exact { h with
      senders := by
        show s.channel.senders - 1 = _
        rw [hsenders]
        rfl
      unstarted := iff_of_false (fun hmain => hstarted (h.unstarted.1 hmain)) (by simp)
      joined := fun _ => rfl
      ended := fun result hwriter => absurd hwriter (h.not_ended (.inr hruns) result) }
  | readerWaits => exact h
  | @received _ rest hwriter =>
    exact h.writes_on (by rw [hwriter]; rfl) rfl rest h.reliable
  | disconnected hwriter hqueue hended =>
    -- only the task itself takes the receiver away, so it is the senders that are gone
    have hopened := h.opened (by rw [hwriter]; rfl)
    have hnone : s.channel.senders = 0 := hended.resolve_right (not_not_intro hopened)
    exact { h with
      returned := fun _ => ⟨_, rfl⟩
      opened := fun hruns => absurd hruns Bool.false_ne_true
      ended := by
        intro result hresult
        cases hresult
        exact ⟨rfl, hnone, rfl⟩ }
  | wrote hwriter hwrite =>
    obtain ⟨sink, htook, hreliable⟩ := h.reliable.writeAll_ok _
    cases hwrite.symm.trans htook
    exact h.writes_on (by rw [hwriter]; rfl) rfl s.channel.queue hreliable
  | writeFailed _ hwrite => exact absurd hwrite h.reliable.writeAll_ne_error
  | flushed hwriter hflush =>
    obtain ⟨sink, htook, hreliable⟩ := h.reliable.flush_ok
    cases hflush.symm.trans htook
    exact h.writes_on (by rw [hwriter]; rfl) rfl s.channel.queue hreliable
  | flushFailed _ hflush => exact absurd hflush h.reliable.flush_ne_error
  | writerWaits => exact h
  | started hmain =>
    have hprobe : s.main.hasProbe = true := by rw [hmain]; rfl
    have hsenders := h.senders
    rw [hprobe, h.unstarted.1 hmain] at hsenders
    exact { h with
      senders := by
        rw [Channel.cloneSender, if_neg (by rw [hsenders]; decide)]
        show s.channel.senders + 1 = _
        rw [hsenders]
        rfl
      unstarted := iff_of_false (by simp) (by simp)
      raised := fun hpast => absurd hpast Bool.false_ne_true
      joined := by simp
      returned := by simp
      opened := fun hwriter => by
        rw [Channel.cloneSender_receiver]
        exact h.opened hwriter
      ended := fun result hwriter => absurd hwriter (h.not_ended (.inl hprobe) result) }
  | droppedProbe hmain =>
    -- the reader has its clone by now, unless it has already left
    have hprobe : s.main.hasProbe = true := by rw [hmain]; rfl
    have hsenders := h.senders
    rw [hprobe] at hsenders
    have hstarted : s.reader ≠ .unstarted := fun hreader => by
      cases hmain.symm.trans (h.unstarted.2 hreader)
    exact { h with
      senders := by
        show s.channel.senders - 1 = _
        rw [hsenders]
        exact Nat.add_sub_cancel_left .. |>.trans (Nat.zero_add _).symm
      unstarted := iff_of_false (by simp) hstarted
      raised := fun hpast => absurd hpast Bool.false_ne_true
      joined := by simp
      returned := by simp
      ended := fun result hwriter => absurd hwriter (h.not_ended (.inl hprobe) result) }
  | interrupted hmain =>
    exact h.proceeds (by rw [hmain]; rfl) rfl (fun _ => s.flag.request_raised) (by simp) (by simp)
  | joined hmain hreader =>
    exact h.proceeds (by rw [hmain]; rfl) rfl (fun _ => h.raised (by rw [hmain]; rfl))
      (fun _ => hreader) (by simp)
  | @returned result hmain hwriter =>
    exact h.proceeds (by rw [hmain]; rfl) rfl (fun _ => h.raised (by rw [hmain]; rfl))
      (fun _ => h.joined (.inl hmain)) fun _ => ⟨result, hwriter⟩
  | mainWaits => exact h

end

end Parties

end ExecWatch.Engine
