import ExecWatch.Proofs.Engine.Turns

/-!
# What turns leave behind

Each turn shows what happened, and the state agrees with all that has happened so far. Main statements:

* `turn_conserves_samples`, `turn_conserves_alerts`: no turn loses a sample or an accepted alert;
* `Wrote.turn`: the sink's task writes what it received as one run of lines would (`Wrote`);
* `Drained.turn`: what lies in the ring between two drains was published since the last empty poll
  (`Drained`).
-/

namespace ExecWatch.Engine

/-- The reader is between a look at the flag and the empty poll that ends the drain. -/
def Reader.drains : Reader → Bool
  | .draining _ | .handling _ => true
  | _ => false

namespace Parties

section
variable {m : Matcher} {s s' : Parties} {move : Move} {e : Event}

/-! ## What no turn loses -/

/-- The sample that an event publishes. -/
def publishedBy : Event → List Bytes
  | .published sample => [sample]
  | _ => []

/-- The sample that an event handles. -/
def handledBy : Event → List Bytes
  | .handled _ sample _ => [sample]
  | _ => []

/-- The sample that an event alerts, with the time at which it does. -/
def alertedBy : Event → List (Timestamp × Bytes)
  | .handled now sample .alerted => [(now, sample)]
  | _ => []

/-- The alert of a sample that is handled at a given time, if a rule hits it. -/
def alertOf? (m : Matcher) (hit : Timestamp × Bytes) : Option Alert :=
  Handler.alertOf? m hit.1 hit.2

/-- The alert that an event takes out of the channel. -/
def receivedBy : Event → List Alert
  | .received alert => [alert]
  | _ => []

/-- Samples that are not handled yet: that in the reader's hands and those in the ring. -/
def pending (s : Parties) : List Bytes :=
  match s.reader with
  | .handling sample => sample :: s.ring
  | _ => s.ring

theorem turn_conserves_samples (h : s.Held) (hturn : Turn m s move s' e) :
    handledBy e ++ s'.pending = s.pending ++ publishedBy e := by
  cases hturn with
  | published =>
    unfold pending
    cases s.reader <;> rfl
  | took hreader hring => simp [pending, hreader, hring, handledBy, publishedBy]
  | @foundEmpty _ _ busy hreader => cases busy <;> simp [pending, hreader, handledBy, publishedBy]
  | sawRaised hreader | sawLowered hreader | handled hreader | woke hreader | left hreader =>
    simp [pending, hreader, handledBy, publishedBy]
  | started hmain => simp [pending, h.unstarted.1 hmain, handledBy, publishedBy]
  | _ => simp [pending, handledBy, publishedBy, endWriter]

theorem turn_conserves_alerts (h : s.Held) (hturn : Turn m s move s' e) :
    receivedBy e ++ s'.channel.queue =
      s.channel.queue ++ (alertedBy e).filterMap (alertOf? m) := by
  cases hturn with
  | @handled now _ sample hreader =>
    rw [Handler.handle_queue]
    simp only [receivedBy, List.nil_append]
    cases (Handler.handle m now s.channel sample).2.1 with
    | alerted =>
      cases halert : Handler.alertOf? m now sample <;> simp [Handler.alerted?, alertedBy, alertOf?, halert]
    | _ => rfl
  | received hwriter hqueue => simp [hqueue, receivedBy, alertedBy]
  | disconnected hwriter hqueue => simp [hqueue, receivedBy, alertedBy, endWriter, Channel.dropReceiver]
  | writeFailed _ hwrite => exact absurd hwrite h.reliable.writeAll_ne_error
  | flushFailed _ hflush => exact absurd hflush h.reliable.flush_ne_error
  | _ => simp [receivedBy, alertedBy, Channel.dropSender]

/-- A sample that is alerted has an alert. -/
theorem isSome_of_alertedBy (hturn : Turn m s move s' e) :
    ∀ hit ∈ alertedBy e, (alertOf? m hit).isSome = true := by
  cases hturn with
  | @handled now _ sample hreader =>
    have h := Handler.handled m now s.channel sample
    generalize (Handler.handle m now s.channel sample).1 = next,
      (Handler.handle m now s.channel sample).2.1 = outcome at h
    cases h with
    | alerted hdecode hmatch => simp [alertedBy, alertOf?, Handler.alertOf?, hdecode, hmatch]
    | _ => exact List.forall_mem_nil _
  | _ => exact List.forall_mem_nil _

/-! ## What is written -/

/-- The sink's task has received `received` and writes it as one run of lines would. -/
def Wrote (out : Sink) (received : List Alert) (s : Parties) : Prop :=
  match s.writer with
  | .receiving => out.writeLines received = (s.sink, .ok ())
  | .writing alert => ∃ before, received = before ++ [alert] ∧ out.writeLines before = (s.sink, .ok ())
  | .flushing => ∃ before alert sink, received = before ++ [alert] ∧
      out.writeLines before = (sink, .ok ()) ∧
      sink.writeAll (Utf8.encode alert.line) = (s.sink, .ok ())
  | .ended result => out.writeLines received = (s.sink, result)

theorem Wrote.turn {out : Sink} {received : List Alert} (h : s.Wrote out received)
    (hturn : Turn m s move s' e) : s'.Wrote out (received ++ receivedBy e) := by
  cases hturn with
  | @received alert rest hwriter hqueue =>
    simp only [Wrote, hwriter] at h
    exact ⟨received, rfl, h⟩
  | disconnected hwriter =>
    simp only [Wrote, hwriter] at h
    simpa [Wrote, endWriter, receivedBy] using h
  | @wrote alert sink hwriter hwrite =>
    simp only [Wrote, hwriter] at h
    obtain ⟨before, hreceived, hbefore⟩ := h
    exact ⟨before, alert, s.sink, by simpa [receivedBy] using hreceived, hbefore, hwrite⟩
  | @writeFailed alert sink cause hwriter hwrite =>
    simp only [Wrote, hwriter] at h
    obtain ⟨before, rfl, hbefore⟩ := h
    show out.writeLines (before ++ [alert] ++ []) = _
    rw [List.append_nil, Sink.writeLines_append hbefore, Sink.writeLines, hwrite]
    rfl
  | @flushed sink hwriter hflush =>
    simp only [Wrote, hwriter] at h
    obtain ⟨before, alert, last, rfl, hbefore, hwrite⟩ := h
    show out.writeLines (before ++ [alert] ++ []) = _
    rw [List.append_nil, Sink.writeLines_append hbefore, Sink.writeLines, hwrite]
    simp only [hflush, Sink.writeLines]
  | @flushFailed sink cause hwriter hflush =>
    simp only [Wrote, hwriter] at h
    obtain ⟨before, alert, last, rfl, hbefore, hwrite⟩ := h
    show out.writeLines (before ++ [alert] ++ []) = _
    rw [List.append_nil, Sink.writeLines_append hbefore, Sink.writeLines, hwrite]
    simp only [hflush, endWriter]
  | _ => simpa [Wrote, receivedBy] using h

/-! ## What is left in the ring -/

/-- Part of a drain: finding the flag lowered, which begins it, and all that the reader does until it
looks at the flag again. -/
def inDrain : Event → Bool
  | .checked raised => !raised
  | .took _ | .foundEmpty | .handled .. => true
  | _ => false

/-- The ring holds what was published since the last empty poll, and no drain has begun since; if there
was no such poll, there was no drain. -/
def Unread (es : List Event) (ring : List Bytes) : Prop :=
  ∃ before later, es = before ++ later ∧ (before = [] ∨ before.getLast? = some .foundEmpty) ∧
    (∀ e ∈ later, inDrain e = false) ∧ ring = later.flatMap publishedBy

theorem Unread.append {es : List Event} {ring : List Bytes} (h : Unread es ring)
    (he : inDrain e = false) : Unread (es ++ [e]) (ring ++ publishedBy e) := by
  obtain ⟨before, later, rfl, hlast, hlater, rfl⟩ := h
  refine ⟨before, later ++ [e], List.append_assoc .., hlast, ?_, by simp⟩
  intro e' he'
  rcases List.mem_append.1 he' with he' | he'
  · exact hlater e' he'
  · rw [List.mem_singleton.1 he']
    exact he

/-- Between two drains the ring is as `Unread` says, and a reader that left has seen the flag. -/
structure Drained (es : List Event) (s : Parties) : Prop where
  unread : s.reader.drains = false → Unread es s.ring
  seen : s.reader = .leaving ∨ s.reader = .finished → .checked true ∈ es

theorem Drained.start (c : Channel Alert) (out : Sink) (flag : ShutdownFlag) :
    Drained [] (start c out flag) := by
  refine ⟨fun _ => ⟨[], [], rfl, .inl rfl, nofun, rfl⟩, ?_⟩
  rintro (hleft | hleft) <;> cases hleft

/-- Outside a drain only what is published changes the ring. -/
theorem Drained.append {es : List Event} (h : Drained es s) (hreader : s.reader.drains = false)
    (hring : s'.ring = s.ring ++ publishedBy e) (he : inDrain e = false)
    (hseen : s'.reader = .leaving ∨ s'.reader = .finished → .checked true ∈ es ++ [e]) :
    Drained (es ++ [e]) s' := by
  refine ⟨fun _ => ?_, hseen⟩
  rw [hring]
  exact (h.unread hreader).append he

theorem Drained.idle {es : List Event} (h : Drained es s) (hreader : s'.reader = s.reader)
    (hring : s'.ring = s.ring ++ publishedBy e) (he : inDrain e = false) : Drained (es ++ [e]) s' := by
  refine ⟨?_, ?_⟩
  · rw [hreader, hring]
    exact fun hdrains => (h.unread hdrains).append he
  · rw [hreader]
    exact fun hleft => List.mem_append_left _ (h.seen hleft)

theorem Drained.turn {es : List Event} (h : Drained es s) (hheld : s.Held)
    (hturn : Turn m s move s' e) : Drained (es ++ [e]) s' := by
  have hsame : s.ring = s.ring ++ [] := (List.append_nil _).symm
  cases hturn with
  | published => exact h.idle rfl rfl rfl
  | sawRaised hreader =>
    exact h.append (by rw [hreader]; rfl) hsame rfl fun _ => by simp
  | sawLowered | took | handled => exact ⟨nofun, nofun⟩
  | @foundEmpty _ _ busy hreader hring =>
    refine ⟨fun _ => ⟨es ++ [.foundEmpty], [], (List.append_nil _).symm, .inr ?_, nofun, hring⟩, ?_⟩
    · exact List.getLast?_concat
    · cases busy <;> exact nofun
  | woke hreader => exact h.append (by rw [hreader]; rfl) hsame rfl nofun
  | left hreader =>
    exact h.append (by rw [hreader]; rfl) hsame rfl fun _ =>
      List.mem_append_left _ (h.seen (.inl hreader))
  | started hmain =>
    exact h.append (by rw [hheld.unstarted.1 hmain]; rfl) hsame rfl nofun
  | _ => exact h.idle rfl hsame rfl

end

end Parties

end ExecWatch.Engine
