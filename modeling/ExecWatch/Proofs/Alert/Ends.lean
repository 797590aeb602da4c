import ExecWatch.Proofs.Alert.Outcome
import ExecWatch.Proofs.Runs

/-!
# The two ends of the alert channel

Alerts are sent through any of several senders, which may be cloned and dropped one by one, while the
receiver takes alerts, closes the channel or is dropped. In every order of these steps:

* `step_keeps`: the channel's count is that of the senders that are left (`Ends.Counted`);
* `step_bounded`: no step queues more alerts than there is room for;
* `step_conserves`: one step hands out the oldest alert, or adds one that was accepted at the end;
* `receives`: what a receive finds, exactly (`Receives`);
* `bounded_fifo`: from a fresh channel all this along every run, and what a close leaves.
-/

namespace ExecWatch

/-! ## Channels -/

namespace Channel

variable {α : Type} (c : Channel α)

@[simp] theorem cloneSender_queue : c.cloneSender.queue = c.queue := by
  unfold cloneSender
  split <;> rfl

@[simp] theorem cloneSender_capacity : c.cloneSender.capacity = c.capacity := by
  unfold cloneSender
  split <;> rfl

@[simp] theorem cloneSender_receiver : c.cloneSender.receiver = c.receiver := by
  unfold cloneSender
  split <;> rfl

@[simp] theorem close_queue : c.close.queue = c.queue := by
  unfold close
  split <;> rfl

@[simp] theorem close_capacity : c.close.capacity = c.capacity := by
  unfold close
  split <;> rfl

@[simp] theorem close_senders : c.close.senders = c.senders := by
  unfold close
  split <;> rfl

theorem close_receiver : c.close.receiver = if c.receiver = .opened then .closed else c.receiver := by
  unfold close
  split <;> rfl

@[simp] theorem receive_capacity : c.receive.1.capacity = c.capacity := by
  unfold receive
  split <;> rfl

@[simp] theorem receive_senders : c.receive.1.senders = c.senders := by
  unfold receive
  split <;> rfl

@[simp] theorem receive_receiver : c.receive.1.receiver = c.receiver := by
  unfold receive
  split <;> rfl

/-- What a receive finds: the oldest value, or, where nothing is queued, whether one may follow. -/
structure Receives (ended : Prop) (next : Channel α) (found : Received α) : Prop where
  value : ∀ a, found = .value a ↔ ∃ rest, c.queue = a :: rest ∧ next = { c with queue := rest }
  disconnected : found = .disconnected ↔ c.queue = [] ∧ ended
  empty : found = .empty ↔ c.queue = [] ∧ ¬ ended
  kept : c.queue = [] → next = c

theorem receives : c.Receives (c.senders = 0 ∨ c.receiver ≠ .opened) c.receive.1 c.receive.2 := by
  unfold receive
  split
  · rename_i a rest hqueue
    constructor <;> simp [hqueue]
  · rename_i hqueue
    split
    · rename_i hended
      constructor <;> simp [hqueue, hended]
    · rename_i hended
      constructor <;> simp [hqueue, hended]

end Channel

/-- A sent alert is appended if the channel accepts, and nothing else changes. -/
theorem Alert.send_queue (c : Channel Alert) (a : Alert) :
    (send c a).1 = { c with queue := c.queue ++ if (send c a).2.1 then [a] else [] } := by
  by_cases haccepts : c.Accepts
  · simp [send_of_accepts haccepts]
  · obtain ⟨hsame, hsent⟩ := send_of_not_accepts haccepts a
    simp [hsame, hsent]

theorem Alert.send_eq_true_iff (c : Channel Alert) (a : Alert) :
    (send c a).2.1 = true ↔ c.Accepts := by
  by_cases haccepts : c.Accepts
  · simp [send_of_accepts haccepts, haccepts]
  · simp [(send_of_not_accepts haccepts a).2, haccepts]

namespace Channel

/-! ## Steps -/

/-- A channel with the numbers of the senders that are left, out of all that were made. -/
structure Ends where
  channel : Channel Alert
  live : List Nat
  made : Nat

/-- One thing that is done at one end. -/
inductive Step where
  | send (sender : Nat) (alert : Alert)
  | clone (sender : Nat)
  | dropSender (sender : Nat)
  | receive
  | close
  | dropReceiver
deriving DecidableEq

/-- What a step shows; nothing is done at an end that is gone. -/
inductive Event where
  | sent (alert : Alert) (accepted : Bool)
  | cloned (sender : Nat)
  | received (found : Received Alert)
  | done
  | gone

namespace Ends

/-- The ends of a channel as it is made. -/
def fresh (capacity : Nat) : Ends := ⟨.fresh capacity, [0], 1⟩

/-- The end at which a step is taken is there. -/
def Has (e : Ends) : Step → Prop
  | .send sender _ | .clone sender | .dropSender sender => sender ∈ e.live
  | .receive | .close | .dropReceiver => e.channel.receiver ≠ .dropped

instance (e : Ends) (s : Step) : Decidable (e.Has s) := by
  cases s <;> unfold Has <;> infer_instance

/-- What a step does at an end that is there. -/
def perform (e : Ends) : Step → Ends × Event
  | .send _ alert =>
    ({ e with channel := (Alert.send e.channel alert).1 },
      .sent alert (Alert.send e.channel alert).2.1)
  | .clone _ =>
    ({ channel := e.channel.cloneSender, live := e.live ++ [e.made], made := e.made + 1 },
      .cloned e.made)
  | .dropSender sender =>
    ({ e with channel := e.channel.dropSender, live := e.live.erase sender }, .done)
  | .receive => ({ e with channel := e.channel.receive.1 }, .received e.channel.receive.2)
  | .close => ({ e with channel := e.channel.close }, .done)
  | .dropReceiver => ({ e with channel := e.channel.dropReceiver }, .done)

/-- One step. -/
def step (e : Ends) (s : Step) : Ends × Event :=
  if e.Has s then e.perform s else (e, .gone)

/-- The alert that an event hands out. -/
def handed : Event → List Alert
  | .received (.value a) => [a]
  | _ => []

/-- The alert that an event accepts. -/
def accepted : Event → List Alert
  | .sent a true => [a]
  | _ => []

/-- The channel counts the senders that are left, and the next one made is none of them. -/
structure Counted (e : Ends) : Prop where
  senders : e.channel.senders = e.live.length
  distinct : e.live.Nodup
  made : ∀ sender ∈ e.live, sender < e.made

section
variable {e : Ends}

theorem step_keeps (h : e.Counted) (s : Step) : (e.step s).1.Counted := by
  obtain ⟨hsenders, hdistinct, hmade⟩ := h
  unfold step
  split
  · rename_i hthere
    cases s with
    | send sender a =>
      simp only [perform, Alert.send_queue]
      exact ⟨hsenders, hdistinct, hmade⟩
    | clone sender =>
      have hsome : e.channel.senders ≠ 0 := by
        rw [hsenders]
        exact Nat.ne_of_gt (List.length_pos_of_mem hthere)
      refine ⟨?_, ?_, ?_⟩
      · simp only [perform, cloneSender, if_neg hsome, List.length_append, List.length_singleton]
        rw [hsenders]
      · have hnew : e.made ∉ e.live := fun hmem => Nat.lt_irrefl _ (hmade _ hmem)
        exact List.nodup_append.2 ⟨hdistinct, by simp, by grind⟩
      · intro sender hsender
        simp only [perform, List.mem_append, List.mem_singleton] at hsender ⊢
        rcases hsender with hsender | rfl
        · exact Nat.lt_succ_of_lt (hmade sender hsender)
        · exact Nat.lt_succ_self _
    | dropSender sender =>
      refine ⟨?_, hdistinct.erase sender, fun other hother => hmade other (List.mem_of_mem_erase hother)⟩
      simp [perform, dropSender, hsenders, List.length_erase_of_mem hthere]
    | receive => exact ⟨by simpa [perform] using hsenders, hdistinct, hmade⟩
    | close => exact ⟨by simpa [perform] using hsenders, hdistinct, hmade⟩
    | dropReceiver => exact ⟨hsenders, hdistinct, hmade⟩
  · exact ⟨hsenders, hdistinct, hmade⟩

/-- Only its close and its drop change the receiver; neither does where it is dropped already. -/
theorem step_receiver (e : Ends) (s : Step) :
    (e.step s).1.channel.receiver =
      match s with
      | .close => e.channel.close.receiver
      | .dropReceiver => .dropped
      | _ => e.channel.receiver := by
  unfold step
  split
  · cases s with
    | send sender a => simp [perform, Alert.send_queue]
    | clone sender => simp [perform]
    | receive => simp [perform]
    | dropSender | close | dropReceiver => rfl
  · rename_i hgone
    cases s with
    | close | dropReceiver =>
      have hdropped : e.channel.receiver = .dropped := Classical.not_not.1 hgone
      simp [close_receiver, hdropped]
    | _ => rfl

/-- The receiver is open as long as it was neither closed nor dropped. -/
theorem step_opened (e : Ends) (s : Step) :
    (e.step s).1.channel.receiver = .opened ↔
      e.channel.receiver = .opened ∧ s ≠ .close ∧ s ≠ .dropReceiver := by
  rw [step_receiver]
  cases s with
  | close =>
    simp only [close_receiver]
    split <;> simp_all
  | _ => simp

theorem step_dropped (e : Ends) (s : Step) :
    (e.step s).1.channel.receiver = .dropped ↔
      e.channel.receiver = .dropped ∨ s = .dropReceiver := by
  rw [step_receiver]
  cases s with
  | close =>
    simp only [close_receiver]
    split <;> simp_all
  | _ => simp

theorem step_capacity (e : Ends) (s : Step) :
    (e.step s).1.channel.capacity = e.channel.capacity := by
  unfold step
  split
  · cases s with
    | send sender a => simp [perform, Alert.send_queue]
    | clone sender => simp [perform]
    | dropSender sender => rfl
    | receive => simp [perform]
    | close => simp [perform]
    | dropReceiver => rfl
  · rfl

/-- Unless it drops the receiver, one step hands out the oldest alert, or adds at the end the one that
it accepts, or neither. -/
theorem step_conserves (e : Ends) {s : Step} (h : s ≠ .dropReceiver) :
    handed (e.step s).2 ++ (e.step s).1.channel.queue =
      e.channel.queue ++ accepted (e.step s).2 := by
  unfold step
  split
  · cases s with
    | send sender a =>
      simp only [perform]
      rw [Alert.send_queue]
      cases (Alert.send e.channel a).2.1 <;> rfl
    | receive =>
      have hreceives := e.channel.receives
      simp only [perform]
      cases hfound : e.channel.receive.2 with
      | value a =>
        obtain ⟨rest, hqueue, hnext⟩ := (hreceives.value a).1 hfound
        rw [hnext, hqueue]
        simp [handed, accepted]
      | empty =>
        rw [hreceives.kept (hreceives.empty.1 hfound).1]
        exact (List.append_nil _).symm
      | disconnected =>
        rw [hreceives.kept (hreceives.disconnected.1 hfound).1]
        exact (List.append_nil _).symm
    | dropReceiver => exact absurd rfl h
    | _ => simp [perform, dropSender, handed, accepted]
  · exact (List.append_nil _).symm

/-- Only a channel that accepts takes an alert, and one at a time. -/
theorem accepted_step (e : Ends) (s : Step) :
    accepted (e.step s).2 = [] ∨ e.channel.Accepts ∧ (accepted (e.step s).2).length = 1 := by
  unfold step
  split
  · cases s with
    | send sender a =>
      cases hsent : (Alert.send e.channel a).2.1 with
      | false => simp [perform, hsent, accepted]
      | true => exact .inr ⟨(Alert.send_eq_true_iff ..).1 hsent, by simp [perform, hsent, accepted]⟩
    | _ => exact .inl rfl
  · exact .inl rfl

/-- No step fills the channel beyond its capacity. -/
theorem step_bounded (h : e.channel.queue.length ≤ e.channel.capacity) (s : Step) :
    (e.step s).1.channel.queue.length ≤ e.channel.capacity := by
  by_cases hdrop : s = .dropReceiver
  · subst hdrop
    unfold step
    split
    · exact Nat.zero_le _
    · exact h
  · have hlength := congrArg List.length (step_conserves e hdrop)
    rw [List.length_append, List.length_append] at hlength
    rcases accepted_step e s with hnone | ⟨haccepts, hone⟩
    · rw [hnone, List.length_nil] at hlength
      omega
    · have hroom := haccepts.2
      omega

/-! ## Runs -/

theorem after_opened (e : Ends) (steps : List Step) :
    (Runs.after step e steps).channel.receiver = .opened ↔
      e.channel.receiver = .opened ∧ .close ∉ steps ∧ .dropReceiver ∉ steps := by
  induction steps generalizing e with
  | nil => simp [Runs.after]
  | cons s rest ih =>
    rw [Runs.after_cons, ih, step_opened]
    simp only [List.mem_cons, not_or, eq_comm (a := s), ne_eq]
    constructor
    · rintro ⟨⟨hopened, hclose, hdrop⟩, hcloses, hdrops⟩
      exact ⟨hopened, ⟨hclose, hcloses⟩, hdrop, hdrops⟩
    · rintro ⟨hopened, ⟨hclose, hcloses⟩, hdrop, hdrops⟩
      exact ⟨⟨hopened, hclose, hdrop⟩, hcloses, hdrops⟩

theorem after_dropped (e : Ends) (steps : List Step) :
    (Runs.after step e steps).channel.receiver = .dropped ↔
      e.channel.receiver = .dropped ∨ .dropReceiver ∈ steps := by
  induction steps generalizing e with
  | nil => simp [Runs.after]
  | cons s rest ih =>
    rw [Runs.after_cons, ih, step_dropped, List.mem_cons, eq_comm (a := s), or_assoc]

/-- While the receiver is kept, what was handed out and what is queued are together what was queued
before and what was accepted. -/
theorem handed_append_queue (e : Ends) {steps : List Step} (h : .dropReceiver ∉ steps) :
    (Runs.events step e steps).flatMap handed ++ (Runs.after step e steps).channel.queue =
      e.channel.queue ++ (Runs.events step e steps).flatMap accepted := by
  have hkept (s : Step) (hs : s ∈ steps) : s ≠ .dropReceiver := fun heq => h (heq ▸ hs)
  exact Runs.events_append_content (fun e : Ends => e.channel.queue) (fun _ => True)
    (· ≠ .dropReceiver) (fun _ _ _ _ => trivial) (fun e _ _ hs => step_conserves e hs) trivial hkept

/-- Nothing is accepted any more once the receiver is closed. -/
theorem accepted_of_not_opened {e : Ends} (h : e.channel.receiver ≠ .opened) (steps : List Step) :
    (Runs.events step e steps).flatMap accepted = [] := by
  induction steps generalizing e with
  | nil => rfl
  | cons s rest ih =>
    have hnext : (e.step s).1.channel.receiver ≠ .opened := fun hopened =>
      h ((step_opened e s).1 hopened).1
    have hnone : accepted (e.step s).2 = [] :=
      (accepted_step e s).resolve_right fun haccepts => h haccepts.1.1
    rw [Runs.events, List.flatMap_cons, hnone, ih hnext]
    rfl

end

/-! ## From a fresh channel -/

/-- The ends after a run from a fresh channel. -/
def reached (capacity : Nat) (steps : List Step) : Ends := Runs.after step (fresh capacity) steps

/-- What happened along that run. -/
def past (capacity : Nat) (steps : List Step) : List Event :=
  Runs.events step (fresh capacity) steps

theorem reached_counted (capacity : Nat) (steps : List Step) : (reached capacity steps).Counted := by
  have hfresh : (fresh capacity).Counted := ⟨rfl, by simp [fresh], by simp [fresh]⟩
  exact Runs.after_induction (P := Counted) (fun _ s h => step_keeps h s) hfresh steps

theorem reached_capacity (capacity : Nat) (steps : List Step) :
    (reached capacity steps).channel.capacity = capacity :=
  Runs.after_induction (P := fun e : Ends => e.channel.capacity = capacity)
    (fun e s h => (step_capacity e s).trans h) rfl steps

theorem reached_bounded (capacity : Nat) (steps : List Step) :
    (reached capacity steps).channel.queue.length ≤ capacity := by
  have h : (reached capacity steps).channel.queue.length ≤
      (reached capacity steps).channel.capacity := by
    refine Runs.after_induction (P := fun e : Ends => e.channel.queue.length ≤ e.channel.capacity)
      (fun e s h => ?_) (Nat.zero_le _) steps
    rw [step_capacity]
    exact step_bounded h s
  rwa [reached_capacity] at h

theorem reached_opened (capacity : Nat) (steps : List Step) :
    (reached capacity steps).channel.receiver = .opened ↔
      .close ∉ steps ∧ .dropReceiver ∉ steps :=
  (after_opened ..).trans (and_iff_right rfl)

theorem reached_dropped (capacity : Nat) (steps : List Step) :
    (reached capacity steps).channel.receiver = .dropped ↔ .dropReceiver ∈ steps :=
  (after_dropped ..).trans (or_iff_right (by simp [fresh, Channel.fresh]))

theorem reached_append (capacity : Nat) (steps later : List Step) :
    reached capacity (steps ++ later) = Runs.after step (reached capacity steps) later :=
  Runs.after_append ..

/-- What a close leaves: nothing more is accepted, and what was queued can be received. -/
theorem closed_conserves (capacity : Nat) {steps later : List Step}
    (h : .dropReceiver ∉ steps ++ later) :
    (Runs.events step (reached capacity (steps ++ [.close])) later).flatMap accepted = [] ∧
      (Runs.events step (reached capacity (steps ++ [.close])) later).flatMap handed ++
          (reached capacity (steps ++ .close :: later)).channel.queue =
        (reached capacity steps).channel.queue := by
  rw [List.mem_append, not_or] at h
  have hnone := accepted_of_not_opened (e := reached capacity (steps ++ [.close]))
    (by rw [Ne, reached_opened]; simp) later
  refine ⟨hnone, ?_⟩
  have hconserved := handed_append_queue (reached capacity (steps ++ [.close])) h.2
  rw [hnone, List.append_nil, ← reached_append, List.append_assoc] at hconserved
  refine hconserved.trans ?_
  have hthere : (reached capacity steps).Has .close := (not_congr (reached_dropped ..)).2 h.1
  rw [reached_append]
  show ((reached capacity steps).step .close).1.channel.queue = _
  rw [step, if_pos hthere]
  exact close_queue _

end Ends

open Ends in
/-- **The alert channel is a bounded first-in first-out queue in every order of steps at its ends.** A
channel is made empty. After every run from there: no more alerts are queued than there is room for;
while the receiver is kept, those handed out and those queued are together the accepted ones, in order;
a send through a sender that is left gets through exactly if the receiver is open and there is room, and
then appends its alert, else changes nothing; a receive hands out the oldest alert, and finds the
channel disconnected exactly if nothing is queued and no sender is left or the receiver was closed; and
once closed the channel accepts nothing more and hands out what is queued. -/
theorem bounded_fifo (capacity : Nat) (steps : List Step) :
    (1 ≤ capacity → capacity ≤ maxCapacity →
        ofCapacity? capacity = some (Channel.fresh capacity : Channel Alert)) ∧
      (reached capacity steps).channel.queue.length ≤ capacity ∧
      (.dropReceiver ∉ steps →
        (past capacity steps).flatMap handed ++ (reached capacity steps).channel.queue =
          (past capacity steps).flatMap accepted) ∧
      (∀ sender ∈ (reached capacity steps).live, ∀ alert, ∃ sent,
        ((reached capacity steps).step (.send sender alert)).2 = .sent alert sent ∧
          (sent = true ↔ .close ∉ steps ∧ .dropReceiver ∉ steps ∧
            (reached capacity steps).channel.queue.length < capacity) ∧
          ((reached capacity steps).step (.send sender alert)).1 =
            if sent then
              { reached capacity steps with
                channel.queue := (reached capacity steps).channel.queue ++ [alert] }
            else reached capacity steps) ∧
      (.dropReceiver ∉ steps → ∃ found,
        ((reached capacity steps).step .receive).2 = .received found ∧
          (reached capacity steps).channel.Receives
            ((reached capacity steps).live = [] ∨ .close ∈ steps)
            ((reached capacity steps).step .receive).1.channel found) ∧
      ∀ later, .dropReceiver ∉ steps ++ later →
        (Runs.events step (reached capacity (steps ++ [.close])) later).flatMap accepted = [] ∧
          (Runs.events step (reached capacity (steps ++ [.close])) later).flatMap handed ++
              (reached capacity (steps ++ .close :: later)).channel.queue =
            (reached capacity steps).channel.queue := by
  refine ⟨ofCapacity?_eq, reached_bounded capacity steps,
    handed_append_queue (.fresh capacity), fun sender hsender alert => ?_, fun hkept => ?_,
    fun later hlater => closed_conserves capacity hlater⟩
  · have hthere : (reached capacity steps).Has (.send sender alert) := hsender
    refine ⟨(Alert.send (reached capacity steps).channel alert).2.1, ?_, ?_, ?_⟩
    · rw [step, if_pos hthere]
      rfl
    · rw [Alert.send_eq_true_iff, Accepts, reached_opened, reached_capacity, and_assoc]
    · rw [step, if_pos hthere]
      simp only [perform, Alert.send_queue]
      split <;> simp
  · have hthere : (reached capacity steps).Has .receive := (not_congr (reached_dropped ..)).2 hkept
    refine ⟨(reached capacity steps).channel.receive.2, ?_, ?_⟩
    · rw [step, if_pos hthere]
      rfl
    · have hended : (reached capacity steps).channel.senders = 0 ∨
          (reached capacity steps).channel.receiver ≠ .opened ↔
          (reached capacity steps).live = [] ∨ .close ∈ steps := by
        rw [(reached_counted capacity steps).senders, List.length_eq_zero_iff, Ne, reached_opened]
        simp [hkept]
      rw [step, if_pos hthere, ← propext hended]
      exact (reached capacity steps).channel.receives

/-- An alert of the process with the given id. -/
def alertOfPid (pid : UInt32) : Alert := ⟨"any", "INFO", ⟨0, 0⟩, ⟨pid, 1, 0, 0, "", "", ""⟩⟩

/-- Two senders share one place; the first is dropped before the second sends again. -/
def sharedSteps : List Step :=
  [.clone 0, .send 0 (alertOfPid 1), .send 1 (alertOfPid 2), .receive, .dropSender 0,
    .send 1 (alertOfPid 3)]

theorem bounded_fifo_shared :
    (ofCapacity? 1 = some (Channel.fresh 1 : Channel Alert) ∧
        .dropReceiver ∉ sharedSteps ++ [.receive, .send 1 (alertOfPid 4)] ∧
        1 ∈ (Ends.reached 1 sharedSteps).live) ∧
      (Ends.past 1 sharedSteps).flatMap Ends.handed ++ (Ends.reached 1 sharedSteps).channel.queue =
        [alertOfPid 1, alertOfPid 3] ∧
      ((Ends.reached 1 sharedSteps).step (.send 1 (alertOfPid 4))).2 =
        .sent (alertOfPid 4) false ∧
      (Runs.events Ends.step (Ends.reached 1 (sharedSteps ++ [.close]))
          [.receive, .send 1 (alertOfPid 4)]).flatMap Ends.handed = [alertOfPid 3] := by
  obtain ⟨hmade, -, horder, hsend, -, hclose⟩ := bounded_fifo 1 sharedSteps
  have hkept : .dropReceiver ∉ sharedSteps ++ [.receive, .send 1 (alertOfPid 4)] := by decide
  have hleft : 1 ∈ (Ends.reached 1 sharedSteps).live := by decide
  refine ⟨⟨hmade (by decide) (by decide), hkept, hleft⟩, ?_, ?_, ?_⟩
  · rw [horder (by decide)]
    decide
  · obtain ⟨sent, hevent, hsent, -⟩ := hsend 1 hleft (alertOfPid 4)
    have hfull : ¬ (Ends.reached 1 sharedSteps).channel.queue.length < 1 := by decide
    cases sent with
    | false => exact hevent
    | true => exact absurd (hsent.1 rfl).2.2 hfull
  · obtain ⟨-, hconserved⟩ := hclose _ hkept
    have hempty : (Ends.reached 1 (sharedSteps ++ .close :: [.receive,
        .send 1 (alertOfPid 4)])).channel.queue = [] := by decide
    rw [hempty, List.append_nil] at hconserved
    rw [hconserved]
    decide

end Channel

end ExecWatch
