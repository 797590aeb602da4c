import ExecWatch.Proofs.Alert.Outcome

/-!
# From samples to alerts

Samples are handled one by one, while alerts are received at the other end of the channel or the
receiver is dropped. Along every run of such steps:

* `step_conserves`: one step hands out the oldest alert, or adds that of its sample at the end;
* `received_append_queue`: what was received and what is queued are together the alerts of the samples
  that were alerted, as long as the receiver is there;
* `received_prefix`: and also without it no more is handed out than that;
* `alerts_in_order`: all this from an empty channel, and what becomes of one more sample there.
-/

namespace ExecWatch.Handler

/-! ## Steps -/

/-- One thing that happens at either end of the channel. -/
inductive Step where
  | handle (now : Timestamp) (sample : Bytes)
  | receive
  | drop

/-- What a step shows. -/
inductive Answer where
  | handled (outcome : Outcome)
  | received (found : Channel.Received Alert)
  | dropped

/-- One step. -/
def step (m : Matcher) (c : Channel Alert) : Step → Channel Alert × Answer
  | .handle now sample => ((handle m now c sample).1, .handled (handle m now c sample).2.1)
  | .receive => (c.receive.1, .received c.receive.2)
  | .drop => (c.dropReceiver, .dropped)

/-- The answers of a run of steps, in order. -/
def run (m : Matcher) : Channel Alert → List Step → List Answer
  | _, [] => []
  | c, s :: rest => (step m c s).2 :: run m (step m c s).1 rest

/-- The channel after a run of steps. -/
def after (m : Matcher) (c : Channel Alert) (steps : List Step) : Channel Alert :=
  steps.foldl (fun c s => (step m c s).1) c

/-- The alert that an answer hands out. -/
def received? : Answer → Option Alert
  | .received (.value a) => some a
  | _ => none

/-- The alerts that the answers of a run hand out, in order. -/
def received (answers : List Answer) : List Alert := answers.filterMap received?

/-- The alert of a sample whose step answered that it was alerted. -/
def alerted? (m : Matcher) : Step → Answer → Option Alert
  | .handle now sample, .handled .alerted => alertOf? m now sample
  | _, _ => none

/-- The alerts of the samples along a run that were alerted, in order. -/
def alerted (m : Matcher) (steps : List Step) (answers : List Answer) : List Alert :=
  (List.zipWith (alerted? m) steps answers).filterMap id

section
variable (m : Matcher) (c : Channel Alert)

theorem received_cons (a : Answer) (answers : List Answer) :
    received (a :: answers) = (received? a).toList ++ received answers := by
  unfold received
  cases h : received? a <;> simp [h]

theorem alerted_cons (s : Step) (steps : List Step) (a : Answer) (answers : List Answer) :
    alerted m (s :: steps) (a :: answers) = (alerted? m s a).toList ++ alerted m steps answers := by
  unfold alerted
  cases h : alerted? m s a <;> simp [h]

/-- Handling a sample appends its alert if it answers so, and nothing otherwise. -/
theorem handle_queue (now : Timestamp) (sample : Bytes) :
    (handle m now c sample).1 = { c with queue := c.queue ++
      (alerted? m (.handle now sample) (.handled (handle m now c sample).2.1)).toList } := by
  have hkept : c = { c with queue := c.queue ++ [] } := by rw [List.append_nil]
  have h := handled m now c sample
  generalize (handle m now c sample).1 = next, (handle m now c sample).2.1 = outcome at h
  cases h with
  | malformed => exact hkept
  | noMatch => exact hkept
  | alerted hdecode hmatch =>
    simp [alerted?, alertOf?, hdecode, hmatch]
  | dropped => exact hkept

/-- Nothing is alerted into a channel that does not accept. -/
theorem alerted?_of_not_accepts (h : ¬ c.Accepts) (s : Step) :
    alerted? m s (step m c s).2 = none := by
  cases s with
  | handle now sample =>
    rw [step]
    have hstep := handled m now c sample
    generalize (handle m now c sample).1 = next, (handle m now c sample).2.1 = outcome at hstep
    cases hstep with
    | malformed => rfl
    | noMatch => rfl
    | alerted _ _ haccepts => exact absurd haccepts h
    | dropped => rfl
  | receive => rfl
  | drop => rfl

/-- While the receiver is kept, one step hands out the oldest alert, or adds that of its sample at the
end, or neither. -/
theorem step_conserves {s : Step} (h : s ≠ .drop) :
    (received? (step m c s).2).toList ++ (step m c s).1.queue =
      c.queue ++ (alerted? m s (step m c s).2).toList := by
  cases s with
  | handle now sample =>
    rw [step, handle_queue]
    rfl
  | receive =>
    simp only [step, Channel.receive]
    split
    · rename_i a rest hqueue
      rw [hqueue]
      simp [received?, alerted?]
    · rename_i hqueue
      rw [hqueue]
      split <;> rfl
  | drop => exact absurd rfl h

/-- Only dropping the receiver takes it away. -/
theorem step_receiver (s : Step) :
    (step m c s).1.receiver = .opened ↔ c.receiver = .opened ∧ s ≠ .drop := by
  cases s with
  | handle now sample =>
    rw [step, handle_queue]
    simp
  | receive =>
    simp only [step, Channel.receive]
    split <;> simp
  | drop => simp [step, Channel.dropReceiver]

theorem step_capacity (s : Step) : (step m c s).1.capacity = c.capacity := by
  cases s with
  | handle now sample => rw [step, handle_queue]
  | receive =>
    simp only [step, Channel.receive]
    split <;> rfl
  | drop => rfl

/-- No step fills the channel beyond its capacity. -/
theorem step_bounded (h : c.queue.length ≤ c.capacity) (s : Step) :
    (step m c s).1.queue.length ≤ c.capacity := by
  cases s with
  | handle now sample =>
    have hqueue : (step m c (.handle now sample)).1.queue =
        c.queue ++ (alerted? m (.handle now sample) (step m c (.handle now sample)).2).toList := by
      rw [step, handle_queue]
    rw [hqueue, List.length_append]
    by_cases haccepts : c.Accepts
    · exact Nat.le_trans (Nat.add_le_add_left Option.length_toList_le _) haccepts.2
    · rw [alerted?_of_not_accepts m c haccepts]
      exact h
  | receive =>
    simp only [step, Channel.receive]
    split
    · rename_i a rest hqueue
      rw [hqueue, List.length_cons] at h
      exact Nat.le_of_succ_le h
    · exact h
  | drop => exact Nat.zero_le _

/-! ## Runs -/

theorem after_capacity (steps : List Step) : (after m c steps).capacity = c.capacity := by
  induction steps generalizing c with
  | nil => rfl
  | cons s steps ih => exact (ih _).trans (step_capacity m c s)

theorem after_bounded (h : c.queue.length ≤ c.capacity) (steps : List Step) :
    (after m c steps).queue.length ≤ c.capacity := by
  induction steps generalizing c with
  | nil => exact h
  | cons s steps ih =>
    have hnext := step_bounded m c h s
    rw [← step_capacity m c s] at hnext ⊢
    exact ih _ hnext

/-- The receiver is there as long as it was not dropped. -/
theorem after_receiver (steps : List Step) :
    (after m c steps).receiver = .opened ↔ c.receiver = .opened ∧ .drop ∉ steps := by
  induction steps generalizing c with
  | nil => simp [after]
  | cons s steps ih =>
    refine (ih (step m c s).1).trans ?_
    rw [step_receiver, List.mem_cons, not_or, and_assoc, ne_comm]

/-- **Nothing is lost, invented or reordered before the receiver** while it is there. -/
theorem received_append_queue {steps : List Step} (h : .drop ∉ steps) :
    received (run m c steps) ++ (after m c steps).queue =
      c.queue ++ alerted m steps (run m c steps) := by
  induction steps generalizing c with
  | nil => exact (List.append_nil _).symm
  | cons s steps ih =>
    rw [List.mem_cons, not_or] at h
    have hnext := ih (step m c s).1 h.2
    calc received (run m c (s :: steps)) ++ (after m c (s :: steps)).queue
        = (received? (step m c s).2).toList ++ (received (run m (step m c s).1 steps) ++
            (after m (step m c s).1 steps).queue) := by
          rw [run, received_cons, List.append_assoc]
          rfl
      _ = (received? (step m c s).2).toList ++ (step m c s).1.queue ++
            alerted m steps (run m (step m c s).1 steps) := by rw [hnext, List.append_assoc]
      _ = c.queue ++ (alerted? m s (step m c s).2).toList ++
            alerted m steps (run m (step m c s).1 steps) := by
          rw [step_conserves m c (Ne.symm h.1)]
      _ = c.queue ++ alerted m (s :: steps) (run m c (s :: steps)) := by
          rw [run, alerted_cons, List.append_assoc]

theorem alerted_of_not_opened (h : c.receiver ≠ .opened) (steps : List Step) :
    alerted m steps (run m c steps) = [] := by
  induction steps generalizing c with
  | nil => rfl
  | cons s steps ih =>
    have hnext : (step m c s).1.receiver ≠ .opened := fun hopened =>
      h ((step_receiver m c s).1 hopened).1
    rw [run, alerted_cons, alerted?_of_not_accepts m c fun haccepts => h haccepts.1, ih _ hnext]
    rfl

/-- Also with the receiver dropped on the way, no more is handed out than was alerted. -/
theorem received_prefix (steps : List Step) :
    received (run m c steps) <+: c.queue ++ alerted m steps (run m c steps) := by
  induction steps generalizing c with
  | nil => exact List.nil_prefix
  | cons s steps ih =>
    have hnext := ih (step m c s).1
    rw [run, received_cons, alerted_cons]
    by_cases hdrop : s = .drop
    · subst hdrop
      -- nothing is alerted from here on, so nothing is handed out either
      have hgone : (step m c .drop).1.receiver ≠ .opened := fun hopened =>
        ((step_receiver m c .drop).1 hopened).2 rfl
      rw [alerted_of_not_opened m _ hgone, List.append_nil] at hnext
      rw [List.prefix_nil.1 hnext]
      exact List.nil_prefix
    · rw [← List.append_assoc, ← step_conserves m c hdrop, List.append_assoc]
      exact (List.prefix_append_right_inj _).2 hnext

end

/-! ## From an empty channel -/

/-- **The handler neither invents, loses, duplicates nor reorders alerts.** A channel is made empty.
After every run from there: no more alerts are queued than there is room for; while the receiver is
there, those received and those queued are together the alerts of the alerted samples, in order, and
what was received is always a beginning of those; and one more sample is settled as `Settles` says. -/
theorem alerts_in_order {rules : List Rule} {m : Matcher} (hm : Matcher.ofRules rules = .ok m)
    (capacity : Nat) (steps : List Step) :
    (1 ≤ capacity → capacity ≤ Channel.maxCapacity →
        Channel.ofCapacity? capacity = some (.fresh capacity : Channel Alert)) ∧
      (after m (.fresh capacity) steps).capacity = capacity ∧
      (after m (.fresh capacity) steps).queue.length ≤ capacity ∧
      (.drop ∉ steps → received (run m (.fresh capacity) steps) ++
        (after m (.fresh capacity) steps).queue = alerted m steps (run m (.fresh capacity) steps)) ∧
      received (run m (.fresh capacity) steps) <+:
        alerted m steps (run m (.fresh capacity) steps) ∧
      ∀ now sample, Settles rules m (.drop ∉ steps) now (after m (.fresh capacity) steps) sample
        (handle m now (after m (.fresh capacity) steps) sample).1
        (handle m now (after m (.fresh capacity) steps) sample).2.1 := by
  refine ⟨Channel.ofCapacity?_eq, after_capacity m _ steps, after_bounded m _ (Nat.zero_le _) steps,
    received_append_queue m (.fresh capacity), received_prefix m (.fresh capacity) steps,
    fun now sample => ?_⟩
  have halive : (after m (.fresh capacity) steps).receiver = .opened ↔ .drop ∉ steps :=
    (after_receiver m _ steps).trans (and_iff_right rfl)
  have h := settles_of_handled hm (handled m now (after m (.fresh capacity) steps) sample)
  rwa [propext halive] at h

/-- A rule that every process matches. -/
def anyRule : Rule := ⟨"any", Rule.processType, "", "INFO"⟩

/-- Two samples find a channel with room for one alert, the first is received, and a sample that is no
record comes before a last one. -/
def crowdedSteps : List Step :=
  let sample (pid : UInt32) : Bytes := { Record.zero with pid }.encode
  [.handle ⟨1, 0⟩ (sample 1), .handle ⟨2, 0⟩ (sample 2), .receive, .handle ⟨3, 0⟩ [0, 0],
    .handle ⟨4, 0⟩ (sample 4)]

theorem alerts_in_order_crowded :
    Matcher.ofRules [anyRule] = .ok ⟨[⟨"any", "INFO", none⟩]⟩ ∧ Step.drop ∉ crowdedSteps ∧
      received (run ⟨[⟨"any", "INFO", none⟩]⟩ (.fresh 1) crowdedSteps) ++
          (after ⟨[⟨"any", "INFO", none⟩]⟩ (.fresh 1) crowdedSteps).queue =
        [⟨"any", "INFO", ⟨1, 0⟩, ⟨1, 0, 0, 0, "", "", ""⟩⟩,
          ⟨"any", "INFO", ⟨4, 0⟩, ⟨4, 0, 0, 0, "", "", ""⟩⟩] := by
  have hm : Matcher.ofRules [anyRule] = .ok ⟨[⟨"any", "INFO", none⟩]⟩ := rfl
  have hkept : Step.drop ∉ crowdedSteps := by simp [crowdedSteps]
  obtain ⟨-, -, -, horder, -, -⟩ := alerts_in_order hm 1 crowdedSteps
  refine ⟨hm, hkept, (horder hkept).trans ?_⟩
  decide +kernel

end ExecWatch.Handler
