/-!
# Runs of machines

A machine takes one input after another; each step changes its state and shows what happened. What
holds of every step holds of every run:

* `after_induction`, `history_induction`: a property that each step keeps is kept by a run, also one
  of what happened so far;
* `events_append_content`: where each step hands out of a list at its front and adds to it at its
  end, a run has handed out, with what the list still holds, what it held and what was added.
-/

namespace ExecWatch.Runs

variable {σ ι ε α : Type} (step : σ → ι → σ × ε)

/-- The state after a run. -/
def after (s : σ) (inputs : List ι) : σ :=
  inputs.foldl (fun s i => (step s i).1) s

/-- What happened along a run, in order. -/
def events : σ → List ι → List ε
  | _, [] => []
  | s, i :: rest => (step s i).2 :: events (step s i).1 rest

theorem after_cons (s : σ) (i : ι) (rest : List ι) :
    after step s (i :: rest) = after step (step s i).1 rest := rfl

theorem after_append (s : σ) (inputs later : List ι) :
    after step s (inputs ++ later) = after step (after step s inputs) later :=
  List.foldl_append

variable {step}

theorem after_induction {P : σ → Prop} (h : ∀ s i, P s → P (step s i).1) {s : σ} (hs : P s)
    (inputs : List ι) : P (after step s inputs) := by
  induction inputs generalizing s with
  | nil => exact hs
  | cons i rest ih => exact ih (h s i hs)

/-- The same of a property that also looks back on what happened. -/
theorem history_induction {P : List ε → σ → Prop}
    (h : ∀ es s i, P es s → P (es ++ [(step s i).2]) (step s i).1) {s : σ} (hs : P [] s)
    (inputs : List ι) : P (events step s inputs) (after step s inputs) := by
  have hfrom (es : List ε) (hes : P es s) : P (es ++ events step s inputs) (after step s inputs) := by
    clear hs
    induction inputs generalizing es s with
    | nil =>
      rw [events, List.append_nil]
      exact hes
    | cons i rest ih =>
      rw [events, after_cons, ← List.singleton_append, ← List.append_assoc]
      exact ih _ (h es s i hes)
  exact hfrom [] hs

/-- What every step shows is all that happens. -/
theorem forall_events {Q : ε → Prop} (h : ∀ s i, Q (step s i).2) (s : σ) (inputs : List ι) :
    ∀ e ∈ events step s inputs, Q e := by
  induction inputs generalizing s with
  | nil => exact nofun
  | cons i rest ih => exact List.forall_mem_cons.2 ⟨h s i, ih _⟩

/-- Nothing is lost, invented or reordered between what goes in and what comes out. -/
theorem events_append_content (content : σ → List α) {out into : ε → List α} (P : σ → Prop)
    (Q : ι → Prop) (hkept : ∀ s i, P s → Q i → P (step s i).1)
    (h : ∀ s i, P s → Q i → out (step s i).2 ++ content (step s i).1 = content s ++ into (step s i).2)
    {s : σ} (hs : P s) {inputs : List ι} (hinputs : ∀ i ∈ inputs, Q i) :
    (events step s inputs).flatMap out ++ content (after step s inputs) =
      content s ++ (events step s inputs).flatMap into := by
  induction inputs generalizing s with
  | nil => exact (List.append_nil _).symm
  | cons i rest ih =>
    have hi := hinputs i List.mem_cons_self
    have hrest := ih (hkept s i hs hi) fun j hj => hinputs j (List.mem_cons_of_mem _ hj)
    rw [events, List.flatMap_cons, List.flatMap_cons, after_cons]
    calc out (step s i).2 ++ (events step (step s i).1 rest).flatMap out ++
          content (after step (step s i).1 rest)
        = out (step s i).2 ++ (content (step s i).1 ++
            (events step (step s i).1 rest).flatMap into) := by rw [List.append_assoc, hrest]
      _ = content s ++ into (step s i).2 ++ (events step (step s i).1 rest).flatMap into := by
          rw [← List.append_assoc, h s i hs hi]
      _ = _ := List.append_assoc ..

end ExecWatch.Runs
