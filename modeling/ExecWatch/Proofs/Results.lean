/-!
# Results that may fail

What a computation with `Except` did, read off its result: `exists_of_bind_eq_ok` and
`or_of_bind_eq_error` for one step after another, `of_guard_eq_ok` for a check before the next step,
`exists_of_map_eq_ok` and `map_eq_error_iff` for a result that is changed afterwards. Whether there is a
result with a property can be decided.
-/

namespace ExecWatch

variable {ε α β γ : Type}

instance decidableIsOkWith {x : Except ε α} {p : α → Prop} [DecidablePred p] :
    Decidable (∃ a, x = .ok a ∧ p a) :=
  match x with
  | .ok a => decidable_of_iff (p a)
      ⟨fun h => ⟨a, rfl, h⟩, fun ⟨_, hx, h⟩ => Except.ok.inj hx ▸ h⟩
  | .error _ => .isFalse fun ⟨_, hx, _⟩ => nomatch hx

instance decidableIsOk {x : Except ε α} : Decidable (∃ a, x = .ok a) :=
  match x with
  | .ok a => .isTrue ⟨a, rfl⟩
  | .error _ => .isFalse fun ⟨_, hx⟩ => nomatch hx

theorem exists_of_bind_eq_ok {x : Except ε α} {f : α → Except ε β} {b : β}
    (h : x >>= f = .ok b) : ∃ a, x = .ok a ∧ f a = .ok b := by
  cases x with
  | error e => cases h
  | ok a => exact ⟨a, rfl, h⟩

theorem or_of_bind_eq_error {x : Except ε α} {f : α → Except ε β} {e : ε}
    (h : x >>= f = .error e) : x = .error e ∨ ∃ a, x = .ok a ∧ f a = .error e := by
  cases x with
  | error e' =>
    cases h
    exact .inl rfl
  | ok a => exact .inr ⟨a, rfl, h⟩

theorem of_guard_eq_ok {p : Prop} [Decidable p] {e : ε} {f : α → Except ε β} {x : Except ε β} {b : β}
    (h : (if p then throw e >>= f else x) = .ok b) : ¬ p ∧ x = .ok b := by
  split at h
  · cases h
  · exact ⟨‹¬ p›, h⟩

theorem map_map_except (x : Except ε α) (f : α → β) (f' : β → γ) :
    (x.map f).map f' = x.map fun a => f' (f a) := by
  cases x <;> rfl

theorem exists_of_map_eq_ok {x : Except ε α} {f : α → β} {b : β} (h : x.map f = .ok b) :
    ∃ a, x = .ok a ∧ f a = b := by
  cases x with
  | ok a =>
    cases h
    exact ⟨a, rfl, rfl⟩
  | error => cases h

theorem map_eq_error_iff {x : Except ε α} {f : α → β} :
    (∃ e, x.map f = .error e) ↔ ∃ e, x = .error e := by
  cases x with
  | ok a => simp [Except.map]
  | error e => simp [Except.map]

end ExecWatch
