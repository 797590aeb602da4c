import ExecWatch.Rule.Matcher
import Mathlib.Data.List.Forall2

/-!
# Compiled rules

Rules are compiled one by one, and the first that cannot be compiled ends it. Main statements:

* `Matcher.ofRules_eq_ok_iff`: a matcher holds the compiled process rules, in the order of the rules;
* `Matcher.exists_rule`: the rule that is selected is a configured one.
-/

namespace ExecWatch

/-! ## Lists element by element -/

section
variable {α β : Type} {R : α → β → Prop} {as : List α} {bs : List β}

theorem mapM_eq_ok_iff {ε : Type} {f : α → Except ε β} :
    as.mapM f = .ok bs ↔ List.Forall₂ (fun a b => f a = .ok b) as bs := by
  induction as generalizing bs with
  | nil => cases bs <;> simp [pure, Except.pure]
  | cons a as ih =>
    rw [List.mapM_cons]
    cases hfirst : f a with
    | error e => cases bs <;> simp [bind, Except.bind, hfirst]
    | ok first =>
      cases hlater : as.mapM f with
      | error e => cases bs <;> simp [bind, Except.bind, ← ih, hlater, hfirst]
      | ok later => cases bs <;> simp [bind, Except.bind, pure, Except.pure, ← ih, hlater, hfirst]

theorem exists_forall₂ (h : ∀ a ∈ as, ∃ b, R a b) :
    ∃ bs, List.Forall₂ R as bs := by
  induction as with
  | nil => exact ⟨[], .nil⟩
  | cons a as ih =>
    obtain ⟨b, hb⟩ := h a List.mem_cons_self
    obtain ⟨bs, hbs⟩ := ih fun a' ha' => h a' (List.mem_cons_of_mem _ ha')
    exact ⟨b :: bs, .cons hb hbs⟩

theorem exists_of_mem_forall₂ (h : List.Forall₂ R as bs) {b : β} (hb : b ∈ bs) :
    ∃ a ∈ as, R a b := by
  induction h with
  | nil => cases hb
  | cons hfirst _ ih =>
    rcases List.mem_cons.1 hb with rfl | hb
    · exact ⟨_, List.mem_cons_self, hfirst⟩
    · obtain ⟨a, ha, hab⟩ := ih hb
      exact ⟨a, List.mem_cons_of_mem _ ha, hab⟩

end

/-! ## Matchers -/

theorem ProcessRule.compile_eq {r : Rule} {rule : ProcessRule} (h : compile r = .ok rule) :
    rule.name = r.name ∧ rule.severity = r.severity := by
  unfold compile at h
  split at h
  · cases h
    exact ⟨rfl, rfl⟩
  · split at h
    · cases h
      exact ⟨rfl, rfl⟩
    · cases h

/-- A matcher holds the compiled process rules, in the order of the rules. -/
theorem Matcher.ofRules_eq_ok_iff (rules : List Rule) (m : Matcher) :
    ofRules rules = .ok m ↔
      List.Forall₂ (fun r p => ProcessRule.compile r = .ok p) (rules.filter (·.isProcess)) m.rules := by
  rw [← mapM_eq_ok_iff, ofRules]
  cases hcompiled : (rules.filter (·.isProcess)).mapM ProcessRule.compile with
  | error e => simp [bind, Except.bind]
  | ok compiled =>
    obtain ⟨held⟩ := m
    simp [bind, Except.bind, pure, Except.pure]

/-- The rule that is selected for an exec is one of those that the matcher was made of. -/
theorem Matcher.exists_rule {rules : List Rule} {m : Matcher} (hm : ofRules rules = .ok m)
    {exec : ExecInfo} {rule : ProcessRule} (h : m.matchExec exec = some rule) :
    ∃ r ∈ rules, r.isProcess = true ∧ rule.name = r.name ∧ rule.severity = r.severity := by
  have hmem : rule ∈ m.rules := by
    unfold matchExec at h
    rcases Option.or_eq_some_iff.1 h with h | ⟨-, h⟩
    · exact List.mem_of_find?_eq_some h
    · exact List.mem_of_find?_eq_some h
  obtain ⟨r, hr, hrule⟩ := exists_of_mem_forall₂ ((ofRules_eq_ok_iff rules m).1 hm) hmem
  rw [List.mem_filter] at hr
  exact ⟨r, hr.1, hr.2, ProcessRule.compile_eq hrule⟩

end ExecWatch
