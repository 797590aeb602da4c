import ExecWatch.Proofs.Settings.Compilation
import Mathlib.Data.List.Nodup

/-!
# Violations

What settings have to meet, one requirement after another, beside the check that reports what is wrong with
them. Main statements:

* `Rule.messages_problems`: the problems of a rule are the complaints about what it violates, in order;
* `Settings.messages_problems`: the same of settings;
* `Settings.ruleProblems_append`: the problems of rules behind others are their own, at indices behind;
* `Settings.every_violation_reported`: settings pass exactly when they meet all requirements, and otherwise
  each violation is reported once, in order.
-/

namespace ExecWatch

/-- A filter that keeps what violates `p`, element by element. -/
theorem map_filter_not_eq_flatMap {α β : Type} (p : α → Prop) [DecidablePred p] (f : α → β) (as : List α) :
    (as.filter (¬ p ·)).map f = as.flatMap fun a => if p a then [] else [f a] := by
  induction as with
  | nil => rfl
  | cons a as ih =>
    rw [List.flatMap_cons, ← ih]
    by_cases h : p a <;> simp [h]

namespace Rule

/-- What is required of a rule. -/
inductive Requirement where
  | name
  | type
  | severity
  | target
deriving DecidableEq

/-- All that is required, in order. -/
def Requirement.all : List Requirement := [.name, .type, .severity, .target]

/-- The rule meets the requirement. A target is only looked at in a process rule, and may be left out. -/
def Meets (r : Rule) : Requirement → Prop
  | .name => r.name ≠ ""
  | .type => r.type ∈ ["FILE", "NETWORK", "PROCESS"]
  | .severity => r.severity ∈ ["INFO", "WARN", "CRITICAL"]
  | .target => r.type = "PROCESS" → r.target ≠ "" → ∃ pattern, Glob.compile r.target = .ok pattern

instance (r : Rule) : DecidablePred r.Meets
  | .name => inferInstanceAs (Decidable (_ ≠ _))
  | .type | .severity => inferInstanceAs (Decidable (_ ∈ _))
  | .target => inferInstanceAs (Decidable (_ → _))

/-- What is said of a rule that does not meet a requirement. -/
def complaint (r : Rule) : Requirement → String
  | .name => "name is required"
  | .type => "type " ++ Text.quoted r.type ++ " must be one of: FILE, NETWORK, PROCESS"
  | .severity => "severity " ++ Text.quoted r.severity ++ " must be one of: INFO, WARN, CRITICAL"
  | .target => "target " ++ Text.quoted r.target ++ " is not a valid glob: " ++
      match Glob.compile r.target with
      | .ok _ => ""
      | .error cause => cause.message

@[simp] theorem message_type (given : String) : (Problem.type given).message =
    "type " ++ Text.quoted given ++ " must be one of: FILE, NETWORK, PROCESS" := by
  rw [Problem.message, String.append_assoc]
  exact congrArg _ (by decide)

@[simp] theorem message_severity (given : String) : (Problem.severity given).message =
    "severity " ++ Text.quoted given ++ " must be one of: INFO, WARN, CRITICAL" := by
  rw [Problem.message, String.append_assoc]
  exact congrArg _ (by decide)

/-- The one problem that is left when a requirement is not met, as the complaint about it. -/
theorem messages_unless {met met' : Prop} [Decidable met] [Decidable met'] (h : met ↔ met')
    {problem : Problem} {text : String} (hmessage : problem.message = text) :
    (if met then [] else [problem]).map (·.message) = if met' then [] else [text] := by
  by_cases hmet : met
  · rw [if_pos hmet, if_pos (h.1 hmet), List.map_nil]
  · rw [if_neg hmet, if_neg (mt h.2 hmet), List.map_singleton, hmessage]

theorem messages_targetProblems (r : Rule) :
    r.targetProblems.map (·.message) = if r.Meets .target then [] else [r.complaint .target] := by
  unfold targetProblems
  by_cases hprocess : r.type = "PROCESS"
  · by_cases htarget : r.target = ""
    · simp [Meets, htarget]
    · cases hglob : Glob.compile r.target with
      | ok pattern => simp [Meets, hglob]
      | error cause =>
        simp [Meets, isProcess, processType, hprocess, htarget, hglob, complaint, Problem.message]
  · simp [Meets, isProcess, processType, hprocess]

/-- The problems of a rule are the complaints about what it violates. -/
theorem messages_problems (r : Rule) :
    r.problems.map (·.message) = (Requirement.all.filter (¬ r.Meets ·)).map r.complaint := by
  have hname : (if r.name.isEmpty then [Problem.noName] else []).map (·.message) =
      if r.Meets .name then [] else [r.complaint .name] := by
    by_cases h : r.name = "" <;> simp [Meets, h, complaint, Problem.message]
  have htype : (if r.type ∈ types then [] else [Problem.type r.type]).map (·.message) =
      if r.Meets .type then [] else [r.complaint .type] := messages_unless Iff.rfl (message_type _)
  have hseverity : (if r.severity ∈ severities then [] else [Problem.severity r.severity]).map (·.message) =
      if r.Meets .severity then [] else [r.complaint .severity] :=
    messages_unless Iff.rfl (message_severity _)
  rw [map_filter_not_eq_flatMap, problems, List.map_append, List.map_append, List.map_append, hname, htype,
    hseverity, messages_targetProblems]
  simp [Requirement.all]

end Rule

namespace Settings

/-! ## Settings -/

/-- What is required of settings, with what they hold there. -/
inductive Requirement where
  | logLevel (given : Option String)
  | capacity (given : Nat)
  | rule (index : Nat) (r : Rule) (what : Rule.Requirement)

namespace Requirement

def Holds : Requirement → Prop
  | .logLevel given => ∀ level ∈ given, level ∈ ["debug", "info", "warn", "error"]
  | .capacity given => given ≠ 0
  | .rule _ r what => r.Meets what

instance : DecidablePred Holds
  | .logLevel none => .isTrue nofun
  | .logLevel (some level) => decidable_of_iff (level ∈ ["debug", "info", "warn", "error"]) (by simp [Holds])
  | .capacity _ => inferInstanceAs (Decidable (_ ≠ _))
  | .rule _ r what => inferInstanceAs (Decidable (r.Meets what))

/-- What is said of settings that do not meet a requirement. -/
def complaint : Requirement → String
  | .logLevel given =>
    "log_level " ++ Text.quoted (given.getD "") ++ " must be one of: debug, info, warn, error"
  | .capacity _ => "alert_channel_capacity must be greater than zero"
  | .rule index r what => "rules[" ++ toString index ++ "]: " ++ r.complaint what

end Requirement

/-- What is required of rules, the first of which has index `index`. -/
def ruleRequirements (index : Nat) (rules : List Rule) : List Requirement :=
  (rules.zipIdx index).flatMap fun (r, i) => Rule.Requirement.all.map (.rule i r)

/-- All that is required of settings, in order. -/
def requirements (s : Settings) : List Requirement :=
  [.logLevel s.logLevel, .capacity s.channelCapacity] ++ ruleRequirements 0 s.rules

/-- The requirements that settings do not meet, in order. -/
def violations (s : Settings) : List Requirement := s.requirements.filter (¬ ·.Holds)

@[simp] theorem message_logLevel (given : String) : (Problem.logLevel given).message =
    "log_level " ++ Text.quoted given ++ " must be one of: debug, info, warn, error" := by
  rw [Problem.message, String.append_assoc]
  exact congrArg _ (by decide)

theorem messages_ruleProblems (index : Nat) (rules : List Rule) :
    (ruleProblems index rules).map (·.message) =
      ((ruleRequirements index rules).filter (¬ ·.Holds)).map (·.complaint) := by
  induction rules generalizing index with
  | nil => rfl
  | cons r rest ih =>
    have hfirst : (r.problems.map (Problem.rule index)).map (·.message) =
        ((Rule.Requirement.all.map (Requirement.rule index r)).filter (¬ ·.Holds)).map (·.complaint) := by
      rw [List.filter_map, List.map_map, List.map_map]
      have hmessages := congrArg (List.map ("rules[" ++ toString index ++ "]: " ++ ·)) r.messages_problems
      rw [List.map_map, List.map_map] at hmessages
      exact hmessages
    rw [ruleProblems, ruleRequirements, List.zipIdx_cons, List.flatMap_cons, List.filter_append,
      List.map_append, List.map_append, ih, hfirst]
    rfl

/-- The problems of settings are the complaints about what they violate. -/
theorem messages_problems (s : Settings) :
    s.problems.map (·.message) = s.violations.map (·.complaint) := by
  have hlevel : s.logLevelProblems.map (·.message) =
      ([Requirement.logLevel s.logLevel].filter (¬ ·.Holds)).map (·.complaint) := by
    unfold logLevelProblems
    cases s.logLevel with
    | none => rfl
    | some level =>
      have hholds : (Requirement.logLevel (some level)).Holds ↔ level ∈ logLevels := by
        simp [Requirement.Holds, logLevels]
      by_cases h : level ∈ logLevels <;> simp [h, hholds, Requirement.complaint]
  have hcapacity : s.capacityProblems.map (·.message) =
      ([Requirement.capacity s.channelCapacity].filter (¬ ·.Holds)).map (·.complaint) := by
    unfold capacityProblems
    by_cases h : s.channelCapacity = 0 <;> simp [h, Requirement.Holds, Requirement.complaint, Problem.message]
  have hsplit : s.requirements =
      [.logLevel s.logLevel] ++ [.capacity s.channelCapacity] ++ ruleRequirements 0 s.rules := rfl
  rw [problems, violations, hsplit, List.filter_append, List.filter_append]
  simp only [List.map_append, hlevel, hcapacity, messages_ruleProblems]

/-! ## Rules behind others -/

/-- The problem as one of a rule that stands `count` places further behind. -/
def Problem.behind (count : Nat) : Problem → Problem
  | .rule index problem => .rule (count + index) problem
  | problem => problem

theorem ruleProblems_behind (count index : Nat) (rules : List Rule) :
    ruleProblems (count + index) rules = (ruleProblems index rules).map (Problem.behind count) := by
  induction rules generalizing index with
  | nil => rfl
  | cons r rest ih =>
    rw [ruleProblems, ruleProblems, List.map_append, List.map_map, Nat.add_assoc, ih]
    rfl

/-- The problems of rules behind others are their own, at indices behind. -/
theorem ruleProblems_append (index : Nat) (rules more : List Rule) :
    ruleProblems index (rules ++ more) =
      ruleProblems index rules ++ ruleProblems (rules.length + index) more := by
  induction rules generalizing index with
  | nil => rw [List.nil_append, List.length_nil, Nat.zero_add]; rfl
  | cons r rest ih =>
    rw [List.cons_append, ruleProblems, ruleProblems, ih, List.append_assoc, List.length_cons]
    congr 3
    omega

/-! ## The check -/

theorem ruleRequirements_cons (index : Nat) (r : Rule) (rest : List Rule) :
    ruleRequirements index (r :: rest) =
      Rule.Requirement.all.map (.rule index r) ++ ruleRequirements (index + 1) rest := by
  rw [ruleRequirements, List.zipIdx_cons, List.flatMap_cons]
  rfl

theorem index_le_of_mem {c : Requirement} {index : Nat} {rules : List Rule}
    (h : c ∈ ruleRequirements index rules) : ∃ i r what, c = .rule i r what ∧ index ≤ i := by
  obtain ⟨⟨r, i⟩, hpair, hc⟩ := List.mem_flatMap.1 h
  obtain ⟨what, -, rfl⟩ := List.mem_map.1 hc
  exact ⟨i, r, what, rfl, List.le_snd_of_mem_zipIdx hpair⟩

theorem nodup_ruleRequirements (index : Nat) (rules : List Rule) :
    (ruleRequirements index rules).Nodup := by
  induction rules generalizing index with
  | nil => exact List.nodup_nil
  | cons r rest ih =>
    rw [ruleRequirements_cons, List.nodup_append]
    refine ⟨?_, ih (index + 1), ?_⟩
    · exact List.Nodup.map (fun _ _ h => (Requirement.rule.inj h).2.2) (by decide)
    · rintro c hc c' hc' rfl
      obtain ⟨what, -, rfl⟩ := List.mem_map.1 hc
      obtain ⟨i, r', what', hrule, hle⟩ := index_le_of_mem hc'
      cases hrule
      omega

/-- Nothing is required twice. -/
theorem nodup_requirements (s : Settings) : s.requirements.Nodup := by
  have hlevel (given : Option String) : .logLevel given ∉ ruleRequirements 0 s.rules := by
    intro h
    obtain ⟨i, r, what, hrule, -⟩ := index_le_of_mem h
    cases hrule
  have hcapacity (given : Nat) : .capacity given ∉ ruleRequirements 0 s.rules := by
    intro h
    obtain ⟨i, r, what, hrule, -⟩ := index_le_of_mem h
    cases hrule
  simp [requirements, hlevel, hcapacity, nodup_ruleRequirements]

theorem forall_ruleRequirements (index : Nat) (rules : List Rule) :
    (∀ c ∈ ruleRequirements index rules, c.Holds) ↔ ∀ r ∈ rules, ∀ what, r.Meets what := by
  induction rules generalizing index with
  | nil => exact ⟨fun _ => nofun, fun _ => nofun⟩
  | cons r rest ih =>
    have hfirst : (∀ c ∈ Rule.Requirement.all.map (Requirement.rule index r), c.Holds) ↔
        ∀ what, r.Meets what := by
      rw [List.forall_mem_map]
      exact ⟨fun h what => h what (by cases what <;> decide), fun h what _ => h what⟩
    rw [ruleRequirements_cons, List.forall_mem_append, hfirst, ih, List.forall_mem_cons]

/-- Settings have no violations when each part of them is as it should be. -/
theorem violations_eq_nil_iff (s : Settings) :
    s.violations = [] ↔
      (s.logLevel = none ∨ ∃ level ∈ ["debug", "info", "warn", "error"], s.logLevel = some level) ∧
      s.channelCapacity ≠ 0 ∧
      ∀ r ∈ s.rules, r.name ≠ "" ∧ r.type ∈ ["FILE", "NETWORK", "PROCESS"] ∧
        r.severity ∈ ["INFO", "WARN", "CRITICAL"] ∧
        (r.type = "PROCESS" → r.target ≠ "" → ∃ pattern, Glob.compile r.target = .ok pattern) := by
  have hlevel : (Requirement.logLevel s.logLevel).Holds ↔
      s.logLevel = none ∨ ∃ level ∈ ["debug", "info", "warn", "error"], s.logLevel = some level := by
    cases s.logLevel with
    | none => simp [Requirement.Holds]
    | some level => simp [Requirement.Holds, eq_comm]
  have hrule (r : Rule) : (∀ what, r.Meets what) ↔
      r.Meets .name ∧ r.Meets .type ∧ r.Meets .severity ∧ r.Meets .target := by
    refine ⟨fun h => ⟨h _, h _, h _, h _⟩, fun ⟨hname, htype, hseverity, htarget⟩ what => ?_⟩
    cases what with
    | name => exact hname
    | type => exact htype
    | severity => exact hseverity
    | target => exact htarget
  have hall : s.violations = [] ↔ ∀ c ∈ s.requirements, c.Holds := by
    simp [violations, List.filter_eq_nil_iff]
  rw [hall, requirements, List.forall_mem_append, List.forall_mem_cons, List.forall_mem_singleton, hlevel,
    forall_ruleRequirements, and_assoc]
  simp only [hrule]
  exact Iff.rfl

theorem problems_eq_nil_iff (s : Settings) : s.problems = [] ↔ s.violations = [] := by
  rw [← List.map_eq_nil_iff, messages_problems, List.map_eq_nil_iff]

/-- **Every violation is reported, once and in order.** Settings pass the check exactly when the log level is
unset or a known one, alerts may wait, and each rule has a name, a known type, a known severity and, if it
counts and has a target, a glob for it. Otherwise the report joins one complaint for each requirement that is
not met: the level, the capacity, then of each rule, under its own index, name, type, severity and target. So
the problems of rules behind others are their own, at indices behind. -/
theorem every_violation_reported (s : Settings) :
    (s.validate = .ok s ↔
      (s.logLevel = none ∨ ∃ level ∈ ["debug", "info", "warn", "error"], s.logLevel = some level) ∧
      s.channelCapacity ≠ 0 ∧
      ∀ r ∈ s.rules, r.name ≠ "" ∧ r.type ∈ ["FILE", "NETWORK", "PROCESS"] ∧
        r.severity ∈ ["INFO", "WARN", "CRITICAL"] ∧
        (r.type = "PROCESS" → r.target ≠ "" → ∃ pattern, Glob.compile r.target = .ok pattern)) ∧
    (s.validate = .ok s ∨ ∃ problems, s.validate = .error (.invalid problems) ∧
      problems.map (·.message) = s.violations.map (·.complaint) ∧
      (LoadError.invalid problems).message = "; ".intercalate (s.violations.map (·.complaint))) ∧
    s.requirements.Nodup ∧
    ∀ rules more, ({ s with rules := rules ++ more } : Settings).problems =
      ({ s with rules := rules } : Settings).problems ++
        (ruleProblems 0 more).map (Problem.behind rules.length) := by
  refine ⟨?_, ?_, s.nodup_requirements, fun rules more => ?_⟩
  · rw [validate_eq_ok_iff, and_iff_left rfl, problems_eq_nil_iff, violations_eq_nil_iff]
  · cases hproblems : s.problems with
    | nil => exact .inl ((validate_eq_ok_iff s s).2 ⟨hproblems, rfl⟩)
    | cons first rest =>
      refine .inr ⟨s.problems, ?_, s.messages_problems, ?_⟩
      · rw [validate, hproblems]
        rfl
      · rw [LoadError.message, report, messages_problems]
  · simp only [problems, ruleProblems_append, ruleProblems_behind, List.append_assoc]
    rfl

end Settings

end ExecWatch
