import ExecWatch.Proofs.Results
import ExecWatch.Proofs.Rule.Matcher

/-!
# Which rule is selected

Of the configured rules only process rules count. For an exec the first that matches its path is selected,
and only if none does the first that matches its task name. Main statements:

* `Rule.isFirst_cons`: the rule of the least index that has a property, along the list;
* `Matcher.ofRules_eq_error_iff`: compiling rules fails at the first whose target is no glob;
* `Matcher.matchName_eq_some_iff`: a name is matched by the first process rule that matches it;
* `Matcher.first_rule_wins`: the selected rule, and what does not change it.
-/

namespace ExecWatch

namespace Rule

/-! ## First rules -/

/-- Rule `i` is `r`, which has the property `p`, and no rule before it has. -/
structure IsFirst (p : Rule → Prop) (rules : List Rule) (i : Nat) (r : Rule) : Prop where
  rule : rules[i]? = some r
  holds : p r
  least : ∀ j r', j < i → rules[j]? = some r' → ¬ p r'

section
variable {p : Rule → Prop} {rules : List Rule} {i : Nat} {r first : Rule}

theorem isFirst_cons : IsFirst p (first :: rules) i r ↔
    (i = 0 ∧ r = first ∧ p first) ∨ ¬ p first ∧ ∃ j, i = j + 1 ∧ IsFirst p rules j r := by
  constructor
  · intro h
    cases i with
    | zero =>
      obtain rfl : first = r := Option.some.inj h.rule
      exact .inl ⟨rfl, rfl, h.holds⟩
    | succ j =>
      refine .inr ⟨h.least 0 first (Nat.zero_lt_succ j) rfl, j, rfl, h.rule, h.holds, ?_⟩
      intro k r' hk hr'
      exact h.least (k + 1) r' (Nat.succ_lt_succ hk) hr'
  · rintro (⟨rfl, rfl, hp⟩ | ⟨hnot, j, rfl, h⟩)
    · exact ⟨rfl, hp, nofun⟩
    · refine ⟨h.rule, h.holds, fun k r' hk hr' => ?_⟩
      cases k with
      | zero =>
        obtain rfl : first = r' := Option.some.inj hr'
        exact hnot
      | succ k => exact h.least k r' (Nat.lt_of_succ_lt_succ hk) hr'

/-- A rule with the property hides all behind it. -/
theorem exists_isFirst_of_holds {q : Rule → Prop} (hp : p first) :
    (∃ i r, IsFirst p (first :: rules) i r ∧ q r) ↔ q first := by
  simp only [isFirst_cons, hp, not_true, false_and, or_false, and_true]
  constructor
  · rintro ⟨_, _, ⟨rfl, rfl⟩, hq⟩
    exact hq
  · intro hq
    exact ⟨0, first, ⟨rfl, rfl⟩, hq⟩

/-- A rule without the property is as good as not there, but for the indices. -/
theorem exists_isFirst_of_not {q : Rule → Prop} (hp : ¬ p first) :
    (∃ i r, IsFirst p (first :: rules) i r ∧ q r) ↔ ∃ i r, IsFirst p rules i r ∧ q r := by
  simp only [isFirst_cons, hp, and_false, not_false_eq_true, true_and, false_or]
  constructor
  · rintro ⟨_, r, ⟨i, rfl, h⟩, hq⟩
    exact ⟨i, r, h, hq⟩
  · rintro ⟨i, r, h, hq⟩
    exact ⟨i + 1, r, ⟨i, rfl, h⟩, hq⟩

theorem IsFirst.mem (h : IsFirst p rules i r) : r ∈ rules := List.mem_of_getElem? h.rule

/-- If any rule has the property, there is a first one. -/
theorem exists_isFirst (hr : r ∈ rules) (hp : p r) : ∃ i first, IsFirst p rules i first := by
  induction rules with
  | nil => cases hr
  | cons head rest ih =>
    by_cases hhead : p head
    · exact ⟨0, head, isFirst_cons.2 (.inl ⟨rfl, rfl, hhead⟩)⟩
    · rcases List.mem_cons.1 hr with rfl | hr
      · exact absurd hp hhead
      · obtain ⟨i, first, hfirst⟩ := ih hr
        exact ⟨i + 1, first, isFirst_cons.2 (.inr ⟨hhead, i, rfl, hfirst⟩)⟩

/-- The first rule with a property has no greater index than any other. -/
theorem IsFirst.le {j : Nat} {r' : Rule} (h : IsFirst p rules i r) (hr' : rules[j]? = some r')
    (hp : p r') : i ≤ j :=
  Nat.le_of_not_lt fun hlt => h.least j r' hlt hr' hp

end

/-! ## What a rule matches -/

/-- The rule counts, and its target is no glob. -/
def Refused (r : Rule) : Prop :=
  r.isProcess = true ∧ r.target ≠ "" ∧ ¬ ∃ pattern, Glob.compile r.target = .ok pattern

/-- Every name is matched without a target; otherwise the glob must match the name's last element or the
whole name. -/
def Matches (r : Rule) (name : String) : Prop :=
  r.target = "" ∨ ∃ pattern, Glob.compile r.target = .ok pattern ∧
    (pattern.isMatch (PathName.baseName name.toList) = true ∨ pattern.isMatch name.toList = true)

instance (r : Rule) (name : String) : Decidable (r.Matches name) :=
  inferInstanceAs (Decidable (_ ∨ _))

/-- The rule counts and matches the name. -/
def Watches (r : Rule) (name : String) : Prop := r.isProcess = true ∧ r.Matches name

instance (r : Rule) (name : String) : Decidable (r.Watches name) :=
  inferInstanceAs (Decidable (_ ∧ _))

end Rule

namespace ProcessRule

theorem compile_eq_error_iff {r : Rule} {e : Error} :
    compile r = .error e ↔
      r.target ≠ "" ∧ e.rule = r.name ∧ Glob.compile r.target = .error e.cause := by
  unfold compile
  by_cases htarget : r.target = ""
  · simp [htarget]
  · cases hglob : Glob.compile r.target with
    | ok pattern => simp [htarget]
    | error cause =>
      simp only [String.isEmpty_iff, htarget, ↓reduceIte, ne_eq, not_false_eq_true, true_and,
        Except.error.injEq]
      constructor
      · rintro rfl
        exact ⟨rfl, rfl⟩
      · rintro ⟨hrule, rfl⟩
        rw [← hrule]

theorem refused_iff_of_process {r : Rule} (h : r.isProcess = true) :
    r.Refused ↔ ∃ e, compile r = .error e := by
  simp only [compile_eq_error_iff, Rule.Refused, h, true_and]
  constructor
  · rintro ⟨htarget, hnone⟩
    cases hglob : Glob.compile r.target with
    | ok pattern => exact absurd ⟨pattern, hglob⟩ hnone
    | error cause => exact ⟨⟨r.name, cause⟩, htarget, rfl, rfl⟩
  · rintro ⟨e, htarget, -, hglob⟩
    refine ⟨htarget, ?_⟩
    rw [hglob]
    exact nofun

theorem isMatch_iff {r : Rule} {rule : ProcessRule} (h : compile r = .ok rule) (name : String) :
    rule.isMatch name.toList = true ↔ r.Matches name := by
  unfold compile at h
  split at h
  · rename_i htarget
    cases h
    simp only [isMatch, Rule.Matches, true_iff]
    exact .inl (by simpa using htarget)
  · rename_i htarget
    split at h
    · rename_i pattern hglob
      cases h
      have hne : r.target ≠ "" := by simpa using htarget
      simp [isMatch, Rule.Matches, hne, hglob]
    · cases h

end ProcessRule

/-! ## Compiling rules -/

namespace Matcher

open Rule

theorem ofRules_cons (r : Rule) (rest : List Rule) :
    ofRules (r :: rest) =
      if r.isProcess = true then do
        let rule ← ProcessRule.compile r
        let m ← ofRules rest
        return ⟨rule :: m.rules⟩
      else ofRules rest := by
  unfold ofRules
  by_cases hprocess : r.isProcess = true
  · rw [List.filter_cons_of_pos hprocess, if_pos hprocess, List.mapM_cons]
    cases ProcessRule.compile r with
    | error e => rfl
    | ok rule =>
      cases (rest.filter (·.isProcess)).mapM ProcessRule.compile with
      | error e => rfl
      | ok rules => rfl
  · rw [List.filter_cons_of_neg hprocess, if_neg hprocess]

/-- Rules that do not count are as good as not there. -/
theorem ofRules_insert {others : List Rule} (h : ∀ r ∈ others, r.isProcess = false)
    (before after : List Rule) : ofRules (before ++ others ++ after) = ofRules (before ++ after) := by
  have hothers : others.filter (·.isProcess) = [] :=
    List.filter_eq_nil_iff.2 fun r hr => by simp [h r hr]
  simp only [ofRules, List.filter_append, hothers, List.append_nil]

/-- A matcher of rules holds that of the rules in front. -/
theorem exists_of_ofRules_append {rules more : List Rule} {m' : Matcher}
    (h : ofRules (rules ++ more) = .ok m') :
    ∃ m later, ofRules rules = .ok m ∧ m'.rules = m.rules ++ later := by
  rw [ofRules, List.filter_append, List.mapM_append] at h
  obtain ⟨all, hall, h⟩ := exists_of_bind_eq_ok h
  cases h
  obtain ⟨front, hfront, hall⟩ := exists_of_bind_eq_ok hall
  obtain ⟨later, -, hall⟩ := exists_of_bind_eq_ok hall
  cases hall
  refine ⟨⟨front⟩, later, ?_, rfl⟩
  rw [ofRules, hfront]
  rfl

/-- What it takes to compile rules: the first, if it counts, and the others. -/
theorem cases_of_ofRules_cons {r : Rule} {rest : List Rule} {m : Matcher}
    (h : ofRules (r :: rest) = .ok m) :
    (r.isProcess = false ∧ ofRules rest = .ok m) ∨
      r.isProcess = true ∧ ∃ rule m', ProcessRule.compile r = .ok rule ∧ ofRules rest = .ok m' ∧
        m = ⟨rule :: m'.rules⟩ := by
  rw [ofRules_cons] at h
  split at h
  · rename_i hprocess
    obtain ⟨rule, hrule, h⟩ := exists_of_bind_eq_ok h
    obtain ⟨m', hrest, h⟩ := exists_of_bind_eq_ok h
    cases h
    exact .inr ⟨hprocess, rule, m', hrule, hrest, rfl⟩
  · rename_i hprocess
    exact .inl ⟨by simpa using hprocess, h⟩

/-- Compiling rules fails at the first whose target is no glob. -/
theorem ofRules_eq_error_iff (rules : List Rule) (e : ProcessRule.Error) :
    ofRules rules = .error e ↔ ∃ i r, IsFirst Refused rules i r ∧ ProcessRule.compile r = .error e := by
  induction rules with
  | nil => exact ⟨nofun, fun ⟨_, _, h, _⟩ => nomatch h.rule⟩
  | cons first rest ih =>
    rw [ofRules_cons]
    by_cases hprocess : first.isProcess = true
    · rw [if_pos hprocess]
      cases hcompile : ProcessRule.compile first with
      | error e' =>
        have hrefused : first.Refused :=
          (ProcessRule.refused_iff_of_process hprocess).2 ⟨e', hcompile⟩
        rw [exists_isFirst_of_holds hrefused, hcompile, Except.error.injEq]
        exact ⟨Except.error.inj, congrArg _⟩
      | ok rule =>
        have haccepted : ¬ first.Refused := by
          rw [ProcessRule.refused_iff_of_process hprocess, hcompile]
          exact nofun
        rw [exists_isFirst_of_not haccepted, ← ih]
        cases ofRules rest with
        | error e' => exact Iff.rfl
        | ok m => exact ⟨nofun, nofun⟩
    · rw [if_neg hprocess, exists_isFirst_of_not fun h => hprocess h.1]
      exact ih

/-- Rules make no matcher when one of them is refused. -/
theorem exists_error_iff (rules : List Rule) :
    (∃ e, ofRules rules = .error e) ↔ ∃ r ∈ rules, r.Refused := by
  constructor
  · rintro ⟨e, he⟩
    obtain ⟨i, r, hfirst, -⟩ := (ofRules_eq_error_iff rules e).1 he
    exact ⟨r, hfirst.mem, hfirst.holds⟩
  · rintro ⟨r, hr, hrefused⟩
    obtain ⟨i, first, hfirst⟩ := exists_isFirst hr hrefused
    obtain ⟨e, he⟩ := (ProcessRule.refused_iff_of_process hfirst.holds.1).1 hfirst.holds
    exact ⟨e, (ofRules_eq_error_iff rules e).2 ⟨i, first, hfirst, he⟩⟩

/-! ## The first rule that matches -/

section
variable {rules : List Rule} {m : Matcher}

theorem matchName_cons (rule : ProcessRule) (rules : List ProcessRule) (name : String) :
    matchName ⟨rule :: rules⟩ name =
      if rule.isMatch name.toList = true then some rule else matchName ⟨rules⟩ name := by
  rw [matchName, List.find?_cons]
  cases rule.isMatch name.toList <;> rfl

/-- A name is matched by the first process rule that matches it. -/
theorem matchName_eq_some_iff (hm : ofRules rules = .ok m) (name : String) (p : ProcessRule) :
    m.matchName name = some p ↔
      ∃ i r, IsFirst (·.Watches name) rules i r ∧ ProcessRule.compile r = .ok p := by
  induction rules generalizing m with
  | nil =>
    cases hm
    exact ⟨nofun, fun ⟨_, _, h, _⟩ => nomatch h.rule⟩
  | cons first rest ih =>
    rcases cases_of_ofRules_cons hm with ⟨hforeign, hrest⟩ | ⟨hprocess, rule, m', hrule, hrest, rfl⟩
    · rw [exists_isFirst_of_not (fun h => by simp [h.1] at hforeign), ← ih hrest]
    · rw [matchName_cons]
      by_cases hmatch : first.Matches name
      · rw [if_pos ((ProcessRule.isMatch_iff hrule name).2 hmatch),
          exists_isFirst_of_holds ⟨hprocess, hmatch⟩, hrule, Option.some.injEq, Except.ok.injEq]
      · rw [if_neg fun h => hmatch ((ProcessRule.isMatch_iff hrule name).1 h),
          exists_isFirst_of_not fun h => hmatch h.2, ← ih hrest]

theorem matchName_eq_none_iff (hm : ofRules rules = .ok m) (name : String) :
    m.matchName name = none ↔ ∀ r ∈ rules, ¬ r.Watches name := by
  constructor
  · intro hnone r hr hwatches
    obtain ⟨i, first, hfirst⟩ := exists_isFirst (p := (·.Watches name)) hr hwatches
    cases hcompile : ProcessRule.compile first with
    | ok rule =>
      rw [(matchName_eq_some_iff hm name rule).2 ⟨i, first, hfirst, hcompile⟩] at hnone
      cases hnone
    | error e =>
      have hrefused := (ProcessRule.refused_iff_of_process hfirst.holds.1).2 ⟨e, hcompile⟩
      obtain ⟨e', he'⟩ := (exists_error_iff rules).2 ⟨first, hfirst.mem, hrefused⟩
      cases hm.symm.trans he'
  · intro hnone
    cases hfound : m.matchName name with
    | none => rfl
    | some rule =>
      obtain ⟨i, r, hfirst, -⟩ := (matchName_eq_some_iff hm name rule).1 hfound
      exact absurd hfirst.holds (hnone r hfirst.mem)

end

/-! ## The rule for an exec -/

/-- Rule `i` is selected for an exec: it is the first that matches the path or, if none does, the first that
matches the task name. -/
def Selected (rules : List Rule) (exec : ExecInfo) (i : Nat) (r : Rule) : Prop :=
  IsFirst (·.Watches exec.filename) rules i r ∨
    (∀ r' ∈ rules, ¬ r'.Watches exec.filename) ∧ IsFirst (·.Watches exec.comm) rules i r

section
variable {rules : List Rule} {m : Matcher} {exec : ExecInfo} {p : ProcessRule}

theorem matchExec_eq_some_iff (hm : ofRules rules = .ok m) :
    m.matchExec exec = some p ↔ ∃ i r, Selected rules exec i r ∧ ProcessRule.compile r = .ok p := by
  rw [matchExec, Option.or_eq_some_iff, matchName_eq_none_iff hm, matchName_eq_some_iff hm,
    matchName_eq_some_iff hm]
  constructor
  · rintro (⟨i, r, hfirst, hcompile⟩ | ⟨hnone, i, r, hfirst, hcompile⟩)
    · exact ⟨i, r, .inl hfirst, hcompile⟩
    · exact ⟨i, r, .inr ⟨hnone, hfirst⟩, hcompile⟩
  · rintro ⟨i, r, hfirst | ⟨hnone, hfirst⟩, hcompile⟩
    · exact .inl ⟨i, r, hfirst, hcompile⟩
    · exact .inr ⟨hnone, i, r, hfirst, hcompile⟩

theorem matchExec_eq_none_iff (hm : ofRules rules = .ok m) :
    m.matchExec exec = none ↔ ∀ r ∈ rules, ¬ r.Watches exec.filename ∧ ¬ r.Watches exec.comm := by
  rw [matchExec, Option.or_eq_none_iff, matchName_eq_none_iff hm, matchName_eq_none_iff hm]
  exact ⟨fun ⟨h, h'⟩ r hr => ⟨h r hr, h' r hr⟩,
    fun h => ⟨fun r hr => (h r hr).1, fun r hr => (h r hr).2⟩⟩

/-- What the path decides, rules behind do not change. -/
theorem matchExec_of_append {m' : Matcher} {later : List ProcessRule}
    (hrules : m'.rules = m.rules ++ later) (h : m.matchName exec.filename = some p) :
    m.matchExec exec = some p ∧ m'.matchExec exec = some p := by
  have hmore : m'.matchName exec.filename = some p := by
    rw [matchName, hrules, List.find?_append, ← matchName, h]
    rfl
  rw [matchExec, matchExec, h, hmore]
  exact ⟨rfl, rfl⟩

/-- A process rule without a target matches every path. -/
theorem watches_of_wildcard {r : Rule} (hprocess : r.isProcess = true) (htarget : r.target = "")
    (name : String) : r.Watches name :=
  ⟨hprocess, .inl htarget⟩

theorem le_of_selected_of_wildcard {i j : Nat} {r r' : Rule} (hr : rules[i]? = some r)
    (hprocess : r.isProcess = true) (htarget : r.target = "") (h : Selected rules exec j r') :
    j ≤ i := by
  rcases h with hfirst | ⟨hnone, -⟩
  · exact hfirst.le hr (watches_of_wildcard hprocess htarget _)
  · exact absurd (watches_of_wildcard hprocess htarget _) (hnone r (List.mem_of_getElem? hr))

/-- Behind a process rule without a target no rule is looked at. -/
theorem matchExec_of_wildcard (hm : ofRules rules = .ok m) {i : Nat} {r : Rule}
    (hr : rules[i]? = some r) (hprocess : r.isProcess = true) (htarget : r.target = "") :
    ∃ m', ofRules (rules.take (i + 1)) = .ok m' ∧
      ∀ exec, ∃ p, m.matchExec exec = some p ∧ m'.matchExec exec = some p := by
  rw [← List.take_append_drop (i + 1) rules] at hm
  obtain ⟨m', later, hm', hrules⟩ := exists_of_ofRules_append hm
  refine ⟨m', hm', fun exec => ?_⟩
  have hfront : r ∈ rules.take (i + 1) := by
    refine List.mem_of_getElem? (i := i) ?_
    rw [List.getElem?_take_of_lt (Nat.lt_succ_self i), hr]
  cases hfound : m'.matchName exec.filename with
  | none =>
    exact absurd (watches_of_wildcard hprocess htarget _)
      ((matchName_eq_none_iff hm' _).1 hfound r hfront)
  | some p =>
    obtain ⟨hfew, hall⟩ := matchExec_of_append hrules hfound
    exact ⟨p, hall, hfew⟩

end

/-- **The first rule wins, by the path before the task name.** A matcher that rules make selects the process
rule of the least index that matches the path, if any does, and else that of the least index that matches
the task name. Rules that are no process rules can be put in or taken out anywhere. What the path decides, no
rule that is added behind changes. A process rule without a target hides all rules behind it. Rules make no
matcher exactly when one is refused, and the error names the first of these. -/
theorem first_rule_wins (rules : List Rule) :
    (∀ m, ofRules rules = .ok m → ∀ exec,
      (∀ p, m.matchExec exec = some p ↔
        ∃ i r, Selected rules exec i r ∧ ProcessRule.compile r = .ok p) ∧
      (m.matchExec exec = none ↔
        ∀ r ∈ rules, ¬ r.Watches exec.filename ∧ ¬ r.Watches exec.comm)) ∧
    (∀ before others after, rules = before ++ after → (∀ r ∈ others, r.isProcess = false) →
      ofRules (before ++ others ++ after) = ofRules rules) ∧
    (∀ more m', ofRules (rules ++ more) = .ok m' → ∃ m, ofRules rules = .ok m ∧
      ∀ exec, (∃ r ∈ rules, r.Watches exec.filename) → m'.matchExec exec = m.matchExec exec) ∧
    (∀ i r, rules[i]? = some r → r.isProcess = true → r.target = "" →
      (∀ exec j r', Selected rules exec j r' → j ≤ i) ∧
      ∀ m, ofRules rules = .ok m → ∃ m', ofRules (rules.take (i + 1)) = .ok m' ∧
        ∀ exec, ∃ p, m.matchExec exec = some p ∧ m'.matchExec exec = some p) ∧
    ((∃ e, ofRules rules = .error e) ↔ ∃ r ∈ rules, r.Refused) ∧
    ∀ e, ofRules rules = .error e ↔
      ∃ i r, IsFirst Refused rules i r ∧ e.rule = r.name ∧ Glob.compile r.target = .error e.cause := by
  refine ⟨fun m hm exec => ⟨fun p => matchExec_eq_some_iff hm, matchExec_eq_none_iff hm⟩, ?_, ?_, ?_,
    exists_error_iff rules, ?_⟩
  · rintro before others after rfl hothers
    exact ofRules_insert hothers before after
  · intro more m' hm'
    obtain ⟨m, later, hm, hrules⟩ := exists_of_ofRules_append hm'
    refine ⟨m, hm, fun exec ⟨r, hr, hwatches⟩ => ?_⟩
    cases hfound : m.matchName exec.filename with
    | none => exact absurd hwatches ((matchName_eq_none_iff hm _).1 hfound r hr)
    | some p =>
      obtain ⟨hfew, hall⟩ := matchExec_of_append hrules hfound
      rw [hfew, hall]
  · intro i r hr hprocess htarget
    exact ⟨fun exec j r' h => le_of_selected_of_wildcard hr hprocess htarget h,
      fun m hm => matchExec_of_wildcard hm hr hprocess htarget⟩
  · intro e
    rw [ofRules_eq_error_iff]
    refine exists_congr fun i => exists_congr fun r => and_congr_right fun hfirst => ?_
    rw [ProcessRule.compile_eq_error_iff, and_iff_right hfirst.holds.2.1]

/-- The rule of a temporary directory is behind one for shells, and before one for everything. -/
def payloadRules : List Rule :=
  [⟨"passwd", "FILE", "/etc/passwd", "WARN"⟩, ⟨"shells", processType, "*sh", "INFO"⟩,
    ⟨"temporary", processType, "/tmp/*", "CRITICAL"⟩, ⟨"any", processType, "", "INFO"⟩]

/-- A shell runs a file of a temporary directory. -/
def payloadExec : ExecInfo := ⟨7, 1, 0, 0, "bash", "/tmp/payload", ""⟩

theorem first_rule_wins_payload :
    ∃ m p, ofRules payloadRules = .ok m ∧ p.name = "temporary" ∧ m.matchExec payloadExec = some p ∧
      (∃ m', ofRules (payloadRules ++ [⟨"late", processType, "payload", "INFO"⟩]) = .ok m' ∧
        m'.matchExec payloadExec = some p) ∧
      (∀ j r', Selected payloadRules payloadExec j r' → j ≤ 3) ∧
      ofRules (payloadRules.take 2 ++ [⟨"ports", "NETWORK", "[", "INFO"⟩] ++ payloadRules.drop 2) =
        .ok m := by
  obtain ⟨hselected, hforeign, hadded, hwildcard, -, -⟩ := first_rule_wins payloadRules
  obtain ⟨m', hm', -⟩ : ∃ m', ofRules (payloadRules ++ [⟨"late", processType, "payload", "INFO"⟩]) =
      .ok m' ∧ m'.rules.length = 4 := by decide +kernel
  obtain ⟨p, hp, hname⟩ : ∃ p,
      ProcessRule.compile ⟨"temporary", processType, "/tmp/*", "CRITICAL"⟩ = .ok p ∧
        p.name = "temporary" := by decide +kernel
  have hfirst : IsFirst (·.Watches "/tmp/payload") payloadRules 2
      ⟨"temporary", processType, "/tmp/*", "CRITICAL"⟩ := by
    refine isFirst_cons.2 (.inr ⟨by decide +kernel, 1, rfl, ?_⟩)
    refine isFirst_cons.2 (.inr ⟨by decide +kernel, 0, rfl, ?_⟩)
    exact isFirst_cons.2 (.inl ⟨rfl, rfl, by decide +kernel⟩)
  obtain ⟨m, hm, hsame⟩ := hadded _ m' hm'
  have hfound : m.matchExec payloadExec = some p :=
    ((hselected m hm payloadExec).1 p).2 ⟨2, _, .inl hfirst, hp⟩
  refine ⟨m, p, hm, hname, hfound, ⟨m', hm', ?_⟩, ?_, ?_⟩
  · rw [hsame payloadExec ⟨_, hfirst.mem, hfirst.holds⟩, hfound]
  · exact (hwildcard 3 _ rfl rfl rfl).1 payloadExec
  · rw [hforeign _ _ _ rfl (by decide), hm]

end Matcher

end ExecWatch
