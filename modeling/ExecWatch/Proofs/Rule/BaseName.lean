import ExecWatch.Proofs.Pattern.Composition
import ExecWatch.Proofs.Rule.PathName
import ExecWatch.Proofs.Rule.Selection

/-!
# Rules and base names

A rule is tried on the base name of a path and on the whole path. What follows for paths in directories, and
for execs without a path:

* `Glob.not_isMatch_of_slash`: without a slash or a class of its own, a glob matches no name with a slash, so
  on a path only the base name counts;
* `ProcessRule.directory_independent`: such a rule does not see the directories of a path;
* `Glob.isMatch_nil_iff`: only stars match the empty name;
* `Matcher.pathless_exec`: the base name of no path is `.`, so an exec without a path is matched as if its path
  were empty or `.`.
-/

namespace ExecWatch

/-! ## Globs on names with a slash, and on the empty name -/

namespace Glob

/-- Neither a letter other than the slash nor a wildcard matches a slash. -/
theorem Element.slash_not_mem {e : Element} {part : List Char} (h : e.Matches part)
    (hslash : '/' ∉ e.text) (hclass : '[' ∉ e.text) : '/' ∉ part := by
  cases e with
  | letter l _ =>
    obtain rfl : part = [l.char] := h
    rw [List.mem_singleton]
    intro hl
    apply hslash
    cases l with
    | plain c => exact List.mem_singleton.2 hl
    | escaped c => exact List.mem_cons_of_mem _ (List.mem_singleton.2 hl)
  | any =>
    obtain ⟨c, rfl, hc⟩ := h
    exact fun hmem => hc (List.mem_singleton.1 hmem).symm
  | run => exact h
  | cls k => exact absurd List.mem_cons_self hclass

/-- The empty part is matched by stars only. -/
theorem Element.matches_nil_iff (e : Element) : e.Matches [] ↔ ∀ c ∈ e.text, c = '*' := by
  cases e with
  | letter l havoids =>
    constructor
    · intro h
      cases h
    · intro h
      cases l with
      | plain c =>
        obtain rfl : c = '*' := h c List.mem_cons_self
        exact absurd rfl (havoids '*' List.mem_cons_self)
      | escaped c => exact absurd (h '\\' List.mem_cons_self) (by decide)
  | any =>
    constructor
    · rintro ⟨c, hc, -⟩
      cases hc
    · intro h
      exact absurd (h '?' List.mem_cons_self) (by decide)
  | run => simp [Element.Matches, Element.text]
  | cls k =>
    constructor
    · rintro ⟨c, hc, -⟩
      cases hc
    · intro h
      exact absurd (h '[' List.mem_cons_self) (by decide)

/-- Elements match the empty name when each of them does. -/
theorem parts_of_nil_iff (es : List Element) :
    (∃ parts : List (List Char), parts.flatten = [] ∧ List.Forall₂ Element.Matches es parts) ↔
      ∀ e ∈ es, e.Matches [] := by
  induction es with
  | nil => exact ⟨fun _ => nofun, fun _ => ⟨[], rfl, .nil⟩⟩
  | cons e es ih =>
    rw [List.forall_mem_cons, ← ih]
    constructor
    · rintro ⟨parts, hflat, hparts⟩
      obtain ⟨part, parts, hpart, hrest, rfl⟩ := List.forall₂_cons_left_iff.1 hparts
      obtain ⟨rfl, hflat⟩ := List.append_eq_nil_iff.1 hflat
      exact ⟨hpart, parts, hflat, hrest⟩
    · rintro ⟨hnil, parts, hflat, hparts⟩
      exact ⟨[] :: parts, hflat, .cons hnil hparts⟩

section
variable {glob : String} {pattern : Regex}

/-- **Without a slash or a class, a glob matches no name with a slash.** -/
theorem not_isMatch_of_slash (h : compile glob = .ok pattern) (hslash : '/' ∉ glob.toList)
    (hclass : '[' ∉ glob.toList) {name : List Char} (hname : '/' ∈ name) :
    pattern.isMatch name ≠ true := by
  intro hmatch
  obtain ⟨es, hes⟩ := spelled_of_compile h
  obtain ⟨parts, rfl, hparts⟩ := (isMatch_iff_parts h hes name).1 hmatch
  obtain ⟨part, hpart, hmem⟩ := List.mem_flatten.1 hname
  obtain ⟨e, he, hmatches⟩ := exists_of_mem_forall₂ hparts hpart
  have hsub : ∀ c, c ∈ e.text → c ∈ glob.toList := fun c hc => hes ▸ List.mem_flatMap.2 ⟨e, he, hc⟩
  exact Element.slash_not_mem hmatches (mt (hsub _) hslash) (mt (hsub _) hclass) hmem

/-- **Only stars match the empty name.** -/
theorem isMatch_nil_iff (h : compile glob = .ok pattern) :
    pattern.isMatch [] = true ↔ ∀ c ∈ glob.toList, c = '*' := by
  obtain ⟨es, hes⟩ := spelled_of_compile h
  rw [isMatch_iff_parts h hes, parts_of_nil_iff, ← hes]
  simp only [Element.matches_nil_iff, List.mem_flatMap]
  exact ⟨fun hall c ⟨e, he, hc⟩ => hall e he c hc, fun hall e he c hc => hall c ⟨e, he, hc⟩⟩

end

end Glob

/-! ## The directories of a path -/

namespace PathName

/-- The last component of a path with its trailing slashes removed; `/` itself when nothing else is left. -/
def LastComponent (path last : List Char) : Prop :=
  path ≠ [] ∧ if Slashes path then last = ['/'] else LastElement path last

theorem lastComponent_iff {path last : List Char} (hne : path ≠ []) :
    LastComponent path last ↔ baseName path = last := by
  unfold LastComponent
  split
  · rename_i hslashes
    rw [baseName_slashes hne hslashes, and_iff_right hne, eq_comm]
  · rename_i hslashes
    rw [lastElement_iff hslashes, and_iff_right hne]

end PathName

namespace ProcessRule

open PathName

variable {r : Rule} {rule : ProcessRule}

/-- A rule with a target is compiled to a pattern, which is tried on the base name and on the whole name. -/
theorem exists_pattern (h : compile r = .ok rule) (htarget : r.target ≠ "") :
    ∃ pattern, Glob.compile r.target = .ok pattern ∧
      ∀ name, rule.isMatch name = (pattern.isMatch (baseName name) || pattern.isMatch name) := by
  cases hglob : Glob.compile r.target with
  | error cause => simp [compile, htarget, hglob] at h
  | ok pattern =>
    obtain rfl : ⟨r.name, r.severity, some pattern⟩ = rule := by
      simpa [compile, htarget, hglob] using h
    exact ⟨pattern, rfl, fun name => rfl⟩

/-- **A rule without slashes does not see directories.** On a path that is not empty its verdict is that of its
glob on the path's last component, so paths with one last component have one verdict, and a name has it in
every directory. -/
theorem directory_independent (hrule : compile r = .ok rule) (htarget : r.target ≠ "")
    (hslash : '/' ∉ r.target.toList) (hclass : '[' ∉ r.target.toList) :
    (∃ pattern, Glob.compile r.target = .ok pattern ∧
      ∀ path, path ≠ [] → ∃ last, (∀ name, LastComponent path name ↔ name = last) ∧
        (rule.isMatch path = true ↔ pattern.isMatch last = true)) ∧
    (∀ path path' last, LastComponent path last → LastComponent path' last →
      rule.isMatch path = rule.isMatch path') ∧
    ∀ directory name, name ≠ [] → '/' ∉ name →
      rule.isMatch (directory ++ '/' :: name) = rule.isMatch name := by
  obtain ⟨pattern, hpattern, hmatch⟩ := exists_pattern hrule htarget
  -- the whole path is matched only when it has no slash, and then it is its own base name
  have hbase : ∀ path, path ≠ [] → rule.isMatch path = pattern.isMatch (baseName path) := by
    intro path hne
    rw [hmatch, Bool.or_eq_left_iff_imp]
    intro hwhole
    have hplain : '/' ∉ path := fun hmem =>
      Glob.not_isMatch_of_slash hpattern hslash hclass hmem hwhole
    rwa [(lastElement_self hne hplain).baseName_eq]
  refine ⟨⟨pattern, hpattern, fun path hne => ⟨baseName path, fun name => ?_, ?_⟩⟩, ?_, ?_⟩
  · rw [lastComponent_iff hne, eq_comm]
  · rw [hbase path hne]
  · intro path path' last hlast hlast'
    rw [hbase path hlast.1, hbase path' hlast'.1, (lastComponent_iff hlast.1).1 hlast,
      (lastComponent_iff hlast'.1).1 hlast']
  · intro directory name hne hname
    have hjoin : directory ++ '/' :: name ≠ [] := List.append_ne_nil_of_right_ne_nil _ (List.cons_ne_nil _ _)
    rw [hbase _ hjoin, hbase name hne, (lastElement_join directory hne hname).baseName_eq,
      (lastElement_self hne hname).baseName_eq]

/-- A question mark in a name with an extension of one character. -/
def queryRule : Rule := ⟨"query", Rule.processType, "*\\?*.?", "INFO"⟩

theorem directory_independent_query :
    ∃ rule, compile queryRule = .ok rule ∧ queryRule.target ≠ "" ∧ '/' ∉ queryRule.target.toList ∧
      '[' ∉ queryRule.target.toList ∧ rule.isMatch "x?.y".toList = true ∧
      LastComponent "//srv/a?b//x?.y///".toList "x?.y".toList ∧ LastComponent "x?.y/".toList "x?.y".toList ∧
      rule.isMatch "//srv/a?b//x?.y///".toList = rule.isMatch "x?.y/".toList ∧
      rule.isMatch ("/a?.c".toList ++ '/' :: "x?.y".toList) = true := by
  obtain ⟨rule, hrule, hname⟩ : ∃ rule, compile queryRule = .ok rule ∧
      rule.isMatch "x?.y".toList = true := by decide +kernel
  have htarget : queryRule.target ≠ "" := by decide +kernel
  have hslash : '/' ∉ queryRule.target.toList := by decide +kernel
  have hclass : '[' ∉ queryRule.target.toList := by decide +kernel
  have hdeep : LastComponent "//srv/a?b//x?.y///".toList "x?.y".toList :=
    (lastComponent_iff (by decide +kernel)).2 (by decide +kernel)
  have hflat : LastComponent "x?.y/".toList "x?.y".toList :=
    (lastComponent_iff (by decide +kernel)).2 (by decide +kernel)
  obtain ⟨-, hsame, hjoin⟩ := directory_independent hrule htarget hslash hclass
  exact ⟨rule, hrule, htarget, hslash, hclass, hname, hdeep, hflat, hsame _ _ _ hdeep hflat,
    (hjoin _ _ (by decide +kernel) (by decide +kernel)).trans hname⟩

end ProcessRule

/-! ## Execs without a path -/

namespace Rule

/-- The rule counts and matches what stands in for a path that is not there: it has no target, or its glob
matches the empty name or `.`, the base name of the empty path. -/
def WatchesPathless (r : Rule) : Prop :=
  r.isProcess = true ∧ (r.target = "" ∨ ∃ pattern, Glob.compile r.target = .ok pattern ∧
    (pattern.isMatch ['.'] = true ∨ pattern.isMatch [] = true))

instance (r : Rule) : Decidable r.WatchesPathless :=
  inferInstanceAs (Decidable (_ ∧ (_ ∨ _)))

theorem watches_empty_iff (r : Rule) : r.Watches "" ↔ r.WatchesPathless := Iff.rfl

/-- A glob that needs a character matches no path just when it matches `.`. -/
theorem watches_empty_iff_of_glob {r : Rule} {pattern : Regex} (hprocess : r.isProcess = true)
    (htarget : r.target ≠ "") (hpattern : Glob.compile r.target = .ok pattern)
    (hnil : pattern.isMatch [] = false) : r.Watches "" ↔ pattern.isMatch ['.'] = true := by
  rw [watches_empty_iff]
  simp [WatchesPathless, hprocess, htarget, hpattern, hnil]

end Rule

namespace Matcher

open Rule

/-- **An exec without a path** is matched by the first process rule that has no target or whose glob matches
the empty name or `.`. When there is none, its task name alone decides. Only stars match the empty name; any
other glob is matched just when it matches `.`. -/
theorem pathless_exec {rules : List Rule} {m : Matcher} (hm : ofRules rules = .ok m) {exec : ExecInfo}
    (hpath : exec.filename = "") :
    (∀ p, m.matchName exec.filename = some p ↔
      ∃ i r, IsFirst WatchesPathless rules i r ∧ ProcessRule.compile r = .ok p) ∧
    ((∃ r ∈ rules, r.WatchesPathless) →
      ∃ p, m.matchName exec.filename = some p ∧ m.matchExec exec = some p) ∧
    ((∀ r ∈ rules, ¬ r.WatchesPathless) → m.matchExec exec = m.matchName exec.comm) ∧
    ∀ (r : Rule) pattern, r.isProcess = true → r.target ≠ "" → Glob.compile r.target = .ok pattern →
      (pattern.isMatch [] = true ↔ ∀ c ∈ r.target.toList, c = '*') ∧
      (pattern.isMatch [] = false → (r.Watches exec.filename ↔ pattern.isMatch ['.'] = true)) := by
  rw [hpath]
  refine ⟨fun p => ?_, ?_, ?_, ?_⟩
  · simp only [matchName_eq_some_iff hm, watches_empty_iff]
  · rintro ⟨r, hr, hwatches⟩
    cases hfound : m.matchName "" with
    | none => exact absurd hwatches ((matchName_eq_none_iff hm "").1 hfound r hr)
    | some p => exact ⟨p, rfl, by rw [matchExec, hpath, hfound, Option.some_or]⟩
  · intro hnone
    rw [matchExec, hpath, (matchName_eq_none_iff hm "").2 hnone, Option.none_or]
  · intro r pattern hprocess htarget hpattern
    exact ⟨Glob.isMatch_nil_iff hpattern, watches_empty_iff_of_glob hprocess htarget hpattern⟩

/-- An exec whose path could not be read. -/
def pathlessExec : ExecInfo := ⟨7, 1, 0, 0, "bash", "", ""⟩

/-- Shells before everything of one character. -/
def briefRules : List Rule :=
  [⟨"passwd", "FILE", "*", "WARN"⟩, ⟨"shells", processType, "*sh", "INFO"⟩,
    ⟨"brief", processType, "?", "CRITICAL"⟩]

/-- The later rule is selected for the missing path, and only without it the task name finds the shell. -/
theorem pathless_exec_brief :
    pathlessExec.filename = "" ∧
      (∃ m p, ofRules briefRules = .ok m ∧ m.matchExec pathlessExec = some p ∧ p.name = "brief") ∧
      ∃ m p, ofRules (briefRules.take 2) = .ok m ∧ m.matchExec pathlessExec = m.matchName "bash" ∧
        m.matchName "bash" = some p ∧ p.name = "shells" := by
  have hpathless : pathlessExec.filename = "" := rfl
  refine ⟨hpathless, ?_, ?_⟩
  · obtain ⟨m, hm⟩ : ∃ m, ofRules briefRules = .ok m := by decide +kernel
    obtain ⟨hfirst, hsome, -, -⟩ := pathless_exec hm hpathless
    obtain ⟨p, hp, hname⟩ : ∃ p, ProcessRule.compile ⟨"brief", processType, "?", "CRITICAL"⟩ = .ok p ∧
        p.name = "brief" := by decide +kernel
    have hbrief : IsFirst WatchesPathless briefRules 2 ⟨"brief", processType, "?", "CRITICAL"⟩ := by
      refine isFirst_cons.2 (.inr ⟨by decide +kernel, 1, rfl, ?_⟩)
      refine isFirst_cons.2 (.inr ⟨by decide +kernel, 0, rfl, ?_⟩)
      exact isFirst_cons.2 (.inl ⟨rfl, rfl, by decide +kernel⟩)
    obtain ⟨p', hpath, hexec⟩ := hsome ⟨_, hbrief.mem, hbrief.holds⟩
    obtain rfl : p = p' := Option.some.inj (((hfirst p).2 ⟨2, _, hbrief, hp⟩).symm.trans hpath)
    exact ⟨m, p, hm, hexec, hname⟩
  · obtain ⟨m, hm, hshells⟩ : ∃ m, ofRules (briefRules.take 2) = .ok m ∧
        (m.matchName "bash").map (·.name) = some "shells" := by decide +kernel
    obtain ⟨p, hp, hname⟩ := Option.map_eq_some_iff.1 hshells
    obtain ⟨-, -, hnone, -⟩ := pathless_exec hm hpathless
    exact ⟨m, p, hm, hnone (by decide +kernel), hp, hname⟩

/-- The rule for hidden files. -/
def hiddenRules : List Rule := [⟨"hidden", processType, ".*", "WARN"⟩]

/-- Every hidden file has a name, and yet its rule is selected for an exec without a path, whose task name
matches nothing. -/
theorem hidden_rule_selected_without_path :
    pathlessExec.filename = "" ∧
      (∀ r ∈ hiddenRules, r.target ≠ "" ∧
        ∃ pattern, Glob.compile r.target = .ok pattern ∧ pattern.isMatch [] = false) ∧
      ∃ m, ofRules hiddenRules = .ok m ∧ m.matchName pathlessExec.comm = none ∧
        (m.matchExec pathlessExec).map (·.name) = some "hidden" := by
  decide +kernel

end Matcher

end ExecWatch
