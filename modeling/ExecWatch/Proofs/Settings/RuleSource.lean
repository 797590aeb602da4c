import ExecWatch.Proofs.Settings.Layers

/-!
# Where rules come from

Any variable may set something, and a path may lead to an item of a list. What the other variables do to
the rules is known from one of them (`lookup_rules_put`): it leaves them, or it puts something in their
place that is no list and cannot be read. `rules_from_file`: so the rules of settings that were loaded
are those of a file with plain keys that differ in more than case, unless a variable goes to an item of
the list. `severity_from_variable` shows one that does.
-/

namespace ExecWatch.Settings

open Members (named Distinct)

/-- The variable sets something in an item of the list of rules. -/
def reachesRules (name : String) : Bool :=
  match KeyPath.ofName (variableKey name) with
  | ⟨root, .item _ :: _⟩ => root = "rules"
  | _ => false

/-- The rules that a file gives by itself. -/
def fileRules (file : Members) : Except Mismatch (List Rule) :=
  readOr Value.toRules [] (named "rules" file)

/-- Something is there that is no list. -/
def IsNoList : Option Value → Prop
  | none | some (.list ..) => False
  | _ => True

theorem toRules_of_isNoList {value? : Option Value} {rules : List Rule} (h : IsNoList value?) :
    readOr Value.toRules [] value? ≠ .ok rules := by
  rcases value? with _ | v
  · cases h
  · cases v
    case list => cases h
    all_goals exact nofun

theorem isNoList_of_isScalar {value : Value} (h : IsScalar value) : IsNoList (some value) := by
  cases value
  case list => cases h
  all_goals trivial

theorem isNoList_onMembers (value : Value) (f : Members → Members) :
    IsNoList (some (value.onMembers f)) := by
  cases value <;> trivial

/-- A path that goes to a member next makes a table. -/
theorem isNoList_putBelow (new : Value) (key : String) (steps : List KeyStep) (value : Value) :
    IsNoList (some (KeyPath.putBelow new (.member key :: steps) value)) := by
  cases steps <;> exact isNoList_onMembers value _

/-- One variable that goes to no item leaves the rules, or takes their place. -/
theorem lookup_rules_put {name : String} {value : Value} {members : Members} (hvalue : IsScalar value)
    (hname : reachesRules name = false) :
    ((KeyPath.ofName (variableKey name)).put value members).lookup "rules" = members.lookup "rules" ∨
      IsNoList (((KeyPath.ofName (variableKey name)).put value members).lookup "rules") := by
  have hkey : "rules" ∈ topKeys := by decide
  by_cases hroot : (KeyPath.ofName (variableKey name)).root = "rules"
  · unfold reachesRules at hname
    generalize KeyPath.ofName (variableKey name) = path at hname hroot ⊢
    obtain ⟨root, steps⟩ := path
    obtain rfl : root = "rules" := hroot
    right
    rcases steps with _ | ⟨key | index, steps⟩
    · have hlower : "rules" = Text.lowerCase (KeyPath.mk "rules" []).root := by decide
      rw [lookup_put, if_pos rfl, if_pos hlower, laidOver_of_isScalar hvalue]
      exact isNoList_of_isScalar hvalue
    · rw [lookup_put, if_neg (List.cons_ne_nil _ _), if_pos rfl]
      exact isNoList_putBelow ..
    · simp at hname
  · exact .inl (lookup_put_of_ne hroot (lowerCase_root_ne hkey hroot))

/-- So do any number of them. -/
theorem lookup_rules_overlay {environment : Environment}
    (hnames : ∀ v ∈ environment, reachesRules v.1 = false) (members : Members) :
    (members.overlay (ofEnvironment environment)).lookup "rules" = members.lookup "rules" ∨
      IsNoList ((members.overlay (ofEnvironment environment)).lookup "rules") := by
  induction environment generalizing members with
  | nil => exact .inl rfl
  | cons v rest ih =>
    obtain ⟨name, text⟩ := v
    rw [ofEnvironment_cons, Members.overlay_cons]
    rcases ih (fun v hv => hnames v (List.mem_cons_of_mem _ hv)) _ with hsame | hlost
    · rw [hsame]
      exact lookup_rules_put (isScalar_variableValue text) (hnames (name, text) List.mem_cons_self)
    · exact .inr hlost

section
variable {directory : Directory} {path : Option String} {environment environment' : Environment}
  {file : Members} {s s' : Settings}

section
variable (hfile : fileMembers directory path = .ok file) (hplain : ∀ m ∈ file, IsPlain m.1)
  (hdistinct : Distinct file)
include hfile hplain hdistinct

theorem fileRules_of_load
    (hnames : ∀ v ∈ fullEnvironment directory environment, reachesRules v.1 = false)
    (hload : load directory path environment = .ok s) : fileRules file = .ok s.rules := by
  obtain ⟨hholds, -⟩ := (load_eq_ok_iff hfile s).1 hload
  have hrules := hholds.rules
  unfold gather at hrules
  rcases lookup_rules_overlay hnames (Members.overlay [] file) with hsame | hlost
  · rw [hsame] at hrules
    exact (readOr_rules_file hplain hdistinct).1 hrules
  · exact absurd hrules (toRules_of_isNoList hlost)

/-- **Rules come from the file**, whose keys are plain and differ in more than case: under any two
environments in which no variable goes to an item of the list of rules, settings that are loaded have
the same rules, the ones that the file gives, which are none if it has no key for them. -/
theorem rules_from_file
    (hnames : ∀ v ∈ fullEnvironment directory environment, reachesRules v.1 = false)
    (hnames' : ∀ v ∈ fullEnvironment directory environment', reachesRules v.1 = false)
    (hload : load directory path environment = .ok s)
    (hload' : load directory path environment' = .ok s') :
    s.rules = s'.rules ∧ fileRules file = .ok s.rules ∧
      ((∀ m ∈ file, Text.lowerCase m.1 ≠ "rules") → s.rules = []) := by
  have hrules := fileRules_of_load hfile hplain hdistinct hnames hload
  have hrules' := fileRules_of_load hfile hplain hdistinct hnames' hload'
  refine ⟨?_, hrules, fun hnone => ?_⟩
  · rw [hrules, Except.ok.injEq] at hrules'
    exact hrules'
  · have hempty : fileRules file = .ok [] := by
      rw [fileRules, Members.named_eq_none (by simpa using hnone)]
      rfl
    rw [hrules, Except.ok.injEq] at hempty
    exact hempty

end

end

/-! A file with one rule. -/

def ruleDirectory : Directory :=
  [("config.yaml", "rules:\n- name: shells\n  type: PROCESS\n  target: '*sh'\n  severity: CRITICAL\n")]

def ruleSettings (severity : String) : Settings :=
  { rules := [⟨"shells", "PROCESS", "*sh", severity⟩] }

theorem load_ruleDirectory :
    load ruleDirectory (some "config.yaml") [] = .ok (ruleSettings "CRITICAL") :=
  eq_ok_of_toOption (by decide +kernel)

/-- The path of the first variable begins with another key, and the second one is no path. -/
theorem rules_from_file_shells :
    ∃ s file, load ruleDirectory (some "config.yaml") [("RULESET[0]__SEVERITY", "INFO"), ("[0]", "INFO")] =
        .ok s ∧ s.rules = (ruleSettings "CRITICAL").rules ∧
      fileMembers ruleDirectory (some "config.yaml") = .ok file ∧ (∀ m ∈ file, IsPlain m.1) ∧
      Distinct file ∧ fileRules file = .ok s.rules := by
  have hload : load ruleDirectory (some "config.yaml") [("RULESET[0]__SEVERITY", "INFO"), ("[0]", "INFO")] =
      .ok (ruleSettings "CRITICAL") := eq_ok_of_toOption (by decide +kernel)
  obtain ⟨file, hfile, hplain, hdistinct⟩ : ∃ file,
      fileMembers ruleDirectory (some "config.yaml") = .ok file ∧ (∀ m ∈ file, IsPlain m.1) ∧
        Distinct file := exists_ok_of_all (by decide +kernel)
  obtain ⟨hsame, hrules, -⟩ := rules_from_file hfile hplain hdistinct (by decide +kernel)
    (by decide +kernel) hload load_ruleDirectory
  exact ⟨ruleSettings "CRITICAL", file, hload, hsame, hfile, hplain, hdistinct, hrules⟩

/-- The path of a variable can lead into the list that the file gives. -/
theorem severity_from_variable :
    load ruleDirectory (some "config.yaml") [] = .ok (ruleSettings "CRITICAL") ∧
      load ruleDirectory (some "config.yaml") [("RULES[0]__SEVERITY", "INFO")] =
        .ok (ruleSettings "INFO") ∧
      (ruleSettings "CRITICAL").rules ≠ (ruleSettings "INFO").rules :=
  ⟨load_ruleDirectory, eq_ok_of_toOption (by decide +kernel), by decide⟩

end ExecWatch.Settings
