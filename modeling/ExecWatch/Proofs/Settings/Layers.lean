import ExecWatch.Proofs.Settings.Compilation
import ExecWatch.Proofs.Settings.Variables

/-!
# Layers of settings

Each of the settings that are no rules is found at a path of one or two keys (`Setting.path`). An entry
for one of them disturbs no other (`Setting.held_put`), so what is held after the environment was put over
a file is the value of the setting's variable, or else what the file says (`overlay_environment`,
`held_file`). `sources_layered`: settings are loaded exactly when for each of them the first source that
sets it can be read, and they hold the results.
-/

namespace ExecWatch.Settings

open Members (named named_cons named_eq_none laidOver Distinct)

/-! ## The settings and their places -/

/-- A setting that variables may set. -/
inductive Setting where
  | logLevel
  | execve
  | execveat
  | channelCapacity
  | endpoint
deriving DecidableEq, Repr

namespace Setting

/-- The name of the setting's variable, in lower case. -/
def variableName : Setting → String
  | logLevel => "log_level"
  | execve => "probes__execve"
  | execveat => "probes__execveat"
  | channelCapacity => "alert_channel_capacity"
  | endpoint => "otel_exporter_otlp_endpoint"

def path : Setting → KeyPath
  | logLevel => ⟨"log_level", []⟩
  | execve => ⟨"probes", [.member "execve"]⟩
  | execveat => ⟨"probes", [.member "execveat"]⟩
  | channelCapacity => ⟨"alert_channel_capacity", []⟩
  | endpoint => ⟨"otel_exporter_otlp_endpoint", []⟩

def all : List Setting := [logLevel, execve, execveat, channelCapacity, endpoint]

theorem mem_all (t : Setting) : t ∈ all := by
  cases t <;> decide

instance {p : Setting → Prop} [DecidablePred p] : Decidable (∀ t, p t) :=
  decidable_of_iff (∀ t ∈ all, p t) ⟨fun h t => h t t.mem_all, fun h t _ => h t⟩

instance {p : Setting → Prop} [DecidablePred p] : Decidable (∃ t, p t) :=
  decidable_of_iff (∃ t ∈ all, p t) ⟨fun ⟨t, _, h⟩ => ⟨t, h⟩, fun ⟨t, h⟩ => ⟨t, t.mem_all, h⟩⟩

/-- The value that variables have for the setting, whatever the case of its name. -/
def inVariables (t : Setting) (environment : Environment) : Option Value :=
  (named t.variableName environment).map variableValue

end Setting

/-- The members of a table, and none of anything else. -/
def tableMembers : Option Value → Members
  | some (.table _ members) => members
  | _ => []

/-- What is found at a path of one or two keys by a function that finds members. -/
def foundAt (find : String → Members → Option Value) : KeyPath → Members → Option Value
  | ⟨root, [.member key]⟩, members => find key (tableMembers (find root members))
  | ⟨root, _⟩, members => find root members

theorem foundAt_congr {find : String → Members → Option Value} {path : KeyPath} {members others : Members}
    (h : find path.root members = find path.root others) :
    foundAt find path members = foundAt find path others := by
  unfold foundAt
  split
  · rw [show find _ members = find _ others from h]
  · exact h

/-- What a file says of the setting, whatever the case of its keys. -/
def Setting.inFile (t : Setting) (file : Members) : Option Value := foundAt named t.path file

/-- What gathered members hold of the setting. -/
def Setting.held (t : Setting) (members : Members) : Option Value :=
  foundAt (fun key members => members.lookup key) t.path members

/-- The setting is what `convert` makes of the value, or the default. -/
def Setting.IsReadFrom (value? : Option Value) (s : Settings) : Setting → Prop
  | .logLevel => readOr Value.toOptionalStr none value? = .ok s.logLevel
  | .execve => readOr Value.toBool true value? = .ok s.probes.execve
  | .execveat => readOr Value.toBool true value? = .ok s.probes.execveat
  | .channelCapacity => readOr Value.toSize 64 value? = .ok s.channelCapacity
  | .endpoint => readOr Value.toOptionalStr none value? = .ok s.endpoint

theorem Setting.ofName_variableName (t : Setting) :
    KeyPath.ofName (String.ofList (pointSeparators t.variableName.toList)) = t.path := by
  cases t <;> decide +kernel

theorem Setting.variableName_inj {t u : Setting} : t.variableName = u.variableName ↔ t = u := by
  cases t <;> cases u <;> decide

/-! ## One entry -/

section
variable {members : Members} {value : Value} {path : KeyPath}

theorem tableMembers_onMembers (old : Option Value) (f : Members → Members) :
    tableMembers (some ((old.getD (.null none)).onMembers f)) = f (tableMembers old) := by
  cases old with
  | none => rfl
  | some v => cases v <;> rfl

/-- A path of one or two keys in lower case. -/
inductive IsShort : KeyPath → Prop
  | key {root : String} (h : Text.lowerCase root = root) : IsShort ⟨root, []⟩
  | member {root key : String} (h : Text.lowerCase root = root) (hkey : Text.lowerCase key = key) :
      IsShort ⟨root, [.member key]⟩

theorem IsShort.lowerCase_root (h : IsShort path) : Text.lowerCase path.root = path.root := by
  cases h <;> assumption

/-- A scalar that is put at a path is found there, and nothing changes at another. A key does not stand
for a scalar here and for a table there. -/
theorem foundAt_put {other : KeyPath} (hvalue : IsScalar value) (h : IsShort path) (hother : IsShort other)
    (hsame : path.root = other.root → path.steps.length = other.steps.length) :
    foundAt (fun key members => members.lookup key) path (other.put value members) =
      if path = other then some value
      else foundAt (fun key members => members.lookup key) path members := by
  by_cases hroot : other.root = path.root
  · cases h with
    | key hlower =>
      cases hother with
      | key =>
        cases hroot
        show (KeyPath.put _ value members).lookup _ = _
        rw [lookup_put, if_pos rfl, if_pos hlower.symm, laidOver_of_isScalar hvalue, if_pos rfl]
      | member => cases hsame hroot.symm
    | member =>
      cases hother with
      | key => cases hsame hroot.symm
      | member hlower hkey =>
        cases hroot
        show (tableMembers ((KeyPath.put _ value members).lookup _)).lookup _ = _
        rw [lookup_put, if_neg (List.cons_ne_nil _ _), if_pos rfl]
        show (tableMembers (some (Value.onMembers _ _))).lookup _ = _
        rw [tableMembers_onMembers, Members.lookup_merge, hkey, laidOver_of_isScalar hvalue]
        simp only [KeyPath.mk.injEq, List.cons.injEq, KeyStep.member.injEq, true_and, and_true]
        rfl
  · have hlookup : (other.put value members).lookup path.root = members.lookup path.root :=
      lookup_put_of_ne hroot (by rw [hother.lowerCase_root]; exact hroot)
    rw [if_neg fun heq : path = other => hroot (heq ▸ rfl)]
    exact foundAt_congr hlookup

end

theorem Setting.isShort_path (t : Setting) : IsShort t.path := by
  cases t
  case execve | execveat => exact .member (by decide) (by decide)
  all_goals exact .key (by decide)

/-- An entry for one setting is held there, and leaves the others. -/
theorem Setting.held_put {value : Value} (h : IsScalar value) (t u : Setting) (members : Members) :
    t.held (u.path.put value members) = if t = u then some value else t.held members := by
  have hsame : t.path.root = u.path.root → t.path.steps.length = u.path.steps.length := by
    cases t <;> cases u <;> decide
  have hpath : t.path = u.path ↔ t = u := by
    cases t <;> cases u <;> decide
  simp only [held, foundAt_put h t.isShort_path u.isShort_path hsame, hpath]

/-! ## The environment -/

/-- No two variables are alike in lower case, and each either sets one of the settings or something that
is none. -/
structure IsTidy (environment : Environment) : Prop where
  distinct : Distinct environment
  known : ∀ v ∈ environment, (∃ t : Setting, Text.lowerCase v.1 = t.variableName) ∨
    (KeyPath.ofName (variableKey v.1)).root ∉ topKeys

/-- The toggles stand in a table, if any are set, and none of them twice. -/
def ProbesTable (members : Members) : Prop :=
  ∀ v, members.lookup "probes" = some v → ∃ source inner, v = .table source inner ∧ (Members.keys inner).Nodup

instance (environment : Environment) : Decidable (IsTidy environment) :=
  decidable_of_iff (Distinct environment ∧ ∀ v ∈ environment,
      (∃ t : Setting, Text.lowerCase v.1 = t.variableName) ∨
        (KeyPath.ofName (variableKey v.1)).root ∉ topKeys)
    ⟨fun h => ⟨h.1, h.2⟩, fun h => ⟨h.distinct, h.known⟩⟩

theorem path_of_variableName {name : String} {t : Setting} (h : Text.lowerCase name = t.variableName) :
    KeyPath.ofName (variableKey name) = t.path := by
  rw [variableKey, h, t.ofName_variableName]

theorem Setting.root_mem_topKeys (t : Setting) : t.path.root ∈ topKeys := by
  cases t <;> decide

section
variable {members : Members} {name k : String} {value : Value}

/-- What a variable sets that sets no setting is found under no key of the settings. -/
theorem lookup_put_foreign (hk : k ∈ topKeys) (h : (KeyPath.ofName (variableKey name)).root ∉ topKeys) :
    ((KeyPath.ofName (variableKey name)).put value members).lookup k = members.lookup k := by
  have hne : (KeyPath.ofName (variableKey name)).root ≠ k := fun heq => h (heq ▸ hk)
  exact lookup_put_of_ne hne (lowerCase_root_ne hk hne)

variable (hknown : (∃ t : Setting, Text.lowerCase name = t.variableName) ∨
  (KeyPath.ofName (variableKey name)).root ∉ topKeys)
include hknown

theorem held_put_variable (t : Setting) (h : IsScalar value) :
    t.held ((KeyPath.ofName (variableKey name)).put value members) =
      if Text.lowerCase name = t.variableName then some value else t.held members := by
  rcases hknown with ⟨u, hu⟩ | hforeign
  · rw [path_of_variableName hu, t.held_put h, hu]
    simp only [Setting.variableName_inj, eq_comm]
  · have hname : Text.lowerCase name ≠ t.variableName := by
      intro hname
      rw [path_of_variableName hname] at hforeign
      exact hforeign t.root_mem_topKeys
    rw [if_neg hname]
    exact foundAt_congr (lookup_put_foreign t.root_mem_topKeys hforeign)

/-- No variable for a setting sets rules. -/
theorem lookup_rules_put_variable :
    ((KeyPath.ofName (variableKey name)).put value members).lookup "rules" = members.lookup "rules" := by
  rcases hknown with ⟨u, hu⟩ | hforeign
  · rw [path_of_variableName hu]
    exact lookup_put_of_ne (by cases u <;> decide) (by cases u <;> decide)
  · exact lookup_put_foreign (by decide) hforeign

/-- What stands for the toggles stays a table. -/
theorem probesTable_put_variable (h : ProbesTable members) :
    ProbesTable ((KeyPath.ofName (variableKey name)).put value members) := by
  intro v hv
  rcases hknown with ⟨u, hu⟩ | hforeign
  · rw [path_of_variableName hu] at hv
    by_cases hroot : u.path.root = "probes"
    · obtain ⟨key, hkey⟩ : ∃ key, u.path = ⟨"probes", [.member key]⟩ := by
        cases u
        case execve | execveat => exact ⟨_, rfl⟩
        all_goals exact absurd hroot (by decide)
      rw [hkey, lookup_put, if_neg (List.cons_ne_nil _ _), if_pos rfl] at hv
      cases hv
      cases hold : members.lookup "probes" with
      | none => exact ⟨none, _, rfl, Members.nodup_merge List.nodup_nil⟩
      | some old =>
        obtain ⟨source, inner, rfl, hinner⟩ := h old hold
        exact ⟨source, _, rfl, Members.nodup_merge hinner⟩
    · rw [lookup_put_of_ne hroot (by rw [u.isShort_path.lowerCase_root]; exact hroot)] at hv
      exact h v hv
  · rw [lookup_put_foreign (by decide) hforeign] at hv
    exact h v hv

end

/-- **What the environment puts over members**: the values of the settings' variables, and nothing else
that counts. -/
theorem overlay_environment {environment : Environment} (h : IsTidy environment) {members : Members}
    (hprobes : ProbesTable members) :
    (∀ t : Setting, t.held (members.overlay (ofEnvironment environment)) =
        (t.inVariables environment).or (t.held members)) ∧
      (members.overlay (ofEnvironment environment)).lookup "rules" = members.lookup "rules" ∧
      ProbesTable (members.overlay (ofEnvironment environment)) := by
  -- on the variables; the members change with each, and the variables left have other names
  induction environment generalizing members with
  | nil =>
    have hnone : ∀ t : Setting, t.inVariables [] = none := fun t => rfl
    refine ⟨fun t => ?_, rfl, hprobes⟩
    rw [hnone, Option.none_or]
    rfl
  | cons v rest ih =>
    obtain ⟨name, text⟩ := v
    obtain ⟨hnot, hdistinct⟩ := List.nodup_cons.1 h.distinct
    have hknown := h.known (name, text) List.mem_cons_self
    obtain ⟨hheld, hrules, htable⟩ :=
      ih ⟨hdistinct, fun v hv => h.known v (List.mem_cons_of_mem _ hv)⟩
        (probesTable_put_variable hknown hprobes)
    rw [ofEnvironment_cons, Members.overlay_cons]
    refine ⟨fun t => ?_, ?_, htable⟩
    · rw [hheld, held_put_variable hknown t (isScalar_variableValue text)]
      unfold Setting.inVariables
      rw [named_cons]
      by_cases hname : Text.lowerCase name = t.variableName
      · have hnone : named t.variableName rest = none := by
          rw [← hname]
          exact named_eq_none hnot
        rw [if_pos hname, if_pos hname, hnone, Option.map_none, Option.none_or, Option.map_some,
          Option.some_or]
      · rw [if_neg hname, if_neg hname]
    · rw [hrules, lookup_rules_put_variable hknown]

/-! ## The file -/

/-- The keys of the file are plain, no two of them are alike in lower case, and what stands for the
toggles, if anything does, is a table of which the same holds. -/
structure IsPlainFile (file : Members) : Prop where
  plain : ∀ m ∈ file, IsPlain m.1
  distinct : Distinct file
  probes : ∀ v, named "probes" file = some v → ∃ source inner, v = .table source inner ∧ Distinct inner

/-- The value is a table of members with different names. -/
def isDistinctTable : Value → Bool
  | .table _ inner => decide (Distinct inner)
  | _ => false

theorem isDistinctTable_iff {v : Value} :
    isDistinctTable v = true ↔ ∃ source inner, v = .table source inner ∧ Distinct inner := by
  cases v <;> simp [isDistinctTable]

instance (file : Members) : Decidable (IsPlainFile file) :=
  decidable_of_iff ((∀ m ∈ file, IsPlain m.1) ∧ Distinct file ∧
      ∀ v ∈ named "probes" file, isDistinctTable v = true)
    ⟨fun h => ⟨h.1, h.2.1, fun v hv => isDistinctTable_iff.1 (h.2.2 v hv)⟩,
      fun h => ⟨h.plain, h.distinct, fun v hv => isDistinctTable_iff.2 (h.probes v hv)⟩⟩

theorem overlay_of_plain {file : Members} (h : ∀ m ∈ file, IsPlain m.1) (members : Members) :
    members.overlay file = members.mergeEntries file := by
  induction file generalizing members with
  | nil => rfl
  | cons m rest ih =>
    show Members.overlay ((KeyPath.ofName m.1).put m.2 members) rest = _
    rw [KeyPath.ofName_of_plain (h m List.mem_cons_self),
      ih fun m hm => h m (List.mem_cons_of_mem _ hm)]
    rfl

theorem lookup_overlay_file {file : Members} (hplain : ∀ m ∈ file, IsPlain m.1)
    (hdistinct : Distinct file) (k : String) :
    (Members.overlay [] file).lookup k = (named k file).map (laidOver · none) := by
  rw [overlay_of_plain hplain, Members.lookup_mergeEntries hdistinct]
  cases named k file <;> rfl

/-- What is gathered of a file is what it says, tables put together. -/
theorem held_file {file : Members} (h : IsPlainFile file) (t : Setting) :
    t.held (Members.overlay [] file) = (t.inFile file).map (laidOver · none) := by
  have htoggle : ∀ key, (tableMembers ((Members.overlay [] file).lookup "probes")).lookup key =
      (named key (tableMembers (named "probes" file))).map (laidOver · none) := by
    intro key
    rw [lookup_overlay_file h.plain h.distinct]
    cases hprobes : named "probes" file with
    | none => rfl
    | some v =>
      obtain ⟨source, inner, rfl, hinner⟩ := h.probes v hprobes
      show (tableMembers (some (Value.mergeAll (.table none []) inner))).lookup key = _
      rw [Members.mergeAll_table]
      show (Members.mergeEntries [] inner).lookup key = _
      rw [Members.lookup_mergeEntries hinner]
      show _ = (named key inner).map _
      cases named key inner <;> rfl
  cases t
  case execve | execveat => exact htoggle _
  all_goals exact lookup_overlay_file h.plain h.distinct _

theorem probesTable_file {file : Members} (h : IsPlainFile file) :
    ProbesTable (Members.overlay [] file) := by
  intro v hv
  rw [lookup_overlay_file h.plain h.distinct] at hv
  obtain ⟨w, hw, rfl⟩ := Option.map_eq_some_iff.1 hv
  obtain ⟨source, inner, rfl, -⟩ := h.probes w hw
  exact ⟨none, _, Members.mergeAll_table none inner, Members.nodup_mergeEntries List.nodup_nil⟩

/-! ## What is read -/

/-- The conversion takes no table. -/
def RefusesTables {α : Type} (convert : Value → Except Mismatch α) : Prop :=
  ∀ source members a, convert (.table source members) ≠ .ok a

section
variable {α : Type} {convert : Value → Except Mismatch α} {dflt a : α}

/-- For what takes no table it does not matter that tables are put together. -/
theorem readOr_laidOver (h : RefusesTables convert) (first file : Option Value) :
    readOr convert dflt (first.or (file.map (laidOver · none))) = .ok a ↔
      readOr convert dflt (first.or file) = .ok a := by
  rcases first with _ | v
  · rcases file with _ | w
    · rfl
    · cases w
      case table source members =>
        have hlaid : laidOver (.table source members) none = .table none (Members.mergeEntries [] members) :=
          Members.mergeAll_table none members
        show convert (laidOver _ none) = .ok a ↔ convert _ = .ok a
        rw [hlaid]
        exact ⟨fun hok => absurd hok (h _ _ _), fun hok => absurd hok (h _ _ _)⟩
      all_goals rfl
  · rfl

end

/-- The rules of a file are read off the value of its key. -/
theorem readOr_rules_file {file : Members} (hplain : ∀ m ∈ file, IsPlain m.1)
    (hdistinct : Distinct file) {rules : List Rule} :
    readOr Value.toRules [] ((Members.overlay [] file).lookup "rules") = .ok rules ↔
      readOr Value.toRules [] (named "rules" file) = .ok rules := by
  have hrefuses : RefusesTables Value.toRules := by
    rintro _ _ _ ⟨⟩
  rw [lookup_overlay_file hplain hdistinct]
  exact readOr_laidOver hrefuses none (named "rules" file)

theorem Setting.isReadFrom_laidOver (t : Setting) (first file : Option Value) (s : Settings) :
    t.IsReadFrom (first.or (file.map (laidOver · none))) s ↔ t.IsReadFrom (first.or file) s := by
  have hstring : RefusesTables Value.toOptionalStr := by
    rintro _ _ _ ⟨⟩
  have hbool : RefusesTables Value.toBool := by
    rintro _ _ _ ⟨⟩
  have hsize : RefusesTables Value.toSize := by
    rintro _ _ _ ⟨⟩
  cases t
  case logLevel | endpoint => exact readOr_laidOver hstring first file
  case execve | execveat => exact readOr_laidOver hbool first file
  case channelCapacity => exact readOr_laidOver hsize first file

/-- Members whose toggles stand in a table are read setting by setting. -/
theorem holds_iff_isReadFrom {members : Members} (hprobes : ProbesTable members) (s : Settings) :
    Holds members s ↔
      (∀ t : Setting, t.IsReadFrom (t.held members) s) ∧
        readOr Value.toRules [] (members.lookup "rules") = .ok s.rules := by
  have htoggles : readOr Value.toToggles {} (members.lookup "probes") = .ok s.probes ↔
      readOr Value.toBool true ((tableMembers (members.lookup "probes")).lookup "execve") =
          .ok s.probes.execve ∧
        readOr Value.toBool true ((tableMembers (members.lookup "probes")).lookup "execveat") =
          .ok s.probes.execveat := by
    cases hfound : members.lookup "probes" with
    | none =>
      show (Value.table none []).toToggles = .ok s.probes ↔ _
      exact Value.toToggles_table_iff List.nodup_nil
    | some v =>
      obtain ⟨source, inner, rfl, hinner⟩ := hprobes v hfound
      exact Value.toToggles_table_iff hinner
  constructor
  · intro h
    refine ⟨fun t => ?_, h.rules⟩
    cases t
    case logLevel => exact h.logLevel
    case execve => exact (htoggles.1 h.probes).1
    case execveat => exact (htoggles.1 h.probes).2
    case channelCapacity => exact h.channelCapacity
    case endpoint => exact h.endpoint
  · rintro ⟨h, hrules⟩
    exact ⟨h .logLevel, htoggles.2 ⟨h .execve, h .execveat⟩, h .channelCapacity, h .endpoint, hrules⟩

/-! ## Loading -/

theorem load_eq_ok_iff {directory : Directory} {path : Option String} {environment : Environment}
    {file : Members} (hfile : fileMembers directory path = .ok file) (s : Settings) :
    load directory path environment = .ok s ↔
      Holds (gather file (fullEnvironment directory environment)) s ∧ s.problems = [] := by
  have hnodup : (gather file (fullEnvironment directory environment)).keys.Nodup :=
    Members.nodup_overlay (Members.nodup_overlay List.nodup_nil)
  rw [← ofMembers_eq_ok_iff hnodup]
  unfold load
  rw [hfile]
  show ((ofMembers _).mapError LoadError.mismatch >>= validate) = .ok s ↔ _
  cases ofMembers (gather file (fullEnvironment directory environment)) with
  | error e => exact ⟨nofun, fun h => nomatch h.1⟩
  | ok t =>
    show t.validate = .ok s ↔ _
    rw [validate_eq_ok_iff, Except.ok.injEq]
    constructor
    · rintro ⟨h, rfl⟩
      exact ⟨rfl, h⟩
    · rintro ⟨rfl, h⟩
      exact ⟨h, rfl⟩

/-- **Settings come in layers**: from a plain file, whatever the environment and the file of variables,
settings are loaded exactly when each of the five can be read from the first source that sets it (the
environment, the file of variables, the file) or has its default, the rules can be read from the file,
and nothing is wrong with the whole. What a later source sets is not looked at. -/
theorem sources_layered {directory : Directory} {path : Option String} {environment : Environment}
    {file : Members} (hfile : fileMembers directory path = .ok file) (hplain : IsPlainFile file)
    (htidy : IsTidy (fullEnvironment directory environment)) (s : Settings) :
    load directory path environment = .ok s ↔
      (∀ t : Setting, t.IsReadFrom
        ((t.inVariables environment).or
          ((t.inVariables (envFileAssignments directory environment)).or (t.inFile file))) s) ∧
      readOr Value.toRules [] (named "rules" file) = .ok s.rules ∧
      s.problems = [] := by
  obtain ⟨hheld, hrules, htable⟩ := overlay_environment htidy (probesTable_file hplain)
  have hvariables : ∀ t : Setting, t.inVariables (fullEnvironment directory environment) =
      (t.inVariables environment).or (t.inVariables (envFileAssignments directory environment)) := by
    intro t
    unfold Setting.inVariables
    rw [named_fullEnvironment, Option.map_or]
  have hread : ∀ t : Setting, t.IsReadFrom (t.held (gather file (fullEnvironment directory environment))) s ↔
      t.IsReadFrom ((t.inVariables environment).or
        ((t.inVariables (envFileAssignments directory environment)).or (t.inFile file))) s := by
    intro t
    rw [gather, hheld, hvariables, held_file hplain, t.isReadFrom_laidOver, Option.or_assoc]
  have hlist : readOr Value.toRules [] ((gather file (fullEnvironment directory environment)).lookup "rules") =
      .ok s.rules ↔ readOr Value.toRules [] (named "rules" file) = .ok s.rules := by
    rw [gather, hrules, readOr_rules_file hplain.plain hplain.distinct]
  rw [load_eq_ok_iff hfile, gather, holds_iff_isReadFrom htable, and_assoc]
  exact and_congr (forall_congr' hread) (and_congr hlist Iff.rfl)

/-! One of each layer: the file has a toggle and a level that variables override. -/

def layeredDirectory : Directory :=
  [("config.yaml", "Log_Level: info\nprobes:\n  execve: false\n  EXECVEAT: false\n"),
    (".env", "LOG_LEVEL=debug\nPROBES__EXECVEAT=true\nALERT_CHANNEL_CAPACITY=8\n")]

def layeredEnvironment : Environment :=
  [("ALERT_CHANNEL_CAPACITY", "128"), ("HOME", "/root")]

def layeredSettings : Settings :=
  { logLevel := some "debug", probes := { execve := false, execveat := true }, channelCapacity := 128 }

instance {ε α : Type} [DecidableEq α] (x : Except ε α) (a : α) : Decidable (x = .ok a) :=
  match x with
  | .ok b => decidable_of_iff (b = a) ⟨congrArg _, Except.ok.inj⟩
  | .error _ => .isFalse nofun

instance (t : Setting) (value? : Option Value) (s : Settings) : Decidable (t.IsReadFrom value? s) :=
  match t with
  | .logLevel => inferInstanceAs (Decidable (_ = _))
  | .execve => inferInstanceAs (Decidable (_ = _))
  | .execveat => inferInstanceAs (Decidable (_ = _))
  | .channelCapacity => inferInstanceAs (Decidable (_ = _))
  | .endpoint => inferInstanceAs (Decidable (_ = _))

theorem exists_ok_of_all {ε α : Type} {p : α → Prop} [DecidablePred p] {x : Except ε α}
    (h : x.toOption.any (fun a => decide (p a)) = true) : ∃ a, x = .ok a ∧ p a := by
  cases x with
  | error e => cases h
  | ok a => exact ⟨a, rfl, of_decide_eq_true h⟩

theorem sources_layered_mixed :
    ∃ file, fileMembers layeredDirectory (some "config.yaml") = .ok file ∧ IsPlainFile file ∧
      IsTidy (fullEnvironment layeredDirectory layeredEnvironment) ∧
      load layeredDirectory (some "config.yaml") layeredEnvironment = .ok layeredSettings := by
  have htidy : IsTidy (fullEnvironment layeredDirectory layeredEnvironment) := by decide +kernel
  obtain ⟨file, hfile, hplain, hread, hrules⟩ : ∃ file,
      fileMembers layeredDirectory (some "config.yaml") = .ok file ∧ IsPlainFile file ∧
        (∀ t : Setting, t.IsReadFrom ((t.inVariables layeredEnvironment).or
          ((t.inVariables (envFileAssignments layeredDirectory layeredEnvironment)).or (t.inFile file)))
          layeredSettings) ∧
        readOr Value.toRules [] (named "rules" file) = .ok layeredSettings.rules :=
    exists_ok_of_all (by decide +kernel)
  exact ⟨file, hfile, hplain, htidy,
    (sources_layered hfile hplain htidy layeredSettings).2 ⟨hread, hrules, by decide +kernel⟩⟩

end ExecWatch.Settings
