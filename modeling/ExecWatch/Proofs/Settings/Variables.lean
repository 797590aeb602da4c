import ExecWatch.Proofs.Settings.Members
import ExecWatch.Proofs.Text.LowerCase
import ExecWatch.Settings.Load

/-!
# Variables and the paths they stand for

* `named_fullEnvironment`: a variable of the environment counts before what the file of variables
  assigns to it (`EnvFile.assignments`), and of several assignments the first counts;
* `KeyPath.ofName_of_plain`: a name without points and brackets is a key;
* `lowerCase_root_ne`: the first key of a variable's path is a key of the settings in lower case only if
  it is one as it stands;
* `lookup_put`: what stands at a key after a value was put at a path.
-/

namespace ExecWatch

/-! ## Files of variables -/

namespace EnvFile

open Settings.Members (named named_cons)

/-- The value that a line assigns, of which `text` is what stands behind `=`. -/
def assignedValue? (look : String → String) (text : List Char) : Option String :=
  if text.isEmpty || text.head? = some '#' then some "" else readValue look text

/-- Sets a variable, unless it is set. -/
def define (environment : Environment) (a : String × String) : Environment :=
  if (environment.lookup a.1).isSome then environment else environment ++ [a]

/-- What lines assign to which name, in their order, up to the first malformed one. A variable that a
value refers to has the value that it is found with at that line. -/
def assignmentsFrom : (set environment : Environment) → List (Option (List Char)) → Environment
  | _, _, [] => []
  | _, _, none :: _ => []
  | set, environment, some line :: rest =>
    match readLine line with
    | none => []
    | some none => assignmentsFrom set environment rest
    | some (some (name, text)) =>
      match assignedValue? (lookUp environment set) text with
      | none => []
      | some value =>
        (name, value) ::
          assignmentsFrom ((name, value) :: set) (define environment (name, value)) rest

/-- What a file of variables assigns, whether or not it is set already. -/
def assignments (environment : Environment) (file : String) : Environment :=
  assignmentsFrom [] environment (joinLines .plain [] (splitLines []
    (if file.toList.head? = some '\uFEFF' then file.toList.tail else file.toList)))

theorem addLines_eq (set environment : Environment) (lines : List (Option (List Char))) :
    addLines set environment lines = (assignmentsFrom set environment lines).foldl define environment := by
  induction lines generalizing set environment with
  | nil => rfl
  | cons line rest ih =>
    cases line with
    | none => rfl
    | some line =>
      unfold addLines assignmentsFrom
      rcases readLine line with _ | _ | ⟨name, text⟩
      · rfl
      · exact ih set environment
      · show (match assignedValue? (lookUp environment set) text with
          | none => environment
          | some value => addLines ((name, value) :: set) (define environment (name, value)) rest) = _
        cases hvalue : assignedValue? (lookUp environment set) text with
        | none => simp only [hvalue, List.foldl_nil]
        | some value => simp only [hvalue, List.foldl_cons, ih]

theorem addTo_eq (environment : Environment) (file : String) :
    addTo environment file = (assignments environment file).foldl define environment :=
  addLines_eq [] environment _

theorem named_append {key : String} (l l' : Environment) :
    named key (l ++ l') = (named key l).or (named key l') := by
  induction l with
  | nil => rfl
  | cons a l ih =>
    rw [List.cons_append, named_cons, named_cons, ih]
    split <;> rfl

theorem named_isSome {key name : String} {l : Environment} (h : (l.lookup name).isSome)
    (hname : Text.lowerCase name = key) : (named key l).isSome := by
  induction l with
  | nil => cases h
  | cons a l ih =>
    rw [Settings.Members.lookup_cons_eq] at h
    rw [named_cons]
    by_cases ha : name = a.1
    · rw [if_pos (ha ▸ hname)]
      rfl
    · rw [if_neg ha] at h
      split
      · rfl
      · exact ih h

theorem named_define {key : String} (environment : Environment) (a : String × String) :
    named key (define environment a) = (named key environment).or (named key [a]) := by
  unfold define
  split
  · rename_i hset
    rw [named_cons]
    by_cases ha : Text.lowerCase a.1 = key
    · obtain ⟨v, hv⟩ := Option.isSome_iff_exists.1 (named_isSome hset ha)
      rw [hv, Option.some_or]
    · rw [if_neg ha]
      exact (Option.or_none).symm
  · exact named_append environment [a]

/-- What is set stays, and of several assignments to a variable the first counts. -/
theorem named_foldl_define {key : String} (environment : Environment) (as : Environment) :
    named key (as.foldl define environment) = (named key environment).or (named key as) := by
  induction as generalizing environment with
  | nil => exact (Option.or_none).symm
  | cons a as ih => rw [List.foldl_cons, ih, named_define, Option.or_assoc, ← named_append]; rfl

end EnvFile

namespace Settings

/-- What the file of variables assigns, if there is one. -/
def envFileAssignments (directory : Directory) (environment : Environment) : Environment :=
  match directory.lookup envFileName with
  | some file => EnvFile.assignments environment file
  | none => []

theorem named_fullEnvironment (key : String) (directory : Directory) (environment : Environment) :
    Members.named key (fullEnvironment directory environment) =
      (Members.named key environment).or
        (Members.named key (envFileAssignments directory environment)) := by
  unfold fullEnvironment envFileAssignments
  cases directory.lookup envFileName with
  | none => exact (Option.or_none).symm
  | some file =>
    show Members.named key (EnvFile.addTo environment file) = _
    rw [EnvFile.addTo_eq, EnvFile.named_foldl_define]

/-! ## Paths -/

/-- The key has no point and no bracket in it. -/
def IsPlain (key : String) : Prop := '.' ∉ key.toList ∧ '[' ∉ key.toList

instance (key : String) : Decidable (IsPlain key) :=
  inferInstanceAs (Decidable ('.' ∉ key.toList ∧ '[' ∉ key.toList))

theorem KeyPath.ofName_of_plain {key : String} (h : IsPlain key) : ofName key = ⟨key, []⟩ := by
  have hparts := List.takeWhile_append_dropWhile (p := isKeyChar) (l := key.toList)
  unfold ofName parse?
  cases hrest : key.toList.dropWhile isKeyChar with
  | nil =>
    rw [hrest, List.append_nil] at hparts
    rw [hparts]
    by_cases hempty : key.toList.isEmpty
    · simp [hempty]
    · cases hn : key.length <;> simp_all [readSteps]
  | cons c rest =>
    have hc : c ∈ key.toList := by
      rw [← hparts, hrest]
      exact List.mem_append_right _ List.mem_cons_self
    have hpoint : c ≠ '.' := fun heq => h.1 (heq ▸ hc)
    have hbracket : c ≠ '[' := fun heq => h.2 (heq ▸ hc)
    have hsteps : ∀ fuel, readSteps fuel (c :: rest) = none := by
      intro fuel
      cases fuel <;> simp_all [readSteps]
    simp only [hsteps]
    split <;> rfl

theorem KeyPath.mem_of_mem_root {name : String} {c : Char} (h : c ∈ (ofName name).root.toList) :
    c ∈ name.toList := by
  unfold ofName at h
  cases hparse : parse? name.toList with
  | none => rwa [hparse] at h
  | some path =>
    rw [hparse, Option.getD_some] at h
    unfold parse? at hparse
    dsimp only at hparse
    split at hparse
    · cases hparse
    · obtain ⟨steps, -, hpath⟩ := Option.bind_eq_some_iff.1 hparse
      cases hpath
      rw [String.toList_ofList] at h
      exact (List.takeWhile_prefix isKeyChar).subset h

theorem mem_pointSeparators {c : Char} {cs : List Char} (h : c ∈ pointSeparators cs) :
    c = '.' ∨ c ∈ cs := by
  fun_induction pointSeparators cs with
  | case1 rest ih =>
    rcases List.mem_cons.1 h with rfl | h
    · exact .inl rfl
    · exact (ih h).imp_right fun h => List.mem_cons_of_mem _ (List.mem_cons_of_mem _ h)
  | case2 b rest hne ih =>
    rcases List.mem_cons.1 h with rfl | h
    · exact .inr List.mem_cons_self
    · exact (ih h).imp_right (List.mem_cons_of_mem _)
  | case3 => cases h

/-- The first key of a variable's path has no capitals. -/
theorem not_isCapital_root {name : String} {c : Char}
    (h : c ∈ (KeyPath.ofName (variableKey name)).root.toList) : ¬ Text.IsCapital c := by
  have hmem := KeyPath.mem_of_mem_root h
  rw [variableKey, String.toList_ofList] at hmem
  rcases mem_pointSeparators hmem with rfl | hlower
  · decide
  · exact Text.not_isCapital_lowerCase hlower

/-- The keys of the settings. -/
def topKeys : List String := Value.slots.map (·.key)

theorem lowerCase_root_ne {name key : String} (hkey : key ∈ topKeys)
    (h : (KeyPath.ofName (variableKey name)).root ≠ key) :
    Text.lowerCase (KeyPath.ofName (variableKey name)).root ≠ key := by
  have hletters : (topKeys.all fun k => k.toList.all fun c => decide (c.toNat < 0x80 ∧ c ≠ 'k')) = true := by
    decide
  simp only [List.all_eq_true, decide_eq_true_eq] at hletters
  exact fun hlower => h (Text.eq_of_lowerCase_eq (fun _ => not_isCapital_root) (hletters key hkey) hlower)

/-! ## Putting values at paths -/

/-- The value is neither a list nor a table. -/
def IsScalar : Value → Prop
  | .list .. | .table .. => False
  | _ => True

theorem isScalar_variableValue (text : String) : IsScalar (variableValue text) := by
  unfold variableValue
  dsimp only
  split
  · trivial
  · split
    · trivial
    · split
      · trivial
      · split <;> trivial

section
variable {members : Members} {k : String} {value : Value} {path : KeyPath}

theorem laidOver_of_isScalar (h : IsScalar value) (old : Option Value) : Members.laidOver value old = value := by
  cases value
  case list | table => cases h
  all_goals rfl

theorem lookup_put :
    (path.put value members).lookup k =
      if path.steps = [] then
        if k = Text.lowerCase path.root then some (Members.laidOver value (members.lookup k)) else members.lookup k
      else if k = path.root then
        some (KeyPath.putBelow value path.steps ((members.lookup k).getD (.null none)))
      else members.lookup k := by
  obtain ⟨root, steps⟩ := path
  cases steps with
  | nil => exact Members.lookup_merge
  | cons step steps =>
    simp only [reduceCtorEq, if_false]
    refine Members.lookup_update.trans ?_
    split
    · rename_i h
      rw [h]
    · rfl

theorem lookup_put_of_ne (hroot : path.root ≠ k) (hlower : Text.lowerCase path.root ≠ k) :
    (path.put value members).lookup k = members.lookup k := by
  rw [lookup_put, if_neg (Ne.symm hlower), if_neg (Ne.symm hroot)]
  split <;> rfl

theorem Members.overlay_cons (key : String) (value : Value) (rest : List (String × Value)) :
    members.overlay ((key, value) :: rest) = ((KeyPath.ofName key).put value members).overlay rest :=
  rfl

theorem ofEnvironment_cons (name text : String) (rest : Environment) :
    ofEnvironment ((name, text) :: rest) =
      (variableKey name, variableValue text) :: ofEnvironment rest :=
  rfl

end

end Settings

end ExecWatch
