import ExecWatch.Engine.Run
import ExecWatch.Proofs.Results
import ExecWatch.Proofs.Rule.Matcher
import ExecWatch.Settings.Load

/-!
# Validated rules compile

Validation looks at the rules' targets and collects every problem; the engine compiles the rules and
stops at the first it cannot compile. Both judge alike:

* `Settings.reports_target_iff`: a target is reported exactly where compiling its rule fails, with the
  cause of that failure;
* `Settings.compiles_of_validate`: the rules of validated settings make a matcher;
* `Engine.onlyProbeFails_run`, `Engine.ends_run_of_no_channel`: how a run with rules that make a matcher
  ends, by whether there is a channel of the capacity that is set;
* `Engine.avoidsRules_run`: it ends with no error of a rule;
* `Settings.validation_agrees`: both sides together, of any settings and of settings that were loaded.
-/

namespace ExecWatch

/-! ## Problems with targets -/

theorem Rule.mem_targetProblems (r : Rule) (p : Problem) :
    p ∈ r.targetProblems ↔
      r.isProcess = true ∧ r.target ≠ "" ∧
        ∃ e, ProcessRule.compile r = .error e ∧ p = .target r.target e.cause := by
  unfold targetProblems ProcessRule.compile
  by_cases hprocess : r.isProcess = true
  · by_cases htarget : r.target = ""
    · simp [htarget]
    · cases hglob : Glob.compile r.target with
      | ok pattern => simp [hprocess, htarget]
      | error cause => simp [hprocess, htarget]
  · simp [hprocess]

/-- The other problems of a rule are none with its target. -/
theorem Rule.target_mem_problems (r : Rule) (given : String) (cause : Glob.Error) :
    .target given cause ∈ r.problems ↔ .target given cause ∈ r.targetProblems := by
  unfold problems
  simp

namespace Settings

theorem mem_ruleProblems (p : Rule.Problem) (i first : Nat) (rules : List Rule) :
    .rule i p ∈ ruleProblems first rules ↔
      ∃ k r, rules[k]? = some r ∧ i = first + k ∧ p ∈ r.problems := by
  induction rules generalizing first with
  | nil => simp [ruleProblems]
  | cons r rest ih =>
    rw [ruleProblems, List.mem_append, ih (first + 1), List.mem_map]
    constructor
    · rintro (⟨p', hp, hrule⟩ | ⟨k, r', hr', rfl, hp⟩)
      · cases hrule
        exact ⟨0, r, rfl, rfl, hp⟩
      · exact ⟨k + 1, r', hr', by omega, hp⟩
    · rintro ⟨k, r', hr', rfl, hp⟩
      cases k with
      | zero =>
        cases hr'
        exact .inl ⟨p, hp, rfl⟩
      | succ k => exact .inr ⟨k, r', hr', by omega, hp⟩

/-- Validation refuses the settings and names the problem. -/
def Reports (s : Settings) (p : Problem) : Prop :=
  ∃ problems, s.validate = .error (.invalid problems) ∧ p ∈ problems

theorem reports_iff (s : Settings) (p : Problem) : s.Reports p ↔ p ∈ s.problems := by
  unfold Reports validate
  cases hproblems : s.problems with
  | nil => simp
  | cons first rest => simp

theorem validate_eq_ok_iff (s t : Settings) : s.validate = .ok t ↔ s.problems = [] ∧ t = s := by
  unfold validate
  cases hproblems : s.problems with
  | nil => simp [eq_comm]
  | cons first rest => simp

/-- A target is reported exactly where compiling its rule fails. -/
theorem reports_target_iff (s : Settings) (i : Nat) (given : String) (cause : Glob.Error) :
    s.Reports (.rule i (.target given cause)) ↔
      ∃ r, s.rules[i]? = some r ∧ r.isProcess = true ∧ r.target ≠ "" ∧ r.target = given ∧
        ∃ e, ProcessRule.compile r = .error e ∧ e.cause = cause := by
  have hrules : .rule i (.target given cause) ∈ s.problems ↔
      .rule i (.target given cause) ∈ ruleProblems 0 s.rules := by
    have hlevel : .rule i (.target given cause) ∉ s.logLevelProblems := by
      unfold logLevelProblems
      split
      · split <;> simp
      · simp
    have hcapacity : .rule i (.target given cause) ∉ s.capacityProblems := by
      unfold capacityProblems
      split <;> simp
    simp [problems, hlevel, hcapacity]
  rw [reports_iff, hrules, mem_ruleProblems]
  constructor
  · rintro ⟨k, r, hr, rfl, hp⟩
    rw [Rule.target_mem_problems, Rule.mem_targetProblems] at hp
    obtain ⟨hprocess, htarget, e, he, hsame⟩ := hp
    cases hsame
    rw [Nat.zero_add]
    exact ⟨r, hr, hprocess, htarget, rfl, e, he, rfl⟩
  · rintro ⟨r, hr, hprocess, htarget, rfl, e, he, rfl⟩
    refine ⟨i, r, hr, (Nat.zero_add i).symm, ?_⟩
    rw [Rule.target_mem_problems, Rule.mem_targetProblems]
    exact ⟨hprocess, htarget, e, he, rfl⟩

end Settings

/-! ## Rules of validated settings -/

namespace Settings

/-- Choosing the process rules twice chooses no fewer. -/
theorem filter_processRules (s : Settings) :
    s.processRules.filter (·.isProcess) = s.rules.filter (·.isProcess) := by
  rw [processRules, List.filter_filter]
  simp

/-- The rules of settings without problems make a matcher. -/
theorem compiles_of_validate {s : Settings} (h : s.problems = []) :
    ∃ m, Matcher.ofRules s.processRules = .ok m := by
  have hcompile : ∀ r ∈ s.rules.filter (·.isProcess), ∃ p, ProcessRule.compile r = .ok p := by
    intro r hr
    rw [List.mem_filter] at hr
    obtain ⟨hr, hprocess⟩ := hr
    cases hcompiled : ProcessRule.compile r with
    | ok p => exact ⟨p, rfl⟩
    | error e =>
      have htarget : r.target ≠ "" := by
        intro hempty
        simp [ProcessRule.compile, hempty] at hcompiled
      obtain ⟨i, hi⟩ := List.getElem?_of_mem hr
      have hreport : s.Reports (.rule i (.target r.target e.cause)) :=
        (reports_target_iff ..).2 ⟨r, hi, hprocess, htarget, rfl, e, hcompiled, rfl⟩
      rw [reports_iff, h] at hreport
      cases hreport
  obtain ⟨compiled, hcompiled⟩ := exists_forall₂ hcompile
  rw [← filter_processRules] at hcompiled
  exact ⟨⟨compiled⟩, (Matcher.ofRules_eq_ok_iff ..).2 hcompiled⟩

end Settings

/-! ## Runs -/

namespace Engine

/-- The action ends with a value that has one property, or with an error that has the other, whatever
was done before it. -/
def Ends {α : Type} (action : Action α) (value : α → Prop) (failure : Error → Prop) : Prop :=
  ∀ before, match (action.outcome before).1 with
    | .ok a => value a
    | .error e => failure e

section
variable {α β : Type} {value : α → Prop} {failure : Error → Prop}

theorem ends_pure {a : α} (h : value a) : Ends (pure a) value failure := fun _ => h

theorem ends_throw {e : Error} (h : failure e) : Ends (throw e) value failure := fun _ => h

/-- Nothing is done behind an error. -/
theorem ends_throw_bind {e : Error} {next : β → Action α} (h : failure e) :
    Ends (throw e >>= next) value failure := fun _ => h

theorem ends_modify (f : Activity → Activity) : Ends (modify f) (fun _ => True) failure :=
  fun _ => trivial

theorem ends_bind {action : Action α} {next : α → Action β} {result : β → Prop}
    (h : Ends action value failure) (hnext : ∀ a, value a → Ends (next a) result failure) :
    Ends (action >>= next) result failure := by
  intro before
  have hfirst := h before
  rw [Action.outcome_bind]
  generalize action.outcome before = done at hfirst
  obtain ⟨e | a, later⟩ := done
  · exact hfirst
  · exact hnext a hfirst later

end

theorem Ends.mono {α : Type} {action : Action α} {value value' : α → Prop}
    {failure failure' : Error → Prop} (h : Ends action value failure) (hvalue : ∀ a, value a → value' a)
    (hfailure : ∀ e, failure e → failure' e) : Ends action value' failure' := by
  intro before
  have hends := h before
  generalize action.outcome before = done at hends
  obtain ⟨e | a, later⟩ := done
  · exact hfailure e hends
  · exact hvalue a hends

/-- An error of a rule. -/
def Error.OfRule : Error → Prop
  | .rule _ => True
  | _ => False

/-- An error of what is loaded and attached, which the settings do not decide. -/
def Error.OfProbe : Error → Prop
  | .rule _ | .channelCapacity _ => False
  | _ => True

/-- The action ends with no error of a rule. -/
def AvoidsRules {α : Type} (action : Action α) : Prop :=
  Ends action (fun _ => True) fun e => ¬ e.OfRule

/-- The action ends with no error but one of the probe. -/
def OnlyProbeFails {α : Type} (action : Action α) : Prop :=
  Ends action (fun _ => True) Error.OfProbe

theorem onlyProbeFails_loadProgram (h : Host) (code : ProbeCode) (program : String) :
    OnlyProbeFails (loadProgram h code program) := by
  unfold loadProgram
  split
  · exact ends_throw trivial
  · split
    · exact ends_throw_bind trivial
    · exact ends_modify _

theorem onlyProbeFails_attachProgram (h : Host) (program tracepoint : String) :
    OnlyProbeFails (attachProgram h program tracepoint) := by
  unfold attachProgram
  split
  · exact ends_throw trivial
  · split
    · exact ends_throw_bind trivial
    · exact ends_modify _

theorem onlyProbeFails_attachCall (h : Host) (code : ProbeCode) (call : Syscall) :
    OnlyProbeFails (attachCall h code call) := by
  unfold attachCall
  split
  · exact ends_bind (ends_modify _) fun _ _ => ends_pure trivial
  · refine ends_bind (ends_modify _) fun _ _ => ?_
    refine ends_bind (onlyProbeFails_loadProgram h code _) fun _ _ => ?_
    refine ends_bind (onlyProbeFails_attachProgram h _ _) fun _ _ => ?_
    exact ends_bind (ends_modify _) fun _ _ => ends_pure trivial

theorem onlyProbeFails_attachCalls (h : Host) (code : ProbeCode) (calls : List Syscall) :
    OnlyProbeFails (attachCalls h code calls) := by
  induction calls with
  | nil => exact ends_pure trivial
  | cons call rest ih =>
    refine ends_bind (onlyProbeFails_attachCall h code call) fun attached _ => ?_
    exact ends_bind ih fun others _ => ends_pure trivial

theorem onlyProbeFails_attach (h : Host) (e : Engine) : OnlyProbeFails (attach h e) := by
  refine ends_bind (onlyProbeFails_attachCalls h _ _) fun attached _ => ?_
  refine ends_bind (ends_modify _) fun _ _ => ?_
  refine ends_bind (ends_modify _) fun _ _ => ?_
  split
  · exact ends_throw trivial
  · exact ends_pure trivial

theorem onlyProbeFails_openRing (code : ProbeCode) : OnlyProbeFails (openRing code) := by
  unfold openRing
  split
  · exact ends_throw trivial
  · split
    · exact ends_pure trivial
    · exact ends_throw trivial

theorem onlyProbeFails_handleSamples (m : Matcher) (now : Timestamp) (c : Channel Alert)
    (samples : List Bytes) : OnlyProbeFails (handleSamples m now c samples) := by
  induction samples generalizing c with
  | nil => exact ends_pure trivial
  | cons sample rest ih =>
    refine ends_bind (ends_modify _) fun _ _ => ?_
    have hwrite (c : Channel Alert) : OnlyProbeFails (writeWaiting c) :=
      ends_bind (ends_modify _) fun _ _ => ends_pure trivial
    exact ends_bind (hwrite _) fun c _ => ih c

section
variable {e : Engine} {m : Matcher} (hm : Matcher.ofRules e.settings.processRules = .ok m)
include hm

/-- Compiling rules that make a matcher does not fail. -/
theorem ends_compileRules (failure : Error → Prop) :
    Ends (compileRules e.settings) (fun _ => True) failure := by
  unfold compileRules
  rw [hm]
  dsimp only
  split
  · exact ends_bind (ends_modify _) fun _ _ => ends_pure trivial
  · exact ends_bind (ends_modify _) fun _ _ => ends_pure trivial

/-- Behind the rules and the channel, only the probe fails a run. -/
theorem onlyProbeFails_run {c : Channel Alert}
    (hc : Channel.ofCapacity? e.settings.channelCapacity = some c) (h : Host) (now : Timestamp)
    (samples : List Bytes) : OnlyProbeFails (run e h now samples) := by
  refine ends_bind (ends_compileRules hm _) fun m _ => ?_
  have hopen : OnlyProbeFails (openChannel e.settings) := by
    unfold openChannel
    rw [hc]
    exact ends_pure trivial
  refine ends_bind hopen fun c _ => ?_
  refine ends_bind (onlyProbeFails_attach h e) fun _ _ => ?_
  refine ends_bind (onlyProbeFails_openRing _) fun _ _ => ?_
  refine ends_bind (ends_modify _) fun _ _ => ?_
  refine ends_bind (onlyProbeFails_handleSamples m now c samples) fun _ _ => ?_
  exact ends_modify _

/-- Where there is no channel of the capacity that is set, a run ends there. -/
theorem ends_run_of_no_channel
    (hc : Channel.ofCapacity? (α := Alert) e.settings.channelCapacity = none) (h : Host) (now : Timestamp)
    (samples : List Bytes) :
    Ends (run e h now samples) (fun _ => False) (· = .channelCapacity e.settings.channelCapacity) := by
  refine ends_bind (ends_compileRules hm _) fun m _ => ?_
  unfold openChannel
  rw [hc]
  exact ends_throw_bind rfl

/-- Only compiling the rules ends a run with an error of a rule. -/
theorem avoidsRules_run (h : Host) (now : Timestamp) (samples : List Bytes) :
    AvoidsRules (run e h now samples) := by
  cases hc : Channel.ofCapacity? (α := Alert) e.settings.channelCapacity with
  | some c =>
    refine (onlyProbeFails_run hm hc h now samples).mono (fun _ => id) fun e hprobe hrule => ?_
    cases e
    case rule => exact hprobe
    all_goals exact hrule
  | none =>
    refine (ends_run_of_no_channel hm hc h now samples).mono (fun _ => False.elim) ?_
    rintro _ rfl
    exact id

end

/-- An engine keeps the settings that it is started with. -/
theorem ends_start (settings : Settings) (object : ProbeObject) (h : Host) :
    Ends (start settings object h) (fun e => e.settings = settings) fun _ => True := by
  have hload : Ends (load h object) (fun _ => True) fun _ => True := by
    intro before
    split
    · trivial
    · trivial
  have hcheck (version : KernelVersion) :
      Ends (liftM (checkKernel version)) (fun _ => True) fun _ => True := by
    intro before
    split
    · trivial
    · trivial
  unfold start
  dsimp only
  split
  · exact ends_throw_bind trivial
  · split
    · refine ends_bind (hcheck _) fun _ _ => ?_
      refine ends_bind (ends_modify _) fun _ _ => ?_
      split
      · refine ends_bind (ends_modify _) fun _ _ => ?_
        split
        · refine ends_bind (ends_modify _) fun _ _ => ?_
          exact ends_bind hload fun code _ => ends_bind (ends_modify _) fun _ _ => ends_pure rfl
        · exact ends_bind hload fun code _ => ends_bind (ends_modify _) fun _ _ => ends_pure rfl
      · exact ends_throw trivial
    · exact ends_throw trivial

end Engine

/-! ## Both together -/

namespace Settings

/-- Settings that are loaded have no problems. -/
theorem problems_of_load {directory : Directory} {path : Option String} {environment : Environment}
    {s : Settings} (h : load directory path environment = .ok s) : s.problems = [] := by
  unfold load at h
  obtain ⟨file, -, h⟩ := exists_of_bind_eq_ok h
  obtain ⟨settings, -, h⟩ := exists_of_bind_eq_ok h
  obtain ⟨hnone, rfl⟩ := (validate_eq_ok_iff settings s).1 h
  exact hnone

/-- **Validation and compilation agree.** Validation reports a target exactly where compiling its rule
fails, with the cause of that failure. The rules of validated settings make a matcher, which holds all
the process rules and no others, in their order. So no run of an engine that was started with loaded
settings fails on a rule. -/
theorem validation_agrees (s : Settings) :
    (∀ i given cause, s.Reports (.rule i (.target given cause)) ↔
        ∃ r, s.rules[i]? = some r ∧ r.isProcess = true ∧ r.target ≠ "" ∧ r.target = given ∧
          ∃ e, ProcessRule.compile r = .error e ∧ e.cause = cause) ∧
      (∀ t, s.validate = .ok t → t = s ∧ ∃ m, Matcher.ofRules s.processRules = .ok m ∧
        List.Forall₂ (fun r p => ProcessRule.compile r = .ok p) (s.rules.filter (·.isProcess)) m.rules ∧
        m.rules.length = s.rules.countP (·.isProcess)) ∧
      ∀ directory path environment, load directory path environment = .ok s →
        ∀ object host before e, ((Engine.start s object host).outcome before).1 = .ok e →
          ∀ now samples before' cause,
            ((Engine.run e host now samples).outcome before').1 ≠ .error (.rule cause) := by
  refine ⟨reports_target_iff s, fun t ht => ?_, ?_⟩
  · obtain ⟨hnone, rfl⟩ := (validate_eq_ok_iff s t).1 ht
    obtain ⟨m, hm⟩ := compiles_of_validate hnone
    have hheld := (Matcher.ofRules_eq_ok_iff ..).1 hm
    rw [filter_processRules] at hheld
    refine ⟨rfl, m, hm, hheld, ?_⟩
    rw [← hheld.length_eq, List.countP_eq_length_filter]
  · intro directory path environment hload object host before e hstart now samples before' cause hrun
    have hsettings := Engine.ends_start s object host before
    rw [hstart] at hsettings
    obtain ⟨m, hm⟩ := compiles_of_validate (problems_of_load hload)
    rw [← hsettings] at hm
    have havoids := Engine.avoidsRules_run hm host now samples before'
    rw [hrun] at havoids
    exact havoids trivial

/-- A rule of another type has a target that is no glob. -/
def shellRules : Settings :=
  { rules := [⟨"passwd", "FILE", "[", "WARN"⟩, ⟨"shells", Rule.processType, "*sh", "INFO"⟩] }

/-- The same in a settings file. -/
def shellFile : String :=
  "rules:\n- \x7bname: passwd, type: FILE, target: '[', severity: WARN\x7d\n" ++
    "- \x7bname: shells, type: PROCESS, target: '*sh', severity: INFO\x7d\n"

/-- A probe that attaches to one of the two calls. -/
def shellProbe : ProbeCode :=
  { programs := [(Syscall.execve.programName, .tracepoint)]
    maps := [(ProbeCode.eventsMap, ringBufferType)]
    offsetsSize := some ProbeCode.offsetsWidth }

/-- A host that shows the tracepoint of that call only. -/
def shellHost : Host :=
  { release := "6.1.0", tracepoints := [⟨.tracing, Syscall.execve.tracepoint, "7\n"⟩] }

theorem eq_ok_of_toOption {ε α : Type} {x : Except ε α} {a : α} (h : x.toOption = some a) :
    x = .ok a := by
  cases x with
  | error e => cases h
  | ok a' =>
    cases h
    rfl

theorem validation_agrees_shells :
    load [("shells.yaml", shellFile)] (some "shells.yaml") [] = .ok shellRules ∧
      ((Engine.start shellRules (.code shellProbe) shellHost).outcome).1 =
        .ok ⟨shellRules, shellProbe, .unresolved⟩ ∧
      (∃ m, Matcher.ofRules shellRules.processRules = .ok m ∧ m.rules.length = 1) ∧
      ∀ now samples cause, ((Engine.run ⟨shellRules, shellProbe, .unresolved⟩ shellHost now
        samples).outcome).1 ≠ .error (.rule cause) := by
  have hload : load [("shells.yaml", shellFile)] (some "shells.yaml") [] = .ok shellRules :=
    eq_ok_of_toOption (by decide +kernel)
  have hstart : ((Engine.start shellRules (.code shellProbe) shellHost).outcome).1 =
      .ok ⟨shellRules, shellProbe, .unresolved⟩ := eq_ok_of_toOption (by decide +kernel)
  have hvalid : shellRules.validate = .ok shellRules := eq_ok_of_toOption (by decide +kernel)
  obtain ⟨-, hmatcher, hrun⟩ := validation_agrees shellRules
  obtain ⟨-, m, hm, -, hlength⟩ := hmatcher shellRules hvalid
  refine ⟨hload, hstart, ⟨m, hm, hlength⟩, fun now samples cause => ?_⟩
  exact hrun _ _ _ hload _ _ _ _ hstart now samples _ cause

end Settings

end ExecWatch
