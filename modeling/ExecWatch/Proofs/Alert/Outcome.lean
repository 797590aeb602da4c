import ExecWatch.Alert.Handler
import ExecWatch.Proofs.Rule.Matcher

/-!
# What becomes of a sample

A sample is decoded, matched and sent, and each of the three may fail. Main statements:

* `handled`: all that handling can do, case by case (`Handled`);
* `settles_of_handled`: which case it is, exactly, and what the alert carries (`Settles`);
* `Alert.carries_ofMatch`: the alert of a rule and an exec carries what both say.
-/

namespace ExecWatch

/-! ## Channels -/

namespace Channel

variable {α : Type}

/-- A channel as it is made: empty, with one sender and its receiver. -/
def fresh (capacity : Nat) : Channel α := ⟨capacity, [], 1, .opened⟩

theorem ofCapacity?_eq {capacity : Nat} (hpos : 1 ≤ capacity) (hmax : capacity ≤ maxCapacity) :
    ofCapacity? capacity = some (fresh capacity : Channel α) := by
  rw [ofCapacity?, if_neg (by omega), fresh]

theorem eq_fresh {capacity : Nat} {c : Channel α} (h : ofCapacity? capacity = some c) :
    1 ≤ capacity ∧ c = fresh capacity := by
  unfold ofCapacity? at h
  split at h
  · cases h
  · rename_i hcapacity
    cases h
    exact ⟨by omega, rfl⟩

/-- A value that is sent gets through: the receiver is open and fewer values are queued than the
channel has room for. -/
def Accepts (c : Channel α) : Prop := c.receiver = .opened ∧ c.queue.length < c.capacity

instance (c : Channel α) : Decidable c.Accepts :=
  inferInstanceAs (Decidable (_ ∧ _))

variable {c : Channel α}

theorem send_of_accepts (h : c.Accepts) (value : α) :
    c.send value = ({ c with queue := c.queue ++ [value] }, .queued) := by
  rw [send, if_neg (not_not_intro h.1), if_neg (Nat.not_le.2 h.2)]

theorem send_of_not_accepts (h : ¬ c.Accepts) (value : α) :
    c.send value = (c, .full) ∨ c.send value = (c, .closed) := by
  unfold send
  split
  · exact .inr rfl
  · rename_i hopened
    split
    · exact .inl rfl
    · rename_i hroom
      exact absurd ⟨Classical.not_not.1 hopened, Nat.not_le.1 hroom⟩ h

end Channel

theorem Alert.send_of_accepts {c : Channel Alert} (h : c.Accepts) (a : Alert) :
    send c a = ({ c with queue := c.queue ++ [a] }, true, []) := by
  rw [send, Channel.send_of_accepts h]

theorem Alert.send_of_not_accepts {c : Channel Alert} (h : ¬ c.Accepts) (a : Alert) :
    (send c a).1 = c ∧ (send c a).2.1 = false := by
  unfold send
  rcases Channel.send_of_not_accepts h a with hsend | hsend
  · rw [hsend]
    exact ⟨rfl, rfl⟩
  · rw [hsend]
    exact ⟨rfl, rfl⟩

/-! ## Decoding -/

theorem ExecInfo.decode?_eq_none_iff (sample : Bytes) :
    ExecInfo.decode? sample = none ↔ sample.length ≠ Record.size := by
  unfold ExecInfo.decode? Record.decode?
  by_cases h : sample.length = Record.size <;> simp [h]

/-! ## What an alert carries -/

/-- The alert carries the rule's name and severity and the fields of the exec, the arguments only if
there are any. -/
structure Alert.Carries (a : Alert) (name severity : String) (exec : ExecInfo) (now : Timestamp) :
    Prop where
  rule : a.rule = name
  severity : a.severity = severity
  time : a.time = now
  numbers : ∀ field ∈ [("pid", exec.pid), ("ppid", exec.ppid), ("uid", exec.uid), ("gid", exec.gid)],
    (detail a.exec).lookup field.1 = some (.int field.2.toNat)
  texts : ∀ field ∈ [("comm", exec.comm), ("exe", exec.filename)],
    (detail a.exec).lookup field.1 = some (.string field.2)
  cmdline : (detail a.exec).lookup "cmdline" =
    if exec.argv = "" then none else some (.string exec.argv)

theorem Alert.carries_ofMatch (rule : ProcessRule) (exec : ExecInfo) (now : Timestamp) :
    (ofMatch rule exec now).Carries rule.name rule.severity exec now := by
  have hexec : (ofMatch rule exec now).exec = exec := rfl
  refine ⟨rfl, rfl, rfl, ?_, ?_, ?_⟩
  · rw [hexec, detail]
    cases exec.argv.isEmpty <;> simp [List.lookup_cons]
  · rw [hexec, detail]
    cases exec.argv.isEmpty <;> simp [List.lookup_cons]
  · rw [hexec, detail]
    by_cases hargv : exec.argv = ""
    · simp [hargv, List.lookup_cons]
    · simp [hargv]

namespace Handler

/-! ## One sample -/

/-- The alert of a sample, if a rule hits the exec that it holds. -/
def alertOf? (m : Matcher) (now : Timestamp) (sample : Bytes) : Option Alert :=
  (ExecInfo.decode? sample).bind fun exec =>
    (m.matchExec exec).map fun rule => .ofMatch rule exec now

/-- Everything that handling a sample can do: to the channel, and as its outcome. -/
inductive Handled (m : Matcher) (now : Timestamp) (c : Channel Alert) (sample : Bytes) :
    Channel Alert → Outcome → Prop
  | malformed (hdecode : ExecInfo.decode? sample = none) : Handled m now c sample c .malformed
  | noMatch {exec : ExecInfo} (hdecode : ExecInfo.decode? sample = some exec)
      (hmatch : m.matchExec exec = none) : Handled m now c sample c .noMatch
  | alerted {exec : ExecInfo} {rule : ProcessRule} (hdecode : ExecInfo.decode? sample = some exec)
      (hmatch : m.matchExec exec = some rule) (haccepts : c.Accepts) :
      Handled m now c sample { c with queue := c.queue ++ [.ofMatch rule exec now] } .alerted
  | dropped {exec : ExecInfo} {rule : ProcessRule} (hdecode : ExecInfo.decode? sample = some exec)
      (hmatch : m.matchExec exec = some rule) (hrefuses : ¬ c.Accepts) :
      Handled m now c sample c .dropped

theorem handled (m : Matcher) (now : Timestamp) (c : Channel Alert) (sample : Bytes) :
    Handled m now c sample (handle m now c sample).1 (handle m now c sample).2.1 := by
  cases hdecode : ExecInfo.decode? sample with
  | none =>
    simp only [handle, hdecode]
    exact .malformed hdecode
  | some exec =>
    cases hmatch : m.matchExec exec with
    | none =>
      simp only [handle, hdecode, hmatch]
      exact .noMatch hdecode hmatch
    | some rule =>
      by_cases haccepts : c.Accepts
      · simp only [handle, hdecode, hmatch, Alert.send_of_accepts haccepts]
        exact .alerted hdecode hmatch haccepts
      · obtain ⟨hsame, hsent⟩ := Alert.send_of_not_accepts haccepts (.ofMatch rule exec now)
        simp only [handle, hdecode, hmatch, hsame, hsent]
        exact .dropped hdecode hmatch haccepts

/-- What becomes of a sample that is handled at `now`, exactly, and of the channel `c`, whose receiver
is `alive` or not. The rule that is selected is one of `rules`. -/
structure Settles (rules : List Rule) (m : Matcher) (alive : Prop) (now : Timestamp)
    (c : Channel Alert) (sample : Bytes) (next : Channel Alert) (outcome : Outcome) : Prop where
  malformed : outcome = .malformed ↔ sample.length ≠ 544
  noMatch : outcome = .noMatch ↔
    ∃ exec, ExecInfo.decode? sample = some exec ∧ m.matchExec exec = none
  alerted : outcome = .alerted ↔
    (∃ exec rule, ExecInfo.decode? sample = some exec ∧ m.matchExec exec = some rule) ∧
      alive ∧ c.queue.length < c.capacity
  dropped : outcome = .dropped ↔
    (∃ exec rule, ExecInfo.decode? sample = some exec ∧ m.matchExec exec = some rule) ∧
      ¬ (alive ∧ c.queue.length < c.capacity)
  kept : outcome ≠ .alerted → next = c
  appended : outcome = .alerted → ∃ exec rule alert,
    ExecInfo.decode? sample = some exec ∧ m.matchExec exec = some rule ∧
      (∃ r ∈ rules, r.isProcess = true ∧ rule.name = r.name ∧ rule.severity = r.severity) ∧
      alert.Carries rule.name rule.severity exec now ∧
      next = { c with queue := c.queue ++ [alert] }

theorem settles_of_handled {rules : List Rule} {m : Matcher} (hm : Matcher.ofRules rules = .ok m)
    {now : Timestamp} {c : Channel Alert} {sample : Bytes} {next : Channel Alert} {outcome : Outcome}
    (h : Handled m now c sample next outcome) :
    Settles rules m (c.receiver = .opened) now c sample next outcome := by
  have hsize := ExecInfo.decode?_eq_none_iff sample
  have hlength {exec : ExecInfo} (hdecode : ExecInfo.decode? sample = some exec) :
      sample.length = 544 := by
    refine Decidable.byContradiction fun hne => ?_
    rw [hsize.2 hne] at hdecode
    cases hdecode
  cases h with
  | malformed hdecode =>
    have hne : sample.length ≠ 544 := hsize.1 hdecode
    constructor <;> simp [hdecode, hne]
  | noMatch hdecode hmatch =>
    constructor <;> simp [hdecode, hmatch, hlength hdecode]
  | @alerted exec rule hdecode hmatch haccepts =>
    have hrule := Matcher.exists_rule hm hmatch
    have hcarries := Alert.carries_ofMatch rule exec now
    refine ⟨?_, ?_, ?_, ?_, ?_, fun _ =>
      ⟨exec, rule, _, hdecode, hmatch, hrule, hcarries, rfl⟩⟩
    all_goals simp [hdecode, hmatch, hlength hdecode, haccepts.1, haccepts.2]
  | dropped hdecode hmatch hrefuses =>
    unfold Channel.Accepts at hrefuses
    constructor <;> simp [hdecode, hmatch, hlength hdecode, hrefuses]

end Handler

end ExecWatch
