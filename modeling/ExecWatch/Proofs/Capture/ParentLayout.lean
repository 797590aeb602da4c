import ExecWatch.Engine.Offsets
import ExecWatch.Proofs.Capture.Parent
import ExecWatch.Proofs.Capture.Ring
import ExecWatch.Proofs.TypeTable.Searchable

/-!
# The parent on every kernel layout

Two programs meet at the two offsets: the loader reads them out of the kernel's type table, the probe
adds them to addresses. `Places data a b` says what the table itself says of them, and `NoOffsets` that
it says nothing. The loader adds up offsets on the way, and goes on where they fit a word (`OffsetsFit`).
Main statements:

* `exists_resolve`: it sets something there;
* `resolve_places`, `resolve_noOffsets`: what it sets in either case;
* `ppid_of_layout`: the record of a firing after that carries the parent that `IsParent` finds at the
  bytes of the table, or 0.
-/

namespace ExecWatch

/-- The table places the parent pointer at byte `a` of a task and the process id at byte `b`. -/
def Places (data : Bytes) (a b : Nat) : Prop :=
  ∃ ds, TypeTable.Encodes data ds ∧
    TypeTable.bitOffset ds "task_struct" "real_parent" = .ok (8 * a) ∧
    TypeTable.bitOffset ds "task_struct" "tgid" = .ok (8 * b)

/-- There is no table, or it cannot be read, or one of the two fields is not in it, or looking for one
of them comes upon a name that cannot be read. -/
inductive NoOffsets : Option Bytes → Prop
  | absent : NoOffsets none
  | unread {data : Bytes} {e : TypeTable.Error} : TypeTable.parse data = .error e → NoOffsets (some data)
  | lacking {data : Bytes} {ds : List TypeTable.Decl} {field : String} {e : TypeTable.Error} :
      TypeTable.Encodes data ds → field = "real_parent" ∨ field = "tgid" →
      TypeTable.bitOffset ds "task_struct" field = .error e → NoOffsets (some data)
  | refused {data : Bytes} {table : TypeTable} {field : String} {e : TypeTable.Error} :
      TypeTable.parse data = .ok table → field = "real_parent" ∨ field = "tgid" →
      table.memberOffset "task_struct" field = .error (.reported e) → NoOffsets (some data)

/-- In a table that can be read, the offsets on the way to either field add up to no more bits than a
word holds. -/
def OffsetsFit (types : Option Bytes) : Prop :=
  ∀ data table, types = some data → TypeTable.parse data = .ok table →
    table.SumFits "task_struct" "real_parent" ∧ table.SumFits "task_struct" "tgid"

/-! ## What the loader sets -/

section
variable {data : Bytes} {table : TypeTable} {o : TaskOffsets} {line : LogLine}

theorem taskOffsetsOf_of_parse (hparse : TypeTable.parse data = .ok table) :
    taskOffsetsOf data = table.taskOffsets := by
  rw [taskOffsetsOf, hparse]
  rfl

theorem resolve_of_ok (h : taskOffsetsOf data = .ok o) :
    ∃ line, TaskOffsets.resolve (some data) = some (o, line) := by
  simp only [TaskOffsets.resolve, TaskOffsets.ofFile, h]
  exact ⟨_, rfl⟩

theorem resolve_of_reported {e : TypeTable.Error} (h : taskOffsetsOf data = .error (.reported e)) :
    ∃ line, TaskOffsets.resolve (some data) = some (.unresolved, line) := by
  simp only [TaskOffsets.resolve, TaskOffsets.ofFile, h]
  exact ⟨_, rfl⟩

theorem resolve_of_overflow (h : taskOffsetsOf data = .error .overflow) :
    TaskOffsets.resolve (some data) = none := by
  simp only [TaskOffsets.resolve, TaskOffsets.ofFile, h]
  rfl

/-- Where the offsets fit, looking for them does not end the program. -/
theorem taskOffsetsOf_ne_overflow (hfit : OffsetsFit (some data)) :
    taskOffsetsOf data ≠ .error .overflow := by
  intro h
  cases hparse : TypeTable.parse data with
  | error e =>
    rw [taskOffsetsOf, hparse] at h
    cases h
  | ok table =>
    obtain ⟨hparent, htgid⟩ := hfit data table rfl hparse
    rw [taskOffsetsOf_of_parse hparse] at h
    rcases or_of_bind_eq_error h with hoverflow | ⟨_, -, hrest⟩
    · exact TypeTable.memberOffset_ne_overflow hparent hoverflow
    · rcases or_of_bind_eq_error hrest with hoverflow | ⟨_, -, hpair⟩
      · exact TypeTable.memberOffset_ne_overflow htgid hoverflow
      · cases hpair

/-- Where the offsets fit, the loader goes on. -/
theorem exists_resolve {types : Option Bytes} (hfit : OffsetsFit types) :
    ∃ o line, TaskOffsets.resolve types = some (o, line) := by
  cases types with
  | none => exact ⟨_, _, rfl⟩
  | some data =>
    rcases hresult : taskOffsetsOf data with (e | _) | o
    · exact ⟨_, resolve_of_reported hresult⟩
    · exact absurd hresult (taskOffsetsOf_ne_overflow hfit)
    · exact ⟨_, resolve_of_ok hresult⟩

/-- The ways fit where the places do. -/
theorem offsetsFit_of_places {a b : Nat} (h : Places data a b) (ha : 8 * a < 0x100000000)
    (hb : 8 * b < 0x100000000) : OffsetsFit (some data) := by
  obtain ⟨ds, ⟨table, hparse, hholds⟩, hparent, htgid⟩ := h
  rintro _ table' ⟨⟩ hparse'
  cases hparse.symm.trans hparse'
  have hslots := TypeTable.slotsInside_of_parse hparse
  exact ⟨TypeTable.sumFits_of_memberOffset hslots (TypeTable.memberOffset_of_bytes hholds hparent ha),
    TypeTable.sumFits_of_memberOffset hslots (TypeTable.memberOffset_of_bytes hholds htgid hb)⟩

/-- The offsets that are set are the table's: where one of them passed a word, the loader would not have
gone on. -/
theorem resolve_places (hresolve : TaskOffsets.resolve (some data) = some (o, line)) {a b : Nat}
    (h : Places data a b) : o.realParent.toNat = a ∧ o.tgid.toNat = b := by
  obtain ⟨ds, ⟨table, hparse, hholds⟩, ha, hb⟩ := h
  have hends : taskOffsetsOf data ≠ .error .overflow := by
    intro hoverflow
    rw [resolve_of_overflow hoverflow] at hresolve
    cases hresolve
  rw [taskOffsetsOf_of_parse hparse, TypeTable.taskOffsets] at hends
  by_cases hfits : 8 * a < 0x100000000
  · have hparent := TypeTable.memberOffset_of_bytes hholds ha hfits
    by_cases hfits' : 8 * b < 0x100000000
    · have htgid := TypeTable.memberOffset_of_bytes hholds hb hfits'
      have hoffsets : taskOffsetsOf data = .ok ⟨UInt32.ofNat a, UInt32.ofNat b⟩ := by
        rw [taskOffsetsOf_of_parse hparse, TypeTable.taskOffsets, hparent, htgid]
        rfl
      obtain ⟨line', hline⟩ := resolve_of_ok hoffsets
      cases hresolve.symm.trans hline
      exact ⟨TypeTable.toNat_ofNat_of_lt (by omega), TypeTable.toNat_ofNat_of_lt (by omega)⟩
    · rw [hparent, TypeTable.memberOffset_of_long hholds hb (Nat.le_of_not_lt hfits')] at hends
      exact absurd rfl hends
  · rw [TypeTable.memberOffset_of_long hholds ha (Nat.le_of_not_lt hfits)] at hends
    exact absurd rfl hends

/-- Without one of the fields there are no offsets. -/
theorem taskOffsetsOf_ne_ok (hparse : TypeTable.parse data = .ok table) {field : String}
    {e : TypeTable.Error} (hfield : field = "real_parent" ∨ field = "tgid")
    (herror : table.memberOffset "task_struct" field = .error (.reported e)) :
    taskOffsetsOf data ≠ .ok o := by
  intro h
  rw [taskOffsetsOf_of_parse hparse] at h
  obtain ⟨a, hparent, hrest⟩ := exists_of_bind_eq_ok h
  obtain ⟨b, htgid, -⟩ := exists_of_bind_eq_ok hrest
  rcases hfield with rfl | rfl
  · rw [herror] at hparent
    cases hparent
  · rw [herror] at htgid
    cases htgid

/-- Without the table or one of the fields, the offsets stay unresolved. -/
theorem resolve_noOffsets {types : Option Bytes}
    (hresolve : TaskOffsets.resolve types = some (o, line)) (h : NoOffsets types) :
    o = .unresolved := by
  have hfails {data : Bytes} (hresolve : TaskOffsets.resolve (some data) = some (o, line))
      (hnone : ∀ o, taskOffsetsOf data ≠ .ok o) : o = .unresolved := by
    rcases hresult : taskOffsetsOf data with (e | _) | o'
    · obtain ⟨line', hline⟩ := resolve_of_reported hresult
      cases hresolve.symm.trans hline
      rfl
    · rw [resolve_of_overflow hresult] at hresolve
      cases hresolve
    · exact absurd hresult (hnone o')
  cases h with
  | absent =>
    cases hresolve
    rfl
  | unread hparse =>
    refine hfails hresolve fun o => ?_
    rw [taskOffsetsOf, hparse]
    intro h
    cases h
  | lacking hencodes hfield hbits =>
    obtain ⟨table, hparse, hholds⟩ := hencodes
    have herror := TypeTable.memberOffset_eq hholds "task_struct" _ |>.trans (by rw [hbits])
    exact hfails hresolve fun o => taskOffsetsOf_ne_ok hparse hfield herror
  | refused hparse hfield herror =>
    exact hfails hresolve fun o => taskOffsetsOf_ne_ok hparse hfield herror

end

/-! ## From the table to the record -/

namespace Probe

variable {s : State} (hroom : s.queue.length < s.capacity) (slot : Record) (f : Firing)
include hroom

/-- A firing after offsets are set queues the record that they determine. -/
theorem fire_after_offsets (offsets : TaskOffsets) :
    (after slot s [.setOffsets offsets, .fire f]).queue = s.queue ++ [(record offsets slot f).1] ∧
      run slot s [.setOffsets offsets, .fire f] =
        [.done, .fired (s.queue.length + 1) ⟨(record offsets slot f).2, [], 0⟩] := by
  have hfire : fire slot { s with offsets } f =
      ({ s with offsets, queue := s.queue ++ [(record offsets slot f).1] },
        ⟨(record offsets slot f).2, [], 0⟩) := fire_room (s := { s with offsets }) hroom slot f
  have hafter : after slot s [.setOffsets offsets, .fire f] = (fire slot { s with offsets } f).1 := rfl
  have hrun : run slot s [.setOffsets offsets, .fire f] =
      [.done, .fired (fire slot { s with offsets } f).1.queue.length
        (fire slot { s with offsets } f).2] := rfl
  rw [hafter, hrun, hfire]
  refine ⟨rfl, ?_⟩
  rw [List.length_append]
  rfl

/-- **The parent's process id is right on every kernel layout** at which the loader goes on, which it
does where the table's offsets fit a word. A firing after its offsets were set publishes a record. If
the table places the two fields at bytes `a` and `b`, the record carries the process id of the parent
that is found there, and 0 if there is none. If the table does not give both fields, nothing is set, no
kernel memory is read and the record carries 0. The number is never negative as a signed one. -/
theorem ppid_of_layout (types : Option Bytes) :
    (OffsetsFit types → ∃ o line, TaskOffsets.resolve types = some (o, line)) ∧
    ∀ o line, TaskOffsets.resolve types = some (o, line) →
      ∃ r trace, (after slot s [.setOffsets o, .fire f]).queue = s.queue ++ [r] ∧
        run slot s [.setOffsets o, .fire f] = [.done, .fired (s.queue.length + 1) trace] ∧
        r.ppid.toNat < 0x80000000 ∧
        (∀ data a b, types = some data → Places data a b → a ≠ 0 → b ≠ 0 →
          (∀ t, IsParent f.kernel f.task a b t → (r.ppid.toNat : Int) = t.toInt) ∧
            ((∀ t, ¬ IsParent f.kernel f.task a b t) → r.ppid = 0)) ∧
        (NoOffsets types → o = .unresolved ∧ r.ppid = 0 ∧
          trace.accesses.filter Access.isKernel = []) := by
  refine ⟨exists_resolve, fun o line hresolve => ?_⟩
  obtain ⟨hqueue, hrun⟩ := fire_after_offsets hroom slot f o
  refine ⟨_, _, hqueue, hrun, ?_, ?_, ?_⟩
  · rw [ppid_record]
    exact parentId_lt
  · rintro data a b rfl hplaces ha hb
    obtain ⟨rfl, rfl⟩ := resolve_places hresolve hplaces
    have hresolved := TaskOffsets.isResolved_of_ne_zero ha hb
    rw [ppid_record]
    exact ⟨fun t => toNat_parentId hresolved, parentId_eq_zero⟩
  · intro hnone
    obtain rfl := resolve_noOffsets hresolve hnone
    have hunresolved : parentId f.kernel f.task .unresolved = (0, []) := parentId_unresolved rfl
    rw [kernelReads_record, ppid_record, hunresolved]
    exact ⟨rfl, rfl, rfl⟩

omit hroom

/-- A task whose parent pointer lies `a` bytes into it, and whose parent's process id lies `b` bytes into
the parent. -/
def firingOver (a b : UInt64) (tgid : Int32) : Firing where
  call := .execve
  context := []
  task := 0xFFFF888010000000
  pidTgid := 7
  uidGid := 0
  comm := none
  user := .ofSpace ⟨fun _ => none, fun _ => none⟩
  kernel.pointer address :=
    if address = 0xFFFF888010000000 + a then some 0xFFFF888020000000 else none
  kernel.int address := if address = 0xFFFF888020000000 + b then some tgid else none

theorem places_taskDecls : Places (TypeTable.encode TypeTable.taskDecls) 0x988 0x998 :=
  ⟨TypeTable.taskDecls, TypeTable.encodes_encode TypeTable.taskDecls_fits, by decide +kernel,
    by decide +kernel⟩

theorem ppid_of_layout_task :
    ([] : List Record).length < 1 ∧ OffsetsFit (some (TypeTable.encode TypeTable.taskDecls)) ∧
      Places (TypeTable.encode TypeTable.taskDecls) 0x988 0x998 ∧
      ∃ o line r, TaskOffsets.resolve (some (TypeTable.encode TypeTable.taskDecls)) =
          some (o, line) ∧
        (after .zero (.empty 1) [.setOffsets o, .fire (firingOver 0x988 0x998 4242)]).queue = [r] ∧
        (r.ppid.toNat : Int) = 4242 := by
  have hroom : (State.empty 1).queue.length < (State.empty 1).capacity := by decide
  have hfit := offsetsFit_of_places places_taskDecls (by decide) (by decide)
  obtain ⟨hgoes, hright⟩ := ppid_of_layout hroom .zero (firingOver 0x988 0x998 4242)
    (some (TypeTable.encode TypeTable.taskDecls))
  obtain ⟨o, line, hresolve⟩ := hgoes hfit
  obtain ⟨r, -, hqueue, -, -, hlayout, -⟩ := hright o line hresolve
  have hparent : IsParent (firingOver 0x988 0x998 4242).kernel (firingOver 0x988 0x998 4242).task
      0x988 0x998 4242 := by
    refine ⟨by decide, 0xFFFF888020000000, by decide, by decide, by decide, by decide⟩
  exact ⟨hroom, hfit, places_taskDecls, o, line, r, hresolve, hqueue,
    (hlayout _ _ _ rfl places_taskDecls (by decide) (by decide)).1 4242 hparent⟩

/-- Where the offsets do not fit, a table that places both fields ends the program: the loader has
nothing to set, so there is no record. -/
theorem no_offsets_of_overflow :
    Places (TypeTable.encode TypeTable.farDecls) 0x20000007 8 ∧
      TaskOffsets.resolve (some (TypeTable.encode TypeTable.farDecls)) = none := by
  have hparse := TypeTable.parse_encode TypeTable.farDecls_fits
  constructor
  · exact ⟨TypeTable.farDecls, TypeTable.encodes_encode TypeTable.farDecls_fits, by decide +kernel,
      by decide +kernel⟩
  · refine resolve_of_overflow ?_
    rw [taskOffsetsOf_of_parse hparse, TypeTable.taskOffsets, TypeTable.memberOffset_farDecls]
    rfl

end Probe

end ExecWatch
