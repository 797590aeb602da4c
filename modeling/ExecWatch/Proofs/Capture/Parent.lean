import ExecWatch.Capture.Probe

/-!
# The parent of a task

`IsParent mem task a b t`: the kernel memory `mem` holds a parent of `task` whose process id is `t`,
when the parent pointer lies `a` bytes into a task and the process id `b` bytes into it; addresses
wrap around. Main statements:

* `toNat_parentId`, `parentId_eq_zero`: the lookup answers with that number, and with 0 when there is
  none;
* `parentId_lt`: the answer is never negative as a signed number;
* `kernelReads_record`: a firing looks nowhere else in kernel memory than that lookup does.
-/

namespace ExecWatch

/-- The task is there, the word at its byte `a` is a pointer, and the number at byte `b` of what it
points to is `t`, a positive one. -/
def IsParent (mem : KernelMemory) (task : UInt64) (a b : Nat) (t : Int32) : Prop :=
  task ≠ 0 ∧ ∃ parent, mem.pointer (UInt64.ofNat (task.toNat + a)) = some parent ∧ parent ≠ 0 ∧
    mem.int (UInt64.ofNat (parent.toNat + b)) = some t ∧ 0 < t

/-! ## The lookup -/

/-- A positive number is the same read without a sign. -/
theorem toNat_toUInt32_of_pos {t : Int32} (h : 0 < t) : (t.toUInt32.toNat : Int) = t.toInt := by
  have hpos : 0 < t.toBitVec.toInt := Int32.lt_iff_toInt_lt.1 h
  have hlt := t.toUInt32.toNat_lt
  have hint : t.toInt = t.toBitVec.toInt := rfl
  have hnat : t.toUInt32.toNat = t.toBitVec.toNat := rfl
  rw [hint, hnat]
  rw [BitVec.toInt_eq_toNat_cond] at hpos ⊢
  split
  · rfl
  · rename_i hlarge
    rw [if_neg hlarge] at hpos
    omega

theorem add_toUInt64 (address : UInt64) (offset : UInt32) :
    address + offset.toUInt64 = UInt64.ofNat (address.toNat + offset.toNat) := by
  rw [← UInt64.toNat_inj]
  simp

theorem TaskOffsets.isResolved_of_ne_zero {o : TaskOffsets} (ha : o.realParent.toNat ≠ 0)
    (hb : o.tgid.toNat ≠ 0) : o.isResolved = true := by
  have hrealParent : o.realParent ≠ 0 := fun h => ha (congrArg UInt32.toNat h)
  have htgid : o.tgid ≠ 0 := fun h => hb (congrArg UInt32.toNat h)
  simp [isResolved, hrealParent, htgid]

section
variable {mem : KernelMemory} {task : UInt64} {offsets : TaskOffsets}

theorem parentId_unresolved (h : offsets.isResolved = false) : parentId mem task offsets = (0, []) := by
  rw [parentId, h, Bool.not_false, Bool.or_true, if_pos rfl]

/-- The lookup answers with the parent's process id. -/
theorem parentId_of_isParent {t : Int32} (hresolved : offsets.isResolved = true)
    (h : IsParent mem task offsets.realParent.toNat offsets.tgid.toNat t) :
    (parentId mem task offsets).1 = t.toUInt32 := by
  obtain ⟨htask, parent, hpointer, hparent, hint, hpos⟩ := h
  unfold parentId
  simp only [add_toUInt64, hresolved, hpointer, hparent, hint, hpos, htask, decide_false,
    Bool.not_true, Bool.or_self, Bool.false_eq_true, ↓reduceIte]

/-- The lookup answers with 0 where there is no parent. -/
theorem parentId_eq_zero
    (h : ∀ t, ¬ IsParent mem task offsets.realParent.toNat offsets.tgid.toNat t) :
    (parentId mem task offsets).1 = 0 := by
  unfold parentId
  split
  · rfl
  · rename_i hread
    have htask : task ≠ 0 := by
      rintro rfl
      exact hread rfl
    simp only [add_toUInt64]
    cases hpointer : mem.pointer (UInt64.ofNat (task.toNat + offsets.realParent.toNat)) with
    | none => rfl
    | some parent =>
      by_cases hparent : parent = 0
      · simp only [hparent, ↓reduceIte]
      · simp only [hparent, ↓reduceIte]
        cases hint : mem.int (UInt64.ofNat (parent.toNat + offsets.tgid.toNat)) with
        | none => rfl
        | some t =>
          have hpos : ¬ 0 < t := fun hpos => h t ⟨htask, parent, hpointer, hparent, hint, hpos⟩
          exact if_neg hpos

/-- The parent's process id as a number. -/
theorem toNat_parentId {t : Int32} (hresolved : offsets.isResolved = true)
    (h : IsParent mem task offsets.realParent.toNat offsets.tgid.toNat t) :
    ((parentId mem task offsets).1.toNat : Int) = t.toInt := by
  rw [parentId_of_isParent hresolved h]
  obtain ⟨-, -, -, -, -, hpos⟩ := h
  exact toNat_toUInt32_of_pos hpos

theorem parentId_lt : (parentId mem task offsets).1.toNat < 0x80000000 := by
  cases hresolved : offsets.isResolved with
  | false =>
    rw [parentId_unresolved hresolved]
    decide
  | true =>
    by_cases hparent : ∃ t, IsParent mem task offsets.realParent.toNat offsets.tgid.toNat t
    · obtain ⟨t, ht⟩ := hparent
      have hanswer := toNat_parentId hresolved ht
      have hlt := t.toInt_lt
      omega
    · rw [parentId_eq_zero fun t ht => hparent ⟨t, ht⟩]
      decide

end

/-! ## Kernel reads -/

/-- The access is one to kernel memory. -/
def Access.isKernel : Access → Bool
  | .kernelPointer _ | .kernelInt _ => true
  | .userPointer _ | .userString .. => false

theorem kernelReads_parentId (mem : KernelMemory) (task : UInt64) (offsets : TaskOffsets) :
    (parentId mem task offsets).2.filter Access.isKernel = (parentId mem task offsets).2 := by
  unfold parentId
  split
  · rfl
  · simp only
    split
    · rfl
    · split
      · rfl
      · split <;> rfl

namespace Argv

theorem seen_separate (i : Nat) (p : Progress) : (separate i p).seen = p.seen := by
  unfold separate
  split <;> rfl

theorem seen_append (mem : UserMemory) (address : UInt64) (p : Progress) :
    (append mem address p).1.seen = .userString address (p.buffer.drop p.used).length :: p.seen := by
  unfold append
  simp only
  split <;> rfl

/-- Visiting slots reads user memory only. -/
theorem kernelReads_visit (mem : UserMemory) (vector : UInt64) (slots i : Nat) (p : Progress) :
    (visit mem vector slots i p).seen.filter Access.isKernel = p.seen.filter Access.isKernel := by
  induction slots generalizing i p with
  | zero => rfl
  | succ slots ih =>
    have hpointer (address : UInt64) : (Access.userPointer address :: p.seen).filter Access.isKernel =
        p.seen.filter Access.isKernel := rfl
    unfold visit
    split
    · rfl
    · simp only
      split
      · rfl
      · rename_i string _
        split
        · rfl
        · split
          · rw [seen_separate, hpointer]
          · have happend := seen_append mem string
              (separate i { p with seen := .userPointer (slotAddress vector i) :: p.seen })
            rw [seen_separate] at happend
            split
            · rename_i heq
              rw [heq] at happend
              rw [happend]
              rfl
            · rename_i heq
              rw [heq] at happend
              rw [ih, happend]
              rfl

end Argv

namespace Record

variable (task : Task) (mem : UserMemory) (slot : Record) (path vector : UInt64) (seen : List Access)

/-- Filling a record reads user memory only. -/
theorem kernelReads_fill :
    (fill task mem slot path vector seen).2.filter Access.isKernel = seen.filter Access.isKernel := by
  have hpath (field : Field 256) :
      (readPath mem path field seen).2.filter Access.isKernel = seen.filter Access.isKernel := by
    unfold readPath
    simp only
    split <;> rfl
  have hargv (field : Field 256) (seen : List Access) :
      (readArgv mem vector field seen).2.filter Access.isKernel = seen.filter Access.isKernel := by
    unfold readArgv Argv.join
    simp only
    split
    · rfl
    · exact Argv.kernelReads_visit ..
  exact (hargv ..).trans (hpath ..)

end Record

namespace Probe

variable (offsets : TaskOffsets) (slot : Record) (f : Firing)

theorem ppid_record : (record offsets slot f).1.ppid = (parentId f.kernel f.task offsets).1 := rfl

/-- **A record costs the kernel reads of the parent's lookup**, and no others. -/
theorem kernelReads_record :
    (record offsets slot f).2.filter Access.isKernel = (parentId f.kernel f.task offsets).2 := by
  rw [record]
  simp only [List.filter_reverse, Record.kernelReads_fill, kernelReads_parentId, List.reverse_reverse]

end Probe

end ExecWatch
