import ExecWatch.Proofs.Capture.Arguments
import ExecWatch.Proofs.Capture.Join
import ExecWatch.Proofs.Capture.Parent

/-!
# What a firing reads, and in which order

The accesses of a firing, said without a buffer's contents and without the code that makes them:

* `ParentReads`: the reads of kernel memory, none, one or two (`parentReads_parentId`);
* `Argv.Reads mem vector i rest seen args`: the reads `args` of an argument vector from slot `i` on,
  when `rest` is what the buffer has left and `seen` are the accesses before, latest first. It fixes
  them one by one, for a memory that answers as it likes (`Argv.reads_join`);
* `Argv.SlotBySlot`: what that means for the reads as a whole: which slots, which strings, how large
  the windows are, and where they end (`Argv.Reads.slotBySlot`);
* `accesses_bounded`: a firing that finds room reads the parent, then the path, then the vector.
-/

namespace ExecWatch

/-! ## Kernel memory -/

/-- The kernel reads of a firing: none when there is no task or an offset is missing, else the parent
pointer, and behind one that is there the process id. -/
inductive ParentReads (mem : KernelMemory) (task : UInt64) (offsets : TaskOffsets) :
    List Access → Prop
  | none : task = 0 ∨ offsets.realParent = 0 ∨ offsets.tgid = 0 → ParentReads mem task offsets []
  | pointer : task ≠ 0 → offsets.realParent ≠ 0 → offsets.tgid ≠ 0 →
      (mem.pointer (task + offsets.realParent.toUInt64)).filter (· ≠ 0) = .none →
      ParentReads mem task offsets [.kernelPointer (task + offsets.realParent.toUInt64)]
  | both {parent : UInt64} : task ≠ 0 → offsets.realParent ≠ 0 → offsets.tgid ≠ 0 →
      (mem.pointer (task + offsets.realParent.toUInt64)).filter (· ≠ 0) = some parent →
      ParentReads mem task offsets
        [.kernelPointer (task + offsets.realParent.toUInt64),
          .kernelInt (parent + offsets.tgid.toUInt64)]

theorem parentReads_parentId (mem : KernelMemory) (task : UInt64) (offsets : TaskOffsets) :
    ParentReads mem task offsets (parentId mem task offsets).2 := by
  unfold parentId
  split
  · rename_i hunresolved
    exact .none (by simpa [TaskOffsets.isResolved] using hunresolved)
  · rename_i hresolved
    obtain ⟨htask, hrealParent, htgid⟩ :
        task ≠ 0 ∧ offsets.realParent ≠ 0 ∧ offsets.tgid ≠ 0 := by
      simpa [TaskOffsets.isResolved] using hresolved
    simp only
    cases hpointer : mem.pointer (task + offsets.realParent.toUInt64) with
    | none => exact .pointer htask hrealParent htgid (by rw [hpointer]; rfl)
    | some parent =>
      by_cases hparent : parent = 0
      · simp only [hparent, ↓reduceIte]
        exact .pointer htask hrealParent htgid (by rw [hpointer, hparent]; rfl)
      · have hboth : ParentReads mem task offsets
            [.kernelPointer (task + offsets.realParent.toUInt64),
              .kernelInt (parent + offsets.tgid.toUInt64)] :=
          .both htask hrealParent htgid (by simp [hpointer, hparent])
        simp only [hparent, ↓reduceIte]
        split <;> exact hboth

theorem ParentReads.length_le {mem : KernelMemory} {task : UInt64} {offsets : TaskOffsets}
    {kernel : List Access} (h : ParentReads mem task offsets kernel) : kernel.length ≤ 2 := by
  cases h <;> simp

/-! ## The argument vector -/

/-- The slot that an access reads. -/
def Access.slot? : Access → Option UInt64
  | .userPointer address => some address
  | _ => none

/-- The size of the window that an access hands out. -/
def Access.window? : Access → Option Nat
  | .userString _ window => some window
  | _ => none

namespace Argv

theorem slotAddress_zero (vector : UInt64) : slotAddress vector 0 = vector := by
  simp [slotAddress]

/-- The reads of a vector from slot `i` on. A slot is visited while there are slots and more than one
byte is left. It may be null, or have no room behind its separator, or its string may fault; in all
other cases the next slot follows, with what the string leaves of its window. -/
inductive Reads (mem : UserMemory) (vector : UInt64) :
    (i : Nat) → (rest : Bytes) → (seen args : List Access) → Prop
  | done {i : Nat} {rest : Bytes} {seen : List Access} :
      maxSlots ≤ i ∨ rest.length ≤ 1 → Reads mem vector i rest seen []
  | null {i : Nat} {rest : Bytes} {seen : List Access} : i < maxSlots → 1 < rest.length →
      (mem.pointer seen (slotAddress vector i)).filter (· ≠ 0) = none →
      Reads mem vector i rest seen [.userPointer (slotAddress vector i)]
  | full {i : Nat} {rest : Bytes} {seen : List Access} {address : UInt64} :
      i < maxSlots → 1 < rest.length →
      (mem.pointer seen (slotAddress vector i)).filter (· ≠ 0) = some address →
      (rest.drop (separator i).length).length ≤ 1 →
      Reads mem vector i rest seen [.userPointer (slotAddress vector i)]
  | fault {i : Nat} {rest window : Bytes} {seen : List Access} {address : UInt64} :
      i < maxSlots → 1 < rest.length →
      (mem.pointer seen (slotAddress vector i)).filter (· ≠ 0) = some address →
      rest.drop (separator i).length = window → 1 < window.length →
      (mem.string (.userPointer (slotAddress vector i) :: seen) address window).copied = none →
      Reads mem vector i rest seen
        [.userPointer (slotAddress vector i), .userString address window.length]
  | next {i : Nat} {rest window : Bytes} {seen later : List Access} {address : UInt64}
      {read : StringRead} {n : UInt64} : i < maxSlots → 1 < rest.length →
      (mem.pointer seen (slotAddress vector i)).filter (· ≠ 0) = some address →
      rest.drop (separator i).length = window → 1 < window.length →
      mem.string (.userPointer (slotAddress vector i) :: seen) address window = read →
      read.copied = some n →
      Reads mem vector (i + 1) (read.window.drop (min n.toNat (window.length - 1)))
        (.userString address window.length :: .userPointer (slotAddress vector i) :: seen) later →
      Reads mem vector i rest seen
        (.userPointer (slotAddress vector i) :: .userString address window.length :: later)

/-! ### The join reads that way -/

section
variable (i : Nat) (p : Progress)

theorem length_separator : (separator i).length = if i = 0 then 0 else 1 := by
  unfold separator
  split <;> rfl

theorem used_separate : (separate i p).used = p.used + (separator i).length := by
  rw [length_separator]
  unfold separate
  split <;> rfl

/-- The separator takes the first byte of what is left. -/
theorem drop_separate : (separate i p).buffer.drop (separate i p).used =
    (p.buffer.drop p.used).drop (separator i).length := by
  rw [used_separate, List.drop_drop, length_separator]
  unfold separate
  split
  · rfl
  · exact List.drop_set_of_lt (Nat.lt_succ_self _)

end

variable {mem : UserMemory} {vector : UInt64}

theorem reads_visit {slots i : Nat} (hslots : i + slots = maxSlots) {p : Progress}
    (hused : p.used < p.buffer.length) :
    ∃ args, Reads mem vector i (p.buffer.drop p.used) p.seen args ∧
      (visit mem vector slots i p).seen = args.reverse ++ p.seen := by
  induction slots generalizing i p with
  | zero => exact ⟨[], .done (.inl (by omega)), rfl⟩
  | succ slots ih =>
    have hi : i < maxSlots := by omega
    by_cases hfull : p.buffer.length - 1 ≤ p.used
    · refine ⟨[], .done (.inr ?_), ?_⟩
      · rw [List.length_drop]
        omega
      · rw [visit_full hfull]
        rfl
    have hroom : p.used < p.buffer.length - 1 := by omega
    have hrest : 1 < (p.buffer.drop p.used).length := by
      rw [List.length_drop]
      omega
    cases hslot : (mem.pointer p.seen (slotAddress vector i)).filter (· ≠ 0) with
    | none =>
      refine ⟨_, .null hi hrest hslot, ?_⟩
      rw [visit_stop hroom hslot]
      rfl
    | some address =>
      obtain ⟨q, hq⟩ : ∃ q, separate i
          { p with seen := .userPointer (slotAddress vector i) :: p.seen } = q := ⟨_, rfl⟩
      have hseen : q.seen = .userPointer (slotAddress vector i) :: p.seen := by
        rw [← hq, seen_separate]
      have hwindow : (p.buffer.drop p.used).drop (separator i).length = q.buffer.drop q.used := by
        rw [← hq, drop_separate]
      have hlength : (q.buffer.drop q.used).length = q.buffer.length - q.used := List.length_drop
      rw [visit_slot hroom hslot hq]
      by_cases hlast : q.buffer.length - q.used - 1 = 0
      · refine ⟨_, .full hi hrest hslot (by rw [hwindow, hlength]; omega), ?_⟩
        rw [if_pos hlast, hseen]
        rfl
      have hlarge : 1 < (q.buffer.drop q.used).length := by omega
      rw [if_neg hlast]
      obtain ⟨⟨window, copied⟩, hread⟩ :
          ∃ read, mem.string q.seen address (q.buffer.drop q.used) = read := ⟨_, rfl⟩
      cases copied with
      | none =>
        refine ⟨_, .fault hi hrest hslot hwindow hlarge (by rw [← hseen, hread]), ?_⟩
        rw [append_of_fault hread, hseen]
        rfl
      | some n =>
        have hsize : window.length = (q.buffer.drop q.used).length := by
          have hkept := mem.length_string q.seen address (q.buffer.drop q.used)
          rwa [hread] at hkept
        rw [append_of_copied hread, if_pos rfl]
        have hfront : (q.buffer.take q.used).length = q.used := by
          rw [List.length_take]
          omega
        obtain ⟨later, hlater, hrun⟩ := ih (i := i + 1) (by omega)
          (p := ⟨q.buffer.take q.used ++ window, q.used + min n.toNat (q.buffer.length - q.used - 1),
            .userString address (q.buffer.drop q.used).length :: q.seen⟩)
          (by simp only [List.length_append]; omega)
        rw [hrun]
        have hleft : (q.buffer.take q.used ++ window).drop
            (q.used + min n.toNat (q.buffer.length - q.used - 1)) =
              window.drop (min n.toNat ((q.buffer.drop q.used).length - 1)) := by
          rw [List.drop_append, hfront, List.drop_eq_nil_of_le (by omega), List.nil_append, hlength]
          congr 1
          omega
        rw [hleft, hseen] at hlater
        rw [hseen] at hread
        refine ⟨_, .next hi hrest hslot hwindow hlarge hread rfl hlater, ?_⟩
        rw [hseen]
        simp

theorem reads_join (mem : UserMemory) {vector : UInt64} (hvector : vector ≠ 0) {buffer : Bytes}
    (hbuffer : buffer ≠ []) (seen : List Access) :
    ∃ args, Reads mem vector 0 buffer seen args ∧
      (join mem vector buffer seen).seen = args.reverse ++ seen := by
  unfold join
  simp only [hvector, ↓reduceIte]
  exact reads_visit (p := ⟨buffer, 0, seen⟩) (Nat.zero_add _) (List.length_pos_iff.2 hbuffer)

/-! ### The reads as a whole -/

/-- The reads `args` of a vector slot by slot, behind the accesses `earlier`, for a buffer of `size`
bytes. -/
structure SlotBySlot (mem : UserMemory) (vector : UInt64) (size : Nat)
    (earlier args : List Access) : Prop where
  /-- No kernel memory is read. -/
  user : ∀ access ∈ args, access.isKernel = false
  /-- The slots are read in order from the first on, and at most 16 of them. -/
  slots : ∃ n ≤ 16, args.filterMap Access.slot? =
    (List.range n).map fun i => vector + 8 * UInt64.ofNat i
  /-- A string is read directly after its slot, where the slot points, and that is not null. -/
  strings : ∀ before address window after,
    args = before ++ .userString address window :: after →
      ∃ front slot, before = front ++ [.userPointer slot] ∧ address ≠ 0 ∧
        mem.pointer (earlier ++ front).reverse slot = some address
  /-- A window has two bytes or more, and each is smaller than those before it. -/
  windows : (∀ w ∈ args.filterMap Access.window?, 2 ≤ w ∧ w ≤ size) ∧
    (args.filterMap Access.window?).Pairwise (· > ·)
  /-- A slot that is null or cannot be read is the last access. -/
  null : ∀ before slot after, args = before ++ .userPointer slot :: after →
    (mem.pointer (earlier ++ before).reverse slot).filter (· ≠ 0) = none → after = []
  /-- A string that something follows could be read. -/
  fault : ∀ before address window after,
    args = before ++ .userString address window :: after → after ≠ [] →
      ∃ bytes n, bytes.length = window ∧
        (mem.string (earlier ++ before).reverse address bytes).copied = some n

namespace Reads

variable {i : Nat} {rest : Bytes} {seen args : List Access}

theorem isKernel_eq (h : Reads mem vector i rest seen args) :
    ∀ access ∈ args, access.isKernel = false := by
  induction h with
  | done | null | full | fault => simp [Access.isKernel]
  | next _ _ _ _ _ _ _ _ ih => simpa [Access.isKernel] using ih

/-- From slot `i` on, the slots follow each other. -/
theorem slots_eq (h : Reads mem vector i rest seen args) :
    ∃ n ≤ maxSlots - i, args.filterMap Access.slot? = (List.range' i n).map (slotAddress vector) := by
  induction h with
  | done => exact ⟨0, Nat.zero_le _, rfl⟩
  | null hi | full hi | fault hi => exact ⟨1, by omega, rfl⟩
  | next hi _ _ _ _ _ _ _ ih =>
    obtain ⟨n, hn, hslots⟩ := ih
    refine ⟨n + 1, by omega, ?_⟩
    simp only [List.filterMap_cons, Access.slot?, hslots, List.range'_succ, List.map_cons]

/-- A window is what a separator leaves of the buffer's rest, or smaller. -/
theorem window_le (h : Reads mem vector i rest seen args) :
    ∀ w ∈ args.filterMap Access.window?, 2 ≤ w ∧ w + (separator i).length ≤ rest.length := by
  induction h with
  | done | null | full => simp [Access.window?]
  | fault hi _ _ hwindow hlarge =>
    have hlength := congrArg List.length hwindow
    rw [List.length_drop] at hlength
    simp only [List.filterMap_cons, Access.window?, List.filterMap_nil, List.mem_singleton]
    rintro w rfl
    omega
  | @next i rest window seen _ address read n hi _ _ hwindow hlarge hread _ _ ih =>
    have hlength := congrArg List.length hwindow
    have hsize : read.window.length = window.length := by
      rw [← hread]
      exact mem.length_string ..
    rw [List.length_drop] at hlength
    simp only [List.filterMap_cons, Access.window?, List.mem_cons]
    rintro w (rfl | hw)
    · omega
    · obtain ⟨hpos, hle⟩ := ih w hw
      rw [List.length_drop, hsize] at hle
      omega

theorem windows_pairwise (h : Reads mem vector i rest seen args) :
    (args.filterMap Access.window?).Pairwise (· > ·) := by
  induction h with
  | done => exact .nil
  | null | full => exact .nil
  | fault => exact List.pairwise_singleton (· > ·) _
  | @next i rest window seen later address read n hi _ _ hwindow hlarge hread _ hlater ih =>
    have hsize : read.window.length = window.length := by
      rw [← hread]
      exact mem.length_string ..
    simp only [List.filterMap_cons, Access.window?]
    refine List.pairwise_cons.2 ⟨fun w hw => ?_, ih⟩
    -- behind slot 0 every slot has a separator
    obtain ⟨-, hle⟩ := hlater.window_le w hw
    rw [length_separator, if_neg (Nat.succ_ne_zero i), List.length_drop, hsize] at hle
    omega

theorem head_eq {access : Access} {after : List Access}
    (h : Reads mem vector i rest seen (access :: after)) :
    access = .userPointer (slotAddress vector i) := by
  cases h <;> rfl

theorem head?_eq (h : Reads mem vector i rest seen args) (hi : i < maxSlots)
    (hrest : 1 < rest.length) : args.head? = some (.userPointer (slotAddress vector i)) := by
  cases h with
  | done hend => omega
  | null | full | fault | next => rfl

/-- An access is the first of a slot's reads, or the second behind the slot itself. -/
theorem exists_slot : ∀ (before : List Access) {i : Nat} {rest : Bytes} {seen args after : List Access}
    {access : Access}, Reads mem vector i rest seen args → args = before ++ access :: after →
    ∃ j rest', Reads mem vector j rest' (before.reverse ++ seen) (access :: after) ∨
      ∃ front slot, before = front ++ [.userPointer slot] ∧
        Reads mem vector j rest' (front.reverse ++ seen) (.userPointer slot :: access :: after)
  | [], _, _, _, _, _, _, h, hargs => ⟨_, _, .inl (hargs ▸ h)⟩
  | [_], _, _, _, _, _, _, h, hargs => by
    subst hargs
    obtain rfl := h.head_eq
    exact ⟨_, _, .inr ⟨[], _, rfl, h⟩⟩
  | _ :: _ :: before, _, _, _, _, _, _, h, hargs => by
    cases h with
    | done | null | full | fault => simp at hargs
    | next _ _ _ _ _ _ _ hlater =>
      simp only [List.cons_append, List.cons.injEq] at hargs
      obtain ⟨rfl, rfl, hargs⟩ := hargs
      obtain ⟨j, rest', hj | ⟨front, slot, rfl, hj⟩⟩ := exists_slot before hlater hargs
      · exact ⟨j, rest', .inl (by simpa using hj)⟩
      · exact ⟨j, rest', .inr ⟨_ :: _ :: front, slot, rfl, by simpa using hj⟩⟩

theorem null_last (h : Reads mem vector i rest seen args) {before after : List Access}
    {slot : UInt64} (hargs : args = before ++ .userPointer slot :: after)
    (hnull : (mem.pointer (before.reverse ++ seen) slot).filter (· ≠ 0) = none) : after = [] := by
  obtain ⟨j, rest', hj | ⟨front, slot', -, hj⟩⟩ := exists_slot before h hargs
  · cases hj with
    | null | full => rfl
    | fault _ _ hslot | next _ _ hslot => cases hslot.symm.trans hnull
  · cases hj

theorem string_follows (h : Reads mem vector i rest seen args) {before after : List Access}
    {address : UInt64} {window : Nat}
    (hargs : args = before ++ .userString address window :: after) :
    ∃ front slot, before = front ++ [.userPointer slot] ∧ address ≠ 0 ∧
      mem.pointer (front.reverse ++ seen) slot = some address ∧
      (after ≠ [] → ∃ bytes n, bytes.length = window ∧
        (mem.string (before.reverse ++ seen) address bytes).copied = some n) := by
  obtain ⟨j, rest', hj | ⟨front, slot, rfl, hj⟩⟩ := exists_slot before h hargs
  · cases hj.head_eq
  · cases hj with
    | fault _ _ hslot _ _ _ =>
      obtain ⟨hpointer, hne⟩ := Option.filter_eq_some_iff.1 hslot
      exact ⟨front, _, rfl, by simpa using hne, hpointer, fun hafter => absurd rfl hafter⟩
    | @next _ _ bytes _ _ _ read n _ _ hslot _ _ hread hcopied _ =>
      obtain ⟨hpointer, hne⟩ := Option.filter_eq_some_iff.1 hslot
      refine ⟨front, _, rfl, by simpa using hne, hpointer, fun _ => ⟨bytes, n, rfl, ?_⟩⟩
      rw [List.reverse_append, List.reverse_singleton, List.singleton_append, List.cons_append,
        hread, hcopied]

theorem slotBySlot {earlier : List Access} (h : Reads mem vector 0 rest earlier.reverse args)
    {size : Nat} (hsize : rest.length ≤ size) : SlotBySlot mem vector size earlier args where
  user := h.isKernel_eq
  slots := by
    obtain ⟨n, hn, hslots⟩ := h.slots_eq
    exact ⟨n, hn, by rw [hslots, ← List.range_eq_range']; rfl⟩
  strings before address window after hargs := by
    obtain ⟨front, slot, hbefore, hne, hpointer, -⟩ := h.string_follows hargs
    exact ⟨front, slot, hbefore, hne, by rwa [List.reverse_append]⟩
  windows := ⟨fun w hw => ⟨(h.window_le w hw).1, Nat.le_trans (h.window_le w hw).2 hsize⟩,
    h.windows_pairwise⟩
  null before slot after hargs hnull := by
    rw [List.reverse_append] at hnull
    exact h.null_last hargs hnull
  fault before address window after hargs hafter := by
    obtain ⟨-, -, -, -, -, hcopied⟩ := h.string_follows hargs
    rw [List.reverse_append]
    exact hcopied hafter

theorem length_le (h : Reads mem vector i rest seen args) : args.length ≤ 2 * (maxSlots - i) := by
  induction h with
  | done => exact Nat.zero_le _
  | null hi | full hi | fault hi => simp only [List.length_cons, List.length_nil]; omega
  | next hi _ _ _ _ _ _ _ ih =>
    simp only [List.length_cons]
    omega

end Reads

end Argv

/-! ## A whole firing -/

/-- The read of the path: one string, unless the pointer is null. -/
def pathReads (path : UInt64) : List Access :=
  if path = 0 then [] else [.userString path 256]

theorem reverse_pathReads (path : UInt64) : (pathReads path).reverse = pathReads path := by
  unfold pathReads
  split <;> rfl

theorem length_pathReads_le (path : UInt64) : (pathReads path).length ≤ 1 := by
  unfold pathReads
  split <;> simp

namespace Record

theorem seen_readPath (mem : UserMemory) (path : UInt64) (field : Field 256) (seen : List Access) :
    (readPath mem path field seen).2 = pathReads path ++ seen := by
  unfold readPath pathReads
  simp only
  split <;> rfl

theorem reads_readArgv (mem : UserMemory) (vector : UInt64) (field : Field 256)
    (seen : List Access) :
    ∃ args, (readArgv mem vector field seen).2 = args.reverse ++ seen ∧
      if vector = 0 then args = []
      else Argv.Reads mem vector 0 (List.replicate 256 0) seen args := by
  have hzero : field.cleared.bytes = List.replicate 256 0 := by
    rw [Field.cleared_eq_zero]
    rfl
  simp only [readArgv, hzero]
  by_cases hvector : vector = 0
  · exact ⟨[], by rw [hvector]; rfl, by rw [if_pos hvector]⟩
  · have hne : List.replicate 256 (0 : UInt8) ≠ [] :=
      List.ne_nil_of_length_pos (by rw [List.length_replicate]; decide)
    obtain ⟨args, hreads, hseen⟩ := Argv.reads_join mem hvector hne seen
    exact ⟨args, hseen, by rwa [if_neg hvector]⟩

end Record

namespace Probe

/-- The accesses for a record: those of the parent, of the path and of the vector. -/
theorem accesses_record (offsets : TaskOffsets) (slot : Record) (f : Firing) :
    ∃ kernel args, (record offsets slot f).2 =
        kernel ++ pathReads (address f f.call.pathArg) ++ args ∧
      ParentReads f.kernel f.task offsets kernel ∧
      if address f f.call.argvArg = 0 then args = []
      else Argv.Reads f.user (address f f.call.argvArg) 0 (List.replicate 256 0)
        (kernel ++ pathReads (address f f.call.pathArg)).reverse args := by
  obtain ⟨args, hseen, hreads⟩ := Record.reads_readArgv f.user (address f f.call.argvArg) slot.argv
    (pathReads (address f f.call.pathArg) ++ (parentId f.kernel f.task offsets).2.reverse)
  have hrecord : (record offsets slot f).2 =
      (Record.readArgv f.user (address f f.call.argvArg) slot.argv
        (pathReads (address f f.call.pathArg) ++
          (parentId f.kernel f.task offsets).2.reverse)).2.reverse := by
    simp only [record, Record.fill, Record.seen_readPath, Context.argument_eq]
    rfl
  refine ⟨(parentId f.kernel f.task offsets).2, args, ?_, parentReads_parentId .., ?_⟩
  · rw [hrecord, hseen]
    simp only [List.reverse_append, List.reverse_reverse, reverse_pathReads]
  · rwa [List.reverse_append, reverse_pathReads]

/-- **The probe reads only what it must, in bounded work.** A firing that finds room reads the
parent, the path, and the vector slot by slot, in this order, and at most 35 times in all. A vector
that is there is read from its first slot on, whatever became of the path. -/
theorem accesses_bounded {s : State} (hroom : s.queue.length < s.capacity) (slot : Record)
    (f : Firing) :
    ∃ kernel args, (fire slot s f).2.accesses =
        kernel ++ pathReads (address f f.call.pathArg) ++ args ∧
      ParentReads f.kernel f.task s.offsets kernel ∧
      (if address f f.call.argvArg = 0 then args = []
        else args.head? = some (.userPointer (address f f.call.argvArg)) ∧
          Argv.Reads f.user (address f f.call.argvArg) 0 (List.replicate 256 0)
            (kernel ++ pathReads (address f f.call.pathArg)).reverse args) ∧
      Argv.SlotBySlot f.user (address f f.call.argvArg) 256
        (kernel ++ pathReads (address f f.call.pathArg)) args ∧
      (fire slot s f).2.accesses.length ≤ 35 := by
  rw [fire_room hroom]
  obtain ⟨kernel, args, haccesses, hkernel, hargs⟩ := accesses_record s.offsets slot f
  obtain ⟨hslots, hlength⟩ : Argv.SlotBySlot f.user (address f f.call.argvArg) 256
      (kernel ++ pathReads (address f f.call.pathArg)) args ∧ args.length ≤ 32 := by
    by_cases hvector : address f f.call.argvArg = 0
    · rw [if_pos hvector] at hargs
      have hnone : Argv.Reads f.user (address f f.call.argvArg) 0 []
          (kernel ++ pathReads (address f f.call.pathArg)).reverse args := by
        rw [hargs]
        exact .done (.inr (by decide))
      exact ⟨hnone.slotBySlot (Nat.zero_le _), hnone.length_le⟩
    · rw [if_neg hvector] at hargs
      exact ⟨hargs.slotBySlot (Nat.le_of_eq List.length_replicate), hargs.length_le⟩
  refine ⟨kernel, args, haccesses, hkernel, ?_, hslots, ?_⟩
  · split
    · rename_i hvector
      rwa [if_pos hvector] at hargs
    · rename_i hvector
      rw [if_neg hvector] at hargs
      have hfirst := hargs.head?_eq (by decide) (by rw [List.length_replicate]; decide)
      rw [Argv.slotAddress_zero] at hfirst
      exact ⟨hfirst, hargs⟩
  · have hpath := length_pathReads_le (address f f.call.pathArg)
    have hparent := hkernel.length_le
    simp only [haccesses, List.length_append]
    omega

/-- An `execve` with a parent, a path that faults and two arguments; behind the vector's end lies an
environment that could be read. The helper reports a byte too many. -/
def secretive : Firing where
  call := .execve
  context := List.replicate 16 0 ++ [0, 0x10, 0, 0, 0, 0, 0, 0] ++ [0, 0x20, 0, 0, 0, 0, 0, 0]
  task := 0xFFFF888010000000
  pidTgid := 7
  uidGid := 0
  comm := none
  user := .overReporting
    { word a := if a = 0x2000 ∨ a = 0x2008 ∨ a = 0x2018 then some 0x3000 else if a = 0x2010 then some 0 else none
      string a := if a = 0x3000 then some [0x6C, 0x73] else none } fun _ => 1
  kernel.pointer _ := some 0xFFFF888020000000
  kernel.int _ := some 1

theorem accesses_bounded_secretive :
    ([] : List Record).length < 1 ∧
      ∃ kernel args, [.kernelPointer 0xFFFF888010000988, .kernelInt 0xFFFF888020000998,
          .userString 0x1000 256, .userPointer 0x2000, .userString 0x3000 256, .userPointer 0x2008,
          .userString 0x3000 252, .userPointer 0x2010] = kernel ++ pathReads 0x1000 ++ args ∧
        ParentReads secretive.kernel 0xFFFF888010000000 ⟨0x988, 0x998⟩ kernel ∧
        Argv.SlotBySlot secretive.user 0x2000 256 (kernel ++ pathReads 0x1000) args := by
  have hroom : ([] : List Record).length < 1 := by decide
  obtain ⟨kernel, args, haccesses, hkernel, -, hslots, -⟩ :=
    accesses_bounded (s := ⟨1, [], ⟨0x988, 0x998⟩⟩) hroom .zero secretive
  have hpath : address secretive secretive.call.pathArg = 0x1000 := by decide
  have hvector : address secretive secretive.call.argvArg = 0x2000 := by decide
  rw [hpath] at haccesses hslots
  rw [hvector] at hslots
  refine ⟨hroom, kernel, args, ?_, hkernel, hslots⟩
  rw [← haccesses]
  decide +kernel

end Probe

end ExecWatch
