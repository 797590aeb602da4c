import ExecWatch.Proofs.Capture.Arguments

/-!
# What a published record does not tell

A slot of the ring is handed out with whatever it held before, and a tracepoint's context holds
more than the probe needs. Neither shows: the fill overwrites every byte of the slot, whatever the
memory helpers do (`fill_slot`), so the record depends on what the probe is meant to look at only
(`record_congr`), and with it the accesses (`published_eq_of_agree`).
-/

namespace ExecWatch

namespace Record

variable (mem : UserMemory) (seen : List Access)

theorem readPath_field (path : UInt64) (field field' : Field 256) :
    readPath mem path field seen = readPath mem path field' seen := by
  unfold readPath
  simp only [Field.cleared_eq_zero]

theorem readArgv_field (vector : UInt64) (field field' : Field 256) :
    readArgv mem vector field seen = readArgv mem vector field' seen := by
  unfold readArgv
  simp only [Field.cleared_eq_zero]

/-- **Nothing of the slot survives**: every field is written, the texts over a cleared field. -/
theorem fill_slot (task : Task) (slot slot' : Record) (path vector : UInt64) :
    fill task mem slot path vector seen = fill task mem slot' path vector seen := by
  unfold fill
  simp only [readPath_field mem seen path slot.filename slot'.filename,
    readArgv_field mem _ vector slot.argv slot'.argv]

end Record

namespace Probe

/-- Two firings agree on what the probe is meant to look at: the addresses of the path and of the
argument vector, the task with its ids and its name, and both memories. The header, the other
arguments and whatever follows them may differ. -/
structure Agree (f g : Firing) : Prop where
  path : address f f.call.pathArg = address g g.call.pathArg
  vector : address f f.call.argvArg = address g g.call.argvArg
  task : f.task = g.task
  pidTgid : f.pidTgid = g.pidTgid
  uidGid : f.uidGid = g.uidGid
  comm : f.comm = g.comm
  user : f.user = g.user
  kernel : f.kernel = g.kernel

theorem record_slot (offsets : TaskOffsets) (slot slot' : Record) (f : Firing) :
    record offsets slot f = record offsets slot' f := by
  simp only [record, Record.fill_slot f.user _ _ slot slot']

theorem record_congr {f g : Firing} (h : Agree f g) (offsets : TaskOffsets)
    (slot slot' : Record) : record offsets slot f = record offsets slot' g := by
  rw [record_slot offsets slot slot']
  obtain ⟨hpath, hvector, htask, hpid, huid, hcomm, huser, hkernel⟩ := h
  unfold address at hpath hvector
  simp only [record, Context.argument_eq, hpath, hvector, htask, hpid, huid, hcomm, huser, hkernel]

/-- **No leak**: firings that agree publish records equal in all their bytes and make the same
accesses, whatever their slots held and whatever the user memory's helpers report. -/
theorem published_eq_of_agree {f g : Firing} (h : Agree f g) {s t : State}
    (hs : s.queue.length < s.capacity) (ht : t.queue.length < t.capacity)
    (hoffsets : s.offsets = t.offsets) (slot slot' : Record) :
    ∃ r r', (fire slot s f).1.queue = s.queue ++ [r] ∧
      (fire slot' t g).1.queue = t.queue ++ [r'] ∧
      r.encode.length = 544 ∧ r.encode = r'.encode ∧
      (fire slot s f).2.accesses = (fire slot' t g).2.accesses := by
  have hrecord := record_congr h s.offsets slot slot'
  rw [fire_room hs, fire_room ht, ← hoffsets, hrecord]
  exact ⟨_, _, rfl, rfl, Record.length_encode _, rfl, rfl⟩

/-- User memory at rest: an argument vector of two strings at `0x2000`. -/
def exampleSpace : AddressSpace where
  word a := if a = 0x2000 then some 0x3000 else if a = 0x2008 then some 0x3000 else none
  string a := if a = 0x1000 then some [0x2F, 0x78] else if a = 0x3000 then some [0x61] else none

/-- An `execve` whose context ends behind the words it needs, over a memory whose helper reports
five bytes too many. -/
def bareFiring : Firing where
  call := .execve
  context := List.replicate 16 0 ++ [0, 0x10, 0, 0, 0, 0, 0, 0] ++ [0, 0x20, 0, 0, 0, 0, 0, 0]
  task := 0x8000
  pidTgid := 7
  uidGid := 0
  comm := none
  user := .overReporting exampleSpace fun _ => 5
  kernel := ⟨fun _ => none, fun _ => none⟩

/-- The same exec with another header and with an environment. -/
def fullFiring : Firing :=
  { bareFiring with
    context := List.replicate 16 0xAB ++ [0, 0x10, 0, 0, 0, 0, 0, 0] ++ [0, 0x20, 0, 0, 0, 0, 0, 0] ++
      [1, 2, 3, 4, 5, 6, 7, 8] }

theorem published_eq_bare_full :
    Agree bareFiring fullFiring ∧ ([] : List Record).length < 1 ∧
    ∃ r r', (fire (.filledWith 0xEE) (.empty 1) bareFiring).1.queue = [] ++ [r] ∧
      (fire .zero (.empty 1) fullFiring).1.queue = [] ++ [r'] ∧
      r.encode.length = 544 ∧ r.encode = r'.encode ∧
      (fire (.filledWith 0xEE) (.empty 1) bareFiring).2.accesses =
        (fire .zero (.empty 1) fullFiring).2.accesses := by
  have hagree : Agree bareFiring fullFiring :=
    ⟨by decide, by decide, rfl, rfl, rfl, rfl, rfl, rfl⟩
  have hroom : ([] : List Record).length < 1 := by decide
  exact ⟨hagree, hroom, published_eq_of_agree (s := .empty 1) (t := .empty 1) hagree hroom hroom rfl
    (.filledWith 0xEE) .zero⟩

end Probe

end ExecWatch
