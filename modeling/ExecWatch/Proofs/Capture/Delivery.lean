import ExecWatch.Exec.Info
import ExecWatch.Proofs.Capture.Arguments
import ExecWatch.Proofs.Capture.Join
import ExecWatch.Proofs.Exec.Codec

/-!
# What the probe sees is what the reader gets

A firing that finds room publishes one record, and the 544 bytes of that record decode to what the
firing saw: `decode?_published`. The three texts are said without buffers: `pathText` is the string
at the path argument, `Argv.joined` the text of the argument vector, and `shown` cuts a string at
the field's room and at its first NUL. The fields hold them: `text_readPath`, `text_readArgv`.
-/

namespace ExecWatch

/-! ## Texts -/

theorem Bytes.cText_append_zero (text rest : Bytes) :
    cText (text ++ 0 :: rest) = text.takeWhile (· ≠ 0) := by
  rw [cText_eq_takeWhile]
  induction text with
  | nil => rfl
  | cons b text ih => by_cases hb : b = 0 <;> simp_all

/-- A string as a field shows it: what stands before the first NUL of its first `room` bytes, with
U+FFFD for bytes that are no UTF-8. -/
def shown (room : Nat) (bytes : Bytes) : String :=
  String.ofList (Utf8.lossy ((bytes.take room).takeWhile (· ≠ 0)))

/-! ## The fields -/

namespace Record

variable {mem : UserMemory} {space : AddressSpace}

/-- The string that the path pointer stands for; none when the pointer is null or the string cannot
be read. -/
def pathText (space : AddressSpace) (path : UInt64) : Bytes :=
  if path = 0 then [] else (space.string path).getD []

theorem text_zero (width : Nat) : (Field.zero width).text = [] := by
  cases width <;> rfl

theorem text_readPath (hm : mem.Honest space) (path : UInt64) (field : Field 256)
    (seen : List Access) :
    (readPath mem path field seen).1.text =
      ((pathText space path).take 255).takeWhile (· ≠ 0) := by
  have hlen : (Field.zero 256).bytes.length = 256 := (Field.zero 256).length_eq
  have hne : (Field.zero 256).bytes ≠ [] := List.ne_nil_of_length_pos (by omega)
  unfold readPath pathText
  simp only [Field.cleared_eq_zero]
  split
  · exact text_zero 256
  · simp only [Field.text]
    cases hs : space.string path with
    | none =>
      rw [hm.fault _ _ _ hs]
      exact text_zero 256
    | some text =>
      rw [hm.string _ _ _ _ hs hne, Bytes.cText_append_zero, hlen]
      rfl

theorem text_readArgv (hm : mem.Honest space) (vector : UInt64) (field : Field 256)
    (seen : List Access) :
    (readArgv mem vector field seen).1.text =
      ((Argv.joined space vector).take 255).takeWhile (· ≠ 0) := by
  have hlen : field.cleared.bytes.length = 256 := field.cleared.length_eq
  have h := (Argv.join_eq hm vector field.cleared.bytes (by omega) (by rw [hlen]; decide) seen).2
  simp only [readArgv, Field.text]
  rw [h, Bytes.cText_append_zero, hlen]

theorem text_terminated (f : Field 16) :
    f.terminated.text = ((f.bytes.set 15 0).take 16).takeWhile (· ≠ 0) := by
  have hlen : (f.bytes.set 15 0).length = 16 := by rw [List.length_set, f.length_eq]
  rw [List.take_of_length_le (by omega), ← Bytes.cText_eq_takeWhile]
  rfl

end Record

/-! ## The whole way -/

namespace Probe

/-- **What the probe saw is what the reader gets.** -/
theorem decode?_published {f : Firing} {space : AddressSpace} (hm : f.user.Honest space)
    {s : State} (hroom : s.queue.length < s.capacity) (slot : Record) :
    ∃ r, (fire slot s f).1.queue = s.queue ++ [r] ∧ r.encode.length = 544 ∧
      ExecInfo.decode? r.encode = some
        { pid := UInt32.ofNat (f.pidTgid.toNat / 0x100000000)
          ppid := (parentId f.kernel f.task s.offsets).1
          uid := UInt32.ofNat (f.uidGid.toNat % 0x100000000)
          gid := UInt32.ofNat (f.uidGid.toNat / 0x100000000)
          comm := (f.comm.map fun c => shown 16 (c.bytes.set 15 0)).getD ""
          filename := shown 255 (Record.pathText space (address f f.call.pathArg))
          argv := shown 255 (Argv.joined space (address f f.call.argvArg)) } := by
  refine ⟨(record s.offsets slot f).1, ?_, Record.length_encode _, ?_⟩
  · rw [fire_room hroom]
  · rw [ExecInfo.decode?, Record.decode?_encode, Option.map_some, Option.some.injEq]
    simp only [ExecInfo.ofRecord, record, Record.fill, ExecInfo.mk.injEq, Field.toText,
      Task.pid_eq, Task.uid_eq, Task.gid_eq, Record.text_readPath hm, Record.text_readArgv hm,
      Context.argument_eq]
    refine ⟨trivial, trivial, trivial, trivial, ?_, rfl, rfl⟩
    cases f.comm with
    | none => rfl
    | some c => rw [Option.getD_some, Record.text_terminated]; rfl

/-- A user memory with the path `/bin/ls` and three arguments: `ls`, a dash and a byte that is no
UTF-8, and a third that faults. -/
def listingSpace : AddressSpace where
  word a := if a = 0x2000 then some 0x3000 else if a = 0x2008 then some 0x3010
    else if a = 0x2010 then some 0x3020 else none
  string a := if a = 0x1000 then some "/bin/ls".toUTF8.toList else if a = 0x3000 then some [0x6C, 0x73]
    else if a = 0x3010 then some [0x2D, 0xFF] else none

/-- An `execveat` over that memory. -/
def listing : Firing where
  call := .execveat
  context := List.replicate 24 0xEE ++ [0, 0x10, 0, 0, 0, 0, 0, 0] ++ [0, 0x20, 0, 0, 0, 0, 0, 0]
  task := 0x8000
  pidTgid := 0x2A00000007
  uidGid := 0x64000003E8
  comm := some (.ofBytes 16 [0x73, 0x68])
  user := .ofSpace listingSpace
  kernel := ⟨fun _ => none, fun _ => none⟩

theorem decode?_published_listing :
    listing.user.Honest listingSpace ∧ ([] : List Record).length < 1 ∧
    ∃ r, (fire (.filledWith 0xEE) (.empty 1) listing).1.queue = [] ++ [r] ∧ r.encode.length = 544 ∧
      ExecInfo.decode? r.encode =
        some ⟨0x2A, 0, 1000, 100, "sh", "/bin/ls", "ls -\uFFFD "⟩ := by
  have hm : listing.user.Honest listingSpace := UserMemory.honest_ofSpace listingSpace
  have hroom : ([] : List Record).length < 1 := by decide
  obtain ⟨r, hq, hl, hd⟩ := decode?_published hm (s := .empty 1) hroom (.filledWith 0xEE)
  exact ⟨hm, hroom, r, hq, hl, hd.trans (by decide +kernel)⟩

end Probe

end ExecWatch
