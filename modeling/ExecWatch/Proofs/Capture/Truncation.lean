import ExecWatch.Proofs.Capture.BoundedJoin
import ExecWatch.Proofs.Capture.Delivery
import ExecWatch.Proofs.Text.Truncation
import Mathlib.Data.List.TakeWhile

/-!
# Texts that do not fit into their fields

The path and the arguments of an exec are cut at 255 bytes each, which may be inside a character. When they are
UTF-8, the reader gets all that fits (`Utf8.CutTo`): of a path, and of the arguments joined by spaces
(`Argv.Lists`, `joined_of_lists`). Main statement: `Probe.texts_cut`.
-/

namespace ExecWatch

/-- A text without NULs is shown as far as it fits. -/
theorem cutTo_shown {text : List Char} (h : '\x00' ∉ text) (room : Nat) :
    Utf8.CutTo room text (shown room (Utf8.encode text)).toList := by
  have hbytes : ∀ b ∈ (Utf8.encode text).take room, decide (b ≠ 0) = true := by
    intro b hb
    refine decide_eq_true ?_
    rintro rfl
    exact Utf8.zero_not_mem_encode h (List.mem_of_mem_take hb)
  rw [shown, List.takeWhile_eq_self_iff.2 hbytes, String.toList_ofList, Utf8.cutTo_iff]

/-! ## Arguments joined by spaces -/

/-- Joining and encoding can be exchanged. -/
theorem encode_intercalate (args : List (List Char)) :
    Utf8.encode ([' '].intercalate args) = [0x20].intercalate (args.map Utf8.encode) := by
  cases args with
  | nil => rfl
  | cons arg args =>
    have hspaced : ∀ later : List Char, Utf8.encode ([' '] ++ later) = [0x20] ++ Utf8.encode later :=
      fun later => Utf8.encode_append [' '] later
    rw [List.map_cons, Argv.intercalate_cons, Argv.intercalate_cons, Utf8.encode_append,
      Utf8.encode_flatMap, List.flatMap_map]
    simp only [hspaced]

theorem not_mem_intercalate {args : List (List Char)} (h : ∀ arg ∈ args, '\x00' ∉ arg) :
    '\x00' ∉ [' '].intercalate args := by
  cases args with
  | nil => exact List.not_mem_nil
  | cons arg args =>
    rw [Argv.intercalate_cons, List.mem_append, List.mem_flatMap]
    rintro (hmem | ⟨arg', harg', hmem⟩)
    · exact h arg List.mem_cons_self hmem
    · rcases List.mem_append.1 hmem with hspace | hmem
      · exact absurd hspace (by decide)
      · exact h arg' (List.mem_cons_of_mem arg harg') hmem

/-- The values of a function at the indices of a list whose elements it gives. -/
theorem filterMap_range {α : Type} {f : Nat → Option α} {as : List α}
    (h : ∀ i a, as[i]? = some a → f i = some a) : (List.range as.length).filterMap f = as := by
  have hmap : (List.range as.length).map f = as.map some := by
    refine List.ext_getElem (by simp) fun i hi _ => ?_
    rw [List.length_map, List.length_range] at hi
    rw [List.getElem_map, List.getElem_range, List.getElem_map]
    exact h i _ (List.getElem?_eq_getElem hi)
  calc (List.range as.length).filterMap f
      = ((List.range as.length).map f).filterMap id := by rw [List.filterMap_map]; rfl
    _ = as := by rw [hmap, List.filterMap_map]; exact List.filterMap_some

namespace Argv

/-- The vector lists the arguments: each can be read at the slot of its index, and no slot holds a pointer
behind them unless they take all slots that are visited. A null vector lists none. -/
def Lists (space : AddressSpace) (vector : UInt64) (args : List Bytes) : Prop :=
  if vector = 0 then args = []
  else args.length ≤ maxSlots ∧ (∀ i arg, args[i]? = some arg → string? space vector i = some arg) ∧
    (args.length < maxSlots → pointer? space vector args.length = none)

variable {space : AddressSpace} {vector : UInt64} {args : List Bytes}

/-- **Listed arguments are joined whole.** -/
theorem joined_of_lists (h : Lists space vector args) :
    joined space vector = [0x20].intercalate args := by
  symm
  rw [← joins_iff]
  unfold Joins
  unfold Lists at h
  split
  · rename_i hnull
    rw [if_pos hnull] at h
    rw [h]
    rfl
  · rename_i hsome
    rw [if_neg hsome] at h
    obtain ⟨hlen, hstring, hend⟩ := h
    have hread : ∀ i, i < args.length → (string? space vector i).isSome := fun i hi => by
      rw [hstring i _ (List.getElem?_eq_getElem hi), Option.isSome_some]
    have hpointer : ∀ i, i < args.length → (pointer? space vector i).isSome := fun i hi =>
      Option.isSome_of_isSome_bind (hread i hi)
    refine ⟨args.length, args.length, ⟨hlen, hpointer, hend⟩,
      ⟨Nat.le_refl _, hread, fun hlt => absurd hlt (Nat.lt_irrefl _)⟩, ?_⟩
    rw [filterMap_range hstring, if_neg fun hlt => Nat.lt_irrefl _ hlt.2, List.append_nil]

end Argv

namespace Probe

section
variable {f : Firing} {space : AddressSpace} (hm : f.user.Honest space) (offsets : TaskOffsets) (slot : Record)
include hm

theorem filename_record : (ExecInfo.ofRecord (record offsets slot f).1).filename =
    shown 255 (Record.pathText space (address f f.call.pathArg)) := by
  simp only [ExecInfo.ofRecord, record, Record.fill, Field.toText, Record.text_readPath hm,
    Context.argument_eq]
  rfl

theorem argv_record : (ExecInfo.ofRecord (record offsets slot f).1).argv =
    shown 255 (Argv.joined space (address f f.call.argvArg)) := by
  simp only [ExecInfo.ofRecord, record, Record.fill, Field.toText, Record.text_readArgv hm,
    Context.argument_eq]
  rfl

end

/-- **A cut damages one character at most.** Of a path that is UTF-8 without NULs, and of such arguments joined
by spaces, the reader gets the whole text if it has at most 255 bytes. Of a longer one it gets the whole
characters that fit, and one U+FFFD unless these take all 255 bytes. -/
theorem texts_cut {f : Firing} {space : AddressSpace} (hm : f.user.Honest space) {s : State}
    (hroom : s.queue.length < s.capacity) (slot : Record) :
    ∃ r info, (fire slot s f).1.queue = s.queue ++ [r] ∧ ExecInfo.decode? r.encode = some info ∧
      (∀ path, '\x00' ∉ path → address f f.call.pathArg ≠ 0 →
        space.string (address f f.call.pathArg) = some (Utf8.encode path) →
        Utf8.CutTo 255 path info.filename.toList) ∧
      ∀ args : List (List Char), (∀ arg ∈ args, '\x00' ∉ arg) →
        Argv.Lists space (address f f.call.argvArg) (args.map Utf8.encode) →
        Utf8.CutTo 255 ([' '].intercalate args) info.argv.toList := by
  refine ⟨(record s.offsets slot f).1, ExecInfo.ofRecord (record s.offsets slot f).1, ?_, ?_, ?_, ?_⟩
  · rw [fire_room hroom]
  · rw [ExecInfo.decode?, Record.decode?_encode, Option.map_some]
  · intro path hpath hpointer hstring
    have htext : Record.pathText space (address f f.call.pathArg) = Utf8.encode path := by
      rw [Record.pathText, if_neg hpointer, hstring, Option.getD_some]
    rw [filename_record hm, htext]
    exact cutTo_shown hpath 255
  · intro args hargs hlists
    rw [argv_record hm, Argv.joined_of_lists hlists, ← encode_intercalate]
    exact cutTo_shown (not_mem_intercalate hargs) 255

/-- A path of 254 bytes and two characters, the first of which takes two bytes. -/
def longPath : List Char := '/' :: List.replicate 253 'a' ++ ['\u00e9', 'b']

/-- An empty argument and one of 85 characters, each of which takes three bytes. -/
def longArgs : List (List Char) := [[], List.replicate 85 '\u20ac']

/-- A user memory that holds them. -/
def longSpace : AddressSpace where
  word a := if a = 0x2000 then some 0x3000 else if a = 0x2008 then some 0x3010 else none
  string a := if a = 0x1000 then some (Utf8.encode longPath) else if a = 0x3000 then some []
    else if a = 0x3010 then some (Utf8.encode (List.replicate 85 '\u20ac')) else none

def longListing : Firing := { listing with user := .ofSpace longSpace }

/-- One byte of a character of two is left in the path, two of a character of three in the arguments. -/
theorem texts_cut_inside :
    longListing.user.Honest longSpace ∧ ([] : List Record).length < 1 ∧
      ∃ r info, (fire (.filledWith 0xEE) (.empty 1) longListing).1.queue = [] ++ [r] ∧
        ExecInfo.decode? r.encode = some info ∧
        info.filename.toList = '/' :: List.replicate 253 'a' ++ ['\uFFFD'] ∧
        info.argv.toList = ' ' :: List.replicate 84 '\u20ac' ++ ['\uFFFD'] := by
  have hm : longListing.user.Honest longSpace := UserMemory.honest_ofSpace longSpace
  have hroom : ([] : List Record).length < 1 := by decide
  have hlists : Argv.Lists longSpace (address longListing longListing.call.argvArg)
      (longArgs.map Utf8.encode) := by
    have hvector : address longListing longListing.call.argvArg = 0x2000 := by decide +kernel
    rw [hvector, Argv.Lists, if_neg (by decide)]
    refine ⟨by decide, fun i arg h => ?_, fun _ => by decide +kernel⟩
    match i, h with
    | 0, h => exact (by decide +kernel : Argv.string? longSpace 0x2000 0 = (longArgs.map Utf8.encode)[0]?).trans h
    | 1, h => exact (by decide +kernel : Argv.string? longSpace 0x2000 1 = (longArgs.map Utf8.encode)[1]?).trans h
  have hplain : '\x00' ∉ longPath := by decide +kernel
  have hpointer : address longListing longListing.call.pathArg ≠ 0 := by decide +kernel
  have hstring : longSpace.string (address longListing longListing.call.pathArg) =
      some (Utf8.encode longPath) := by decide +kernel
  have hplainArgs : ∀ arg ∈ longArgs, '\x00' ∉ arg := by decide +kernel
  obtain ⟨r, info, hqueue, hinfo, hpath, hargs⟩ := texts_cut hm (s := .empty 1) hroom (.filledWith 0xEE)
  have hfilename := Utf8.cutTo_iff.1 (hpath longPath hplain hpointer hstring)
  have hargv := Utf8.cutTo_iff.1 (hargs longArgs hplainArgs hlists)
  exact ⟨hm, hroom, r, info, hqueue, hinfo, hfilename.symm.trans (by decide +kernel),
    hargv.symm.trans (by decide +kernel)⟩

end Probe

end ExecWatch
