import ExecWatch.Exec.Record
import ExecWatch.Proofs.Capture.Join

/-!
# The join in a buffer of any size

`Argv.Joins space vector text` says slot by slot which text a vector stands for, and `joins_iff` that
this is `Argv.joined`. `join_bounded`: a join into a buffer of any size leaves there as much of that text
as fits beside a NUL, the NUL, and behind it the bytes that stood there before.
-/

namespace ExecWatch

/-! ## The first index without a value -/

section
variable {α β : Type} {f : Nat → Option α} {limit n : Nat}

/-- `n` is the first of the indices below `limit` that has no value, and `limit` if all have one. -/
def FirstMissing (f : Nat → Option α) (limit n : Nat) : Prop :=
  n ≤ limit ∧ (∀ i, i < n → (f i).isSome) ∧ (n < limit → f n = none)

theorem exists_firstMissing (f : Nat → Option α) (limit : Nat) : ∃ n, FirstMissing f limit n := by
  induction limit with
  | zero => exact ⟨0, Nat.le_refl 0, nofun, nofun⟩
  | succ limit ih =>
    obtain ⟨n, hle, hsome, hnone⟩ := ih
    by_cases hlt : n < limit
    · exact ⟨n, by omega, hsome, fun _ => hnone hlt⟩
    · obtain rfl : n = limit := by omega
      cases hn : f n with
      | none => exact ⟨n, by omega, hsome, fun _ => hn⟩
      | some a =>
        refine ⟨n + 1, Nat.le_refl _, fun i hi => ?_, fun h => absurd h (Nat.lt_irrefl _)⟩
        obtain hi | rfl : i < n ∨ i = n := by omega
        · exact hsome i hi
        · rw [hn, Option.isSome_some]

theorem upToNone_map (f : β → Option α) (l : List β) :
    upToNone (l.map f) = (l.takeWhile fun b => (f b).isSome).filterMap f := by
  induction l with
  | nil => rfl
  | cons b l ih =>
    rw [List.map_cons]
    cases hb : f b with
    | none => simp [upToNone, hb]
    | some a => simp [upToNone, hb, ih]

theorem FirstMissing.takeWhile (h : FirstMissing f limit n) :
    (List.range limit).takeWhile (fun i => (f i).isSome) = List.range n := by
  obtain ⟨hle, hsome, hnone⟩ := h
  obtain ⟨k, rfl⟩ := Nat.exists_eq_add_of_le hle
  rw [List.range_add, List.takeWhile_append_of_pos fun i hi => hsome i (List.mem_range.1 hi)]
  cases k with
  | zero => simp
  | succ k => simp [List.range_succ_eq_map, hnone (by omega)]

/-- The values up to the first that is missing. -/
theorem FirstMissing.upToNone (h : FirstMissing f limit n) :
    upToNone ((List.range limit).map f) = (List.range n).filterMap f := by
  rw [upToNone_map, h.takeWhile]

theorem map_some_filterMap {l : List β} {f : β → Option α} (h : ∀ b ∈ l, (f b).isSome) :
    (l.filterMap f).map some = l.map f := by
  induction l with
  | nil => rfl
  | cons b l ih =>
    obtain ⟨a, ha⟩ := Option.isSome_iff_exists.1 (h b List.mem_cons_self)
    rw [List.filterMap_cons_some ha, List.map_cons, List.map_cons, ha,
      ih fun b hb => h b (List.mem_cons_of_mem _ hb)]

theorem FirstMissing.map_some (h : FirstMissing f limit n) :
    ((List.range n).filterMap f).map some = (List.range n).map f :=
  map_some_filterMap fun i hi => h.2.1 i (List.mem_range.1 hi)

theorem FirstMissing.length_filterMap (h : FirstMissing f limit n) :
    ((List.range n).filterMap f).length = n := by
  rw [← List.length_map some, h.map_some, List.length_map, List.length_range]

end

namespace Argv

/-! ## The text slot by slot -/

variable {space : AddressSpace} {vector : UInt64}

/-- The string that slot `i` points to. -/
def string? (space : AddressSpace) (vector : UInt64) (i : Nat) : Option Bytes :=
  (pointer? space vector i).bind space.string

/-- `text` is what the vector at `vector` stands for. A null vector stands for nothing. Of another, the
`n` slots count that come before the first null or unreadable one among 16, and the strings of the `m`
slots that come before the first whose string cannot be read. The strings are joined by single spaces,
and a space stays behind them when it was written for a string that could not be read. -/
def Joins (space : AddressSpace) (vector : UInt64) (text : Bytes) : Prop :=
  if vector = 0 then text = []
  else
    ∃ n m, FirstMissing (fun i => (space.word (vector + 8 * UInt64.ofNat i)).filter (· ≠ 0)) 16 n ∧
      FirstMissing (string? space vector) n m ∧
      text = [0x20].intercalate ((List.range m).filterMap (string? space vector)) ++
        if 0 < m ∧ m < n then [0x20] else []

theorem pointersFrom_zero {n : Nat} (h : FirstMissing (pointer? space vector) maxSlots n) :
    pointersFrom space vector maxSlots 0 = (List.range n).filterMap (pointer? space vector) := by
  rw [pointersFrom, ← List.range_eq_range', h.upToNone]

theorem strings_filterMap {limit n m : Nat} (h : FirstMissing (pointer? space vector) limit n)
    (hm : FirstMissing (string? space vector) n m) :
    strings space ((List.range n).filterMap (pointer? space vector)) =
      (List.range m).filterMap (string? space vector) := by
  have hmap : ((List.range n).filterMap (pointer? space vector)).map space.string =
      (List.range n).map (string? space vector) := by
    calc ((List.range n).filterMap (pointer? space vector)).map space.string
        = (((List.range n).filterMap (pointer? space vector)).map some).map (·.bind space.string) := by
          rw [List.map_map]; rfl
      _ = ((List.range n).map (pointer? space vector)).map (·.bind space.string) := by rw [h.map_some]
      _ = (List.range n).map (string? space vector) := by rw [List.map_map]; rfl
  rw [strings, hmap, hm.upToNone]

theorem joinStrings_eq {n m : Nat} (h : FirstMissing (pointer? space vector) maxSlots n)
    (hm : FirstMissing (string? space vector) n m) :
    joinStrings space (pointersFrom space vector maxSlots 0) =
      [0x20].intercalate ((List.range m).filterMap (string? space vector)) ++
        if 0 < m ∧ m < n then [0x20] else [] := by
  rw [joinStrings, pointersFrom_zero h, strings_filterMap h hm, hm.length_filterMap,
    h.length_filterMap]

/-- A vector stands for one text. -/
theorem joins_iff {text : Bytes} : Joins space vector text ↔ text = joined space vector := by
  unfold Joins joined
  split
  · exact Iff.rfl
  · constructor
    · rintro ⟨n, m, hn, hm, rfl⟩
      rw [joinStrings_eq hn hm]
    · rintro rfl
      obtain ⟨n, hn⟩ := exists_firstMissing (pointer? space vector) maxSlots
      obtain ⟨m, hm⟩ := exists_firstMissing (string? space vector) n
      exact ⟨n, m, hn, hm, joinStrings_eq hn hm⟩

/-! ## The buffer -/

/-- **The bounded join**, for a buffer of any size above one, whatever it held. -/
theorem join_bounded {mem : UserMemory} (hm : mem.Honest space) {size : UInt64} (hsize : 1 < size)
    (buffer : Field size.toNat) (vector : UInt64) (seen : List Access) {p : Progress}
    (hp : join mem vector buffer.bytes seen = p) :
    ∃ text, (∀ t, Joins space vector t ↔ t = text) ∧
      p.used = min text.length (size.toNat - 1) ∧
      p.buffer.length = size.toNat ∧
      p.buffer.take p.used = text.take p.used ∧
      p.buffer[p.used]? = some 0 ∧
      ∀ i, p.used < i → p.buffer[i]? = buffer.bytes[i]? := by
  have hlen := buffer.length_eq
  have hlt : 1 < size.toNat := UInt64.lt_iff_toNat_lt.1 hsize
  obtain ⟨hused, hbuffer⟩ := join_eq hm vector buffer.bytes (by omega)
    (by rw [hlen]; exact Nat.le_of_lt size.toNat_lt) seen
  rw [hlen, hp] at hused hbuffer
  -- the part of the text that fits
  have hfront : ((joined space vector).take (size.toNat - 1)).length =
      min (joined space vector).length (size.toNat - 1) := by
    rw [List.length_take, Nat.min_comm]
  refine ⟨joined space vector, fun t => joins_iff, hused, ?_, ?_, ?_, fun i hi => ?_⟩
  · rw [hbuffer, List.length_append, List.length_cons, List.length_drop, hfront, hlen]
    omega
  · rw [hbuffer, hused, List.take_append_of_le_length (Nat.le_of_eq hfront.symm), ← hfront,
      List.take_length, hfront, List.take_eq_take_min, Nat.min_comm]
  · rw [hbuffer, hused, List.getElem?_append_right (Nat.le_of_eq hfront), hfront, Nat.sub_self,
      List.getElem?_cons_zero]
  · rw [hused] at hi
    obtain ⟨k, rfl⟩ := Nat.exists_eq_add_of_lt hi
    rw [hbuffer, List.getElem?_append_right (by omega), hfront]
    rw [show min (joined space vector).length (size.toNat - 1) + k + 1 -
      min (joined space vector).length (size.toNat - 1) = k + 1 by omega, List.getElem?_cons_succ,
      List.getElem?_drop]
    congr 1
    omega

/-- A vector of a word, an empty string and a string that cannot be read. -/
def gapSpace : AddressSpace where
  word a := if a = 0xFFFFFFFFFFFFFFF8 then some 0x3000 else if a = 0 then some 0x3010
    else if a = 8 then some 0x3020 else none
  string a := if a = 0x3000 then some [0x6C, 0x73] else if a = 0x3010 then some [] else none

/-- The slots lie around the end of the address space, and the first space takes the last byte that is
left. -/
theorem join_bounded_gap :
    (UserMemory.ofSpace gapSpace).Honest gapSpace ∧ (1 : UInt64) < 4 ∧
      Joins gapSpace 0xFFFFFFFFFFFFFFF8 [0x6C, 0x73, 0x20, 0x20] ∧
      ∃ p, join (.ofSpace gapSpace) 0xFFFFFFFFFFFFFFF8 (List.replicate 4 0xEE) [] = p ∧
        p.used = 3 ∧ p.buffer.take 3 = [0x6C, 0x73, 0x20] ∧ p.buffer[3]? = some 0 := by
  have hm : (UserMemory.ofSpace gapSpace).Honest gapSpace := UserMemory.honest_ofSpace gapSpace
  have hsize : (1 : UInt64) < 4 := by decide
  obtain ⟨text, htext, hused, -, hfront, hnul, -⟩ := join_bounded hm hsize
    ⟨List.replicate 4 0xEE, rfl⟩ 0xFFFFFFFFFFFFFFF8 [] rfl
  have hgap : Joins gapSpace 0xFFFFFFFFFFFFFFF8 [0x6C, 0x73, 0x20, 0x20] :=
    joins_iff.2 (by decide +kernel)
  obtain rfl := (htext _).1 hgap
  rw [hused] at hfront hnul
  exact ⟨hm, hsize, hgap, _, rfl, hused, hfront, hnul⟩

end Argv

end ExecWatch
