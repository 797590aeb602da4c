import ExecWatch.Proofs.Text.Utf8

/-!
# Texts cut at a byte

A cut at a byte can go through a character. The machine's reading of a concatenation splits at any byte
(`exists_scanFrom_append`), and nothing is found in no bytes only (`scanFrom_eq_nil`). So the front of a
character, which is followed by bytes that complete just this one character, is one invalid piece
(`scan_cut`), and the characters before it are read whole.

Main statement: `cutTo_iff`. A text whose bytes are cut reads as its longest part that fits (`LongestFit`),
and one U+FFFD when bytes of the next character are left.
-/

namespace ExecWatch.Utf8

/-! ## The bytes before a cut -/

section
variable {state : State} {bytes front back : Bytes}

theorem start_waits (b : UInt8) : (start b).1 = [] → (start b).2 ≠ .idle := by
  unfold start
  split
  · intro h; cases h
  split
  · intro h; cases h
  split
  · intro _ h; cases h
  split
  · intro _ h; cases h
  split
  · intro _ h; cases h
  · intro h; cases h

/-- A byte that completes nothing leaves the machine inside a character. -/
theorem feed_waits (state : State) (b : UInt8) : (feed state b).1 = [] → (feed state b).2 ≠ .idle := by
  cases state with
  | idle => exact start_waits b
  | inside tails low high value =>
    simp only [feed]
    split
    · split
      · intro h; cases h
      · intro _ h; cases h
    · intro h; cases h

/-- Only between characters and in no bytes nothing is found. -/
theorem scanFrom_eq_nil (h : scanFrom state bytes = []) : state = .idle ∧ bytes = [] := by
  induction bytes generalizing state with
  | nil =>
    cases state with
    | idle => exact ⟨rfl, rfl⟩
    | inside => cases h
  | cons b rest ih =>
    rw [scanFrom_cons] at h
    obtain ⟨hnone, hrest⟩ := List.append_eq_nil_iff.1 h
    exact absurd (ih hrest).1 (feed_waits state b hnone)

/-- What is found in the front, and where it leaves the machine, does not depend on what follows. -/
theorem exists_scanFrom_append (state : State) (front : Bytes) : ∃ found state',
    ∀ back, scanFrom state (front ++ back) = found ++ scanFrom state' back := by
  induction front generalizing state with
  | nil => exact ⟨[], state, fun back => rfl⟩
  | cons b front ih =>
    obtain ⟨found, state', h⟩ := ih (feed state b).2
    refine ⟨(feed state b).1 ++ found, state', fun back => ?_⟩
    rw [List.cons_append, scanFrom_cons, h, List.append_assoc]

/-- **A character that is cut is one invalid piece.** -/
theorem scan_cut {c : Char} (h : front ++ back = String.utf8EncodeChar c) (hfront : front ≠ [])
    (hback : back ≠ []) : scan front = [none] := by
  obtain ⟨found, state, hscan⟩ := exists_scanFrom_append .idle front
  -- the bytes behind the cut yield something, and the whole character is all that is found
  have hwhole : found ++ scanFrom state back = [some c] := by
    have hchar := scanFrom_char c []
    rwa [List.append_nil, ← h, hscan] at hchar
  have hlater : scanFrom state back ≠ [] := fun hnil => hback (scanFrom_eq_nil hnil).2
  obtain rfl : found = [] := by
    cases found with
    | nil => rfl
    | cons a found =>
      obtain ⟨-, hnil⟩ := List.cons.inj hwhole
      exact absurd (List.append_eq_nil_iff.1 hnil).2 hlater
  have hfound : scan front = scanFrom state [] := by
    have := hscan []
    rwa [List.append_nil] at this
  cases state with
  | idle => exact absurd (scanFrom_eq_nil hfound).2 hfront
  | inside tails low high value => exact hfound

theorem scan_encode_append (text : List Char) (bytes : Bytes) :
    scan (encode text ++ bytes) = text.map some ++ scan bytes := by
  induction text with
  | nil => rfl
  | cons c text ih =>
    rw [encode_cons, List.append_assoc, scan, scanFrom_char, List.map_cons, List.cons_append, ← ih]
    rfl

theorem lossy_encode_append (text : List Char) (bytes : Bytes) :
    lossy (encode text ++ bytes) = text ++ lossy bytes := by
  have hwhole : (text.map some).map (·.getD '\uFFFD') = text := by
    rw [List.map_map]
    exact List.map_id text
  rw [lossy, scan_encode_append, List.map_append, hwhole, lossy]

theorem lossy_encode (text : List Char) : lossy (encode text) = text := by
  simpa [lossy, scan, scanFrom] using lossy_encode_append text []

end

theorem encode_flatMap {α : Type} (f : α → List Char) (as : List α) :
    encode (as.flatMap f) = as.flatMap fun a => encode (f a) :=
  List.flatMap_assoc

/-! ## The longest part that fits -/

/-- `kept` is the longest front part of `text` whose bytes fit into `room`. -/
structure LongestFit (room : Nat) (text kept : List Char) : Prop where
  front : kept <+: text
  fits : (encode kept).length ≤ room
  longest : ∀ other, other <+: text → (encode other).length ≤ room → other.length ≤ kept.length

/-- `shown` is what is read of `text` when `room` of its bytes are kept: all of it if it fits. If not, its longest
part that fits, and one U+FFFD behind it unless that part fills the room. -/
structure CutTo (room : Nat) (text shown : List Char) : Prop where
  whole : (encode text).length ≤ room → shown = text
  cut : room < (encode text).length → ∃ kept, LongestFit room text kept ∧
    shown = kept ++ if (encode kept).length < room then ['\uFFFD'] else []

section
variable {room : Nat} {c : Char} {text kept rest shown : List Char}

theorem LongestFit.eq {kept' : List Char} (h : LongestFit room text kept)
    (h' : LongestFit room text kept') : kept = kept' :=
  (List.prefix_of_prefix_length_le h.front h'.front (h'.longest kept h.front h.fits)).eq_of_length_le
    (h.longest kept' h'.front h'.fits)

theorem exists_longestFit (room : Nat) (text : List Char) : ∃ kept, LongestFit room text kept := by
  induction text generalizing room with
  | nil => exact ⟨[], List.nil_prefix, Nat.zero_le room, fun other hother _ => hother.length_le⟩
  | cons c text ih =>
    by_cases hc : (String.utf8EncodeChar c).length ≤ room
    · obtain ⟨kept, hfront, hfits, hlongest⟩ := ih (room - (String.utf8EncodeChar c).length)
      refine ⟨c :: kept, List.cons_prefix_cons.2 ⟨rfl, hfront⟩, ?_, fun other hother hroom => ?_⟩
      · rw [encode_cons, List.length_append]
        omega
      · rcases List.prefix_cons_iff.1 hother with rfl | ⟨other, rfl, hrest⟩
        · exact Nat.zero_le _
        · rw [encode_cons, List.length_append] at hroom
          exact Nat.succ_le_succ (hlongest other hrest (by omega))
    · refine ⟨[], List.nil_prefix, Nat.zero_le room, fun other hother hroom => ?_⟩
      rcases List.prefix_cons_iff.1 hother with rfl | ⟨other, rfl, -⟩
      · exact Nat.le_refl _
      · rw [encode_cons, List.length_append] at hroom
        omega

/-- The character behind the longest part that fits is cut. -/
theorem LongestFit.next_cut (h : LongestFit room (kept ++ c :: rest) kept) :
    room < (encode kept).length + (String.utf8EncodeChar c).length := by
  have hmore := mt (h.longest (kept ++ [c]) ⟨rest, by simp⟩) (by simp)
  simp only [encode_append, encode_cons, encode_nil, List.append_nil, List.length_append] at hmore
  omega

/-- **A cut text reads as its longest part that fits**, and U+FFFD for bytes behind it. -/
theorem LongestFit.lossy_take (h : LongestFit room text kept) (hcut : room < (encode text).length) :
    lossy ((encode text).take room) =
      kept ++ if (encode kept).length < room then ['\uFFFD'] else [] := by
  obtain ⟨rest, rfl⟩ := h.front
  have hfits := h.fits
  rw [encode_append, List.take_append, List.take_of_length_le hfits, lossy_encode_append]
  congr 1
  cases rest with
  | nil =>
    rw [List.append_nil] at hcut
    omega
  | cons c rest =>
    have hnext := h.next_cut
    rw [encode_cons, List.take_append_of_le_length (by omega)]
    split
    · rename_i hleft
      have hfront : (String.utf8EncodeChar c).take (room - (encode kept).length) ≠ [] := by
        rw [← List.length_pos_iff, List.length_take]
        omega
      have hback : (String.utf8EncodeChar c).drop (room - (encode kept).length) ≠ [] := by
        rw [← List.length_pos_iff, List.length_drop]
        omega
      rw [lossy, scan_cut (List.take_append_drop _ _) hfront hback]
      rfl
    · rename_i hfull
      rw [Nat.sub_eq_zero_of_le (Nat.le_of_not_lt hfull), List.take_zero]
      rfl

/-- **What is left of a text** is what the bytes read as that fit. -/
theorem cutTo_iff : CutTo room text shown ↔ lossy ((encode text).take room) = shown := by
  by_cases hfits : (encode text).length ≤ room
  · rw [List.take_of_length_le hfits, lossy_encode]
    constructor
    · exact fun h => (h.whole hfits).symm
    · rintro rfl
      exact ⟨fun _ => rfl, fun hcut => absurd hfits (Nat.not_le_of_lt hcut)⟩
  · have hcut := Nat.lt_of_not_le hfits
    obtain ⟨kept, hkept⟩ := exists_longestFit room text
    rw [hkept.lossy_take hcut]
    constructor
    · intro h
      obtain ⟨kept', hkept', rfl⟩ := h.cut hcut
      rw [hkept.eq hkept']
    · rintro rfl
      exact ⟨fun h => absurd h hfits, fun _ => ⟨kept, hkept, rfl⟩⟩

end

end ExecWatch.Utf8
