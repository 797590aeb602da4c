import Mathlib.Data.List.Forall2
import ExecWatch.Pattern.Regex

/-!
# What an anchored expression matches

The matcher computes verdicts for all suffixes of a text at once, piece by piece from the last
(`Verdicts`, kept by one piece: `verdicts_one`, `verdicts_run`), and so decides the relation
`Regex.Matches` (`isMatch_iff_matches`). That relation is a split of the text into consecutive
parts, one covered by each piece: `matches_iff_parts`.
-/

namespace ExecWatch.Regex

/-! ## One piece of the relation -/

section
variable {cls : CharClass} {c : Char} {pieces : List Piece} {text : List Char}

theorem matches_nil_iff : Matches [] text ↔ text = [] := by
  constructor
  · rintro ⟨⟩; rfl
  · rintro rfl; exact .nil

theorem not_matches_one_nil : ¬ Matches (.one cls :: pieces) [] := by
  rintro ⟨⟩

theorem matches_one_cons_iff :
    Matches (.one cls :: pieces) (c :: text) ↔ cls.mem c = true ∧ Matches pieces text := by
  constructor
  · rintro (_ | ⟨hc, h⟩)
    exact ⟨hc, h⟩
  · rintro ⟨hc, h⟩
    exact .one hc h

theorem matches_run_nil_iff : Matches (.run cls :: pieces) [] ↔ Matches pieces [] := by
  constructor
  · rintro (_ | _ | h)
    exact h
  · exact .runEnd

theorem matches_run_cons_iff :
    Matches (.run cls :: pieces) (c :: text) ↔
      Matches pieces (c :: text) ∨ cls.mem c = true ∧ Matches (.run cls :: pieces) text := by
  constructor
  · rintro (_ | _ | h | ⟨hc, h⟩)
    · exact .inl h
    · exact .inr ⟨hc, h⟩
  · rintro (h | ⟨hc, h⟩)
    · exact .runEnd h
    · exact .runChar hc h

end

/-! ## The verdicts -/

/-- The verdicts tell for every suffix of the text whether it has the property, for the whole text
first. -/
def Verdicts (P : List Char → Prop) : List Char → List Bool → Prop
  | [], verdicts => ∃ b, verdicts = [b] ∧ (b = true ↔ P [])
  | c :: text, verdicts =>
    ∃ b later, verdicts = b :: later ∧ (b = true ↔ P (c :: text)) ∧ Verdicts P text later

theorem Verdicts.head {P : List Char → Prop} {text : List Char} {verdicts : List Bool}
    (h : Verdicts P text verdicts) : verdicts.headD false = true ↔ P text := by
  cases text with
  | nil =>
    obtain ⟨b, rfl, hb⟩ := h
    exact hb
  | cons c text =>
    obtain ⟨b, later, rfl, hb, -⟩ := h
    exact hb

theorem verdicts_end (text : List Char) :
    Verdicts (Matches []) text (text.map (fun _ => false) ++ [true]) := by
  induction text with
  | nil => exact ⟨true, rfl, by simp [matches_nil_iff]⟩
  | cons c text ih => exact ⟨false, _, rfl, by simp [matches_nil_iff], ih⟩

section
variable {cls : CharClass} {pieces : List Piece} {text : List Char} {after : List Bool}

theorem verdicts_one (h : Verdicts (Matches pieces) text after) :
    Verdicts (Matches (.one cls :: pieces)) text ((Piece.one cls).verdicts text after) := by
  induction text generalizing after with
  | nil => exact ⟨false, rfl, by simp [not_matches_one_nil]⟩
  | cons c text ih =>
    obtain ⟨b, later, rfl, -, hlater⟩ := h
    refine ⟨_, _, rfl, ?_, ih hlater⟩
    rw [Bool.and_eq_true, hlater.head, matches_one_cons_iff]

theorem verdicts_run (h : Verdicts (Matches pieces) text after) :
    Verdicts (Matches (.run cls :: pieces)) text ((Piece.run cls).verdicts text after) := by
  induction text generalizing after with
  | nil =>
    obtain ⟨b, rfl, hb⟩ := h
    exact ⟨b, rfl, hb.trans matches_run_nil_iff.symm⟩
  | cons c text ih =>
    obtain ⟨b, later, rfl, hb, hlater⟩ := h
    refine ⟨_, _, rfl, ?_, ih hlater⟩
    rw [Bool.or_eq_true, Bool.and_eq_true, (ih hlater).head, hb, matches_run_cons_iff]

end

/-- **The matcher decides the relation.** -/
theorem isMatch_iff_matches (r : Regex) (text : List Char) :
    r.isMatch text = true ↔ Matches r.pieces text := by
  have key : ∀ pieces : List Piece, Verdicts (Matches pieces) text
      (pieces.foldr (fun piece after => piece.verdicts text after)
        (text.map (fun _ => false) ++ [true])) := by
    intro pieces
    induction pieces with
    | nil => exact verdicts_end text
    | cons piece pieces ih =>
      cases piece with
      | one cls => exact verdicts_one ih
      | run cls => exact verdicts_run ih
  exact (key r.pieces).head

/-! ## Parts -/

/-- The piece covers the part: one character of its class, or any number of them. -/
def Piece.Covers : Piece → List Char → Prop
  | .one cls, part => ∃ c, part = [c] ∧ cls.mem c = true
  | .run cls, part => ∀ c ∈ part, cls.mem c = true

theorem matches_run_append {cls : CharClass} {pieces : List Piece} {part text : List Char}
    (hpart : ∀ c ∈ part, cls.mem c = true) (h : Matches pieces text) :
    Matches (.run cls :: pieces) (part ++ text) := by
  induction part with
  | nil => exact .runEnd h
  | cons c part ih =>
    exact .runChar (hpart c List.mem_cons_self)
      (ih fun d hd => hpart d (List.mem_cons_of_mem c hd))

/-- **A match is a split into parts**, one covered by each piece in order, with nothing left
over. -/
theorem matches_iff_parts (pieces : List Piece) (text : List Char) :
    Matches pieces text ↔ ∃ parts : List (List Char), parts.flatten = text ∧
      List.Forall₂ Piece.Covers pieces parts := by
  constructor
  · intro h
    induction h with
    | nil => exact ⟨[], rfl, .nil⟩
    | @one cls c pieces text hc _ ih =>
      obtain ⟨parts, rfl, hparts⟩ := ih
      exact ⟨[c] :: parts, rfl, .cons ⟨c, rfl, hc⟩ hparts⟩
    | @runEnd cls pieces text _ ih =>
      obtain ⟨parts, rfl, hparts⟩ := ih
      exact ⟨[] :: parts, rfl, .cons (by simp [Piece.Covers]) hparts⟩
    | @runChar cls c pieces text hc _ ih =>
      obtain ⟨parts, rfl, hparts⟩ := ih
      obtain ⟨part, parts, hpart, hrest, rfl⟩ := List.forall₂_cons_left_iff.1 hparts
      refine ⟨(c :: part) :: parts, rfl, .cons (fun d hd => ?_) hrest⟩
      rcases List.mem_cons.1 hd with rfl | hd
      · exact hc
      · exact hpart d hd
  · rintro ⟨parts, rfl, hparts⟩
    induction hparts with
    | nil => exact .nil
    | @cons piece part pieces parts hpart _ ih =>
      rw [List.flatten_cons]
      cases piece with
      | one cls =>
        obtain ⟨c, rfl, hc⟩ := hpart
        exact .one hc ih
      | run cls => exact matches_run_append hpart ih

end ExecWatch.Regex
