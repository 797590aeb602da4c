import ExecWatch.Text.LowerCase

/-!
# What lower case leaves alone

A text in lower case holds no capital of ASCII (`not_isCapital_lowerCase`), and of the texts without
such capitals each name of plain letters is the lower case of itself only (`eq_of_lowerCase_eq`). Two
characters beyond ASCII have forms with a letter of ASCII in them: U+212A has `k`, and U+0130 has `i`
with U+0307 behind it.
-/

namespace ExecWatch.Text

/-- One of the letters `A` to `Z`. -/
def IsCapital (c : Char) : Prop := 0x41 ≤ c.toNat ∧ c.toNat ≤ 0x5A

instance (c : Char) : Decidable (IsCapital c) := inferInstanceAs (Decidable (_ ∧ _))

/-- The forms in the table are characters beyond ASCII, but for that of U+212A. -/
theorem forms_of_runs :
    ∀ run ∈ lowerCaseRuns, run = (0x212A, 0x212A, 1, 0x6B) ∨
      0x80 ≤ run.2.2.2 ∧ (run.2.2.2 + (run.2.1 - run.1) < 0xD800 ∨
        0xDFFF < run.2.2.2 ∧ run.2.2.2 + (run.2.1 - run.1) < 0x110000) := by
  decide +kernel

/-- The form of a character beyond ASCII is `k` or has a character beyond ASCII in it. -/
theorem lowerChar_of_not_ascii {c : Char} (h : 0x80 ≤ c.toNat) :
    lowerChar c = ['k'] ∨ lowerChar c = ['i', '\u0307'] ∨ ∃ d, lowerChar c = [d] ∧ 0x80 ≤ d.toNat := by
  unfold lowerChar
  rw [if_neg (by omega)]
  split
  · exact .inr (.inl rfl)
  · split
    · rename_i first last step form hrun
      obtain ⟨hbounds, hmem⟩ := And.intro (List.find?_some hrun) (List.mem_of_find?_eq_some hrun)
      simp only [Bool.and_eq_true, decide_eq_true_eq] at hbounds
      rcases forms_of_runs _ hmem with heq | ⟨hlow, hvalid⟩
      · cases heq
        rw [show c.toNat = 0x212A by omega]
        exact .inl rfl
      · refine .inr (.inr ⟨_, rfl, ?_⟩)
        have hchar : (form + (c.toNat - first)).isValidChar := by
          simp only at hvalid
          unfold Nat.isValidChar
          omega
        rw [Char.ofNat, dif_pos hchar]
        exact Nat.le_trans hlow (Nat.le_add_right _ _)
    · exact .inr (.inr ⟨c, rfl, h⟩)

theorem toNat_toLower (c : Char) :
    c.toLower.toNat = if IsCapital c then c.toNat + 0x20 else c.toNat := by
  have hval : IsCapital c ↔ 'A'.val ≤ c.val ∧ c.val ≤ 'Z'.val := by
    rw [UInt32.le_iff_toNat_le, UInt32.le_iff_toNat_le]
    exact Iff.rfl
  unfold Char.toLower
  by_cases h : IsCapital c
  · have hle : c.val.toNat ≤ 0x5A := h.2
    rw [if_pos h, dif_pos (hval.1 h)]
    show (c.val + 0x20).toNat = c.val.toNat + 0x20
    rw [UInt32.toNat_add, show (0x20 : UInt32).toNat = 0x20 from rfl]
    omega
  · rw [if_neg h, dif_neg (mt hval.2 h)]

theorem lowerChar_of_ascii {c : Char} (h : c.toNat < 0x80) : lowerChar c = [c.toLower] := if_pos h

theorem not_isCapital_lowerChar {c d : Char} (h : d ∈ lowerChar c) : ¬ IsCapital d := by
  by_cases hc : c.toNat < 0x80
  · rw [lowerChar_of_ascii hc, List.mem_singleton] at h
    subst h
    have hlower := toNat_toLower c
    by_cases hcap : IsCapital c
    · rw [if_pos hcap] at hlower
      exact fun h => absurd h.2 (by have := hcap.1; omega)
    · rw [if_neg hcap] at hlower
      exact fun h => hcap ⟨hlower ▸ h.1, hlower ▸ h.2⟩
  · rcases lowerChar_of_not_ascii (Nat.not_lt.1 hc) with hk | hi | ⟨e, he, hlow⟩
    · rw [hk, List.mem_singleton] at h
      subst h
      exact fun h => absurd h.2 (by decide)
    · rw [hi] at h
      simp only [List.mem_cons, List.not_mem_nil, or_false] at h
      rcases h with rfl | rfl
      · exact fun h => absurd h.2 (by decide)
      · exact fun h => absurd h.2 (by decide)
    · rw [he, List.mem_singleton] at h
      subst h
      exact fun h => absurd h.2 (by omega)

theorem not_isCapital_lowerCase {text : String} {c : Char} (h : c ∈ (lowerCase text).toList) :
    ¬ IsCapital c := by
  rw [lowerCase, String.toList_ofList, List.mem_flatMap] at h
  obtain ⟨b, -, hb⟩ := h
  exact not_isCapital_lowerChar hb

/-- A name of letters of ASCII other than `k` is the lower case of no other text without capitals. -/
theorem eq_of_lowerCase_eq {text name : String} (htext : ∀ c ∈ text.toList, ¬ IsCapital c)
    (hname : ∀ c ∈ name.toList, c.toNat < 0x80 ∧ c ≠ 'k') (h : lowerCase text = name) : text = name := by
  have hform : ∀ c ∈ text.toList, lowerChar c = [c] := by
    intro c hc
    have hall : ∀ d ∈ lowerChar c, d.toNat < 0x80 ∧ d ≠ 'k' := by
      intro d hd
      refine hname d ?_
      rw [← h, lowerCase, String.toList_ofList]
      exact List.mem_flatMap.2 ⟨c, hc, hd⟩
    by_cases hascii : c.toNat < 0x80
    · rw [lowerChar_of_ascii hascii]
      congr 1
      apply Char.toNat_inj.1
      rw [toNat_toLower, if_neg (htext c hc)]
    · rcases lowerChar_of_not_ascii (Nat.not_lt.1 hascii) with hk | hi | ⟨e, he, hlow⟩
      · exact absurd rfl (hall 'k' (hk ▸ List.mem_singleton_self _)).2
      · exact absurd (hall '\u0307' (hi ▸ by simp)).1 (by decide)
      · exact absurd (hall e (he ▸ List.mem_singleton_self _)).1 (by omega)
  have hsame : text.toList.flatMap lowerChar = text.toList := by
    generalize text.toList = cs at hform
    induction cs with
    | nil => rfl
    | cons c cs ih =>
      rw [List.flatMap_cons, hform c List.mem_cons_self, List.singleton_append,
        ih fun c hc => hform c (List.mem_cons_of_mem _ hc)]
  rw [← h, lowerCase, hsame, String.ofList_toList]

end ExecWatch.Text
