import ExecWatch.Proofs.Pattern.Elements
import ExecWatch.Proofs.Pattern.Matching

/-!
# The reading of a glob's expression

The reader takes the tokens of one element as one piece, and what it makes of them does not depend
on the elements around it (`Reads`, by element: `reads_element`): no character of a glob acts as an
operator, and a class ends for the reader at the bracket that ended it for the glob. So a spelled
glob compiles to one piece for each element, the piece that the element's own text compiles to.
-/

namespace ExecWatch.Regex

/-! ## Tokens -/

theorem tokens_append {toks : List Token} (h : .plain '\\' ∉ toks) (text : List Char) :
    tokens (toks.flatMap Token.text ++ text) = (tokens text).map (toks ++ ·) := by
  induction toks with
  | nil =>
    rw [List.flatMap_nil, List.nil_append]
    cases tokens text with
    | ok => rfl
    | error => rfl
  | cons t toks ih =>
    simp only [List.mem_cons, not_or] at h
    rw [List.flatMap_cons, List.append_assoc]
    cases t with
    | plain c =>
      have hc : c ≠ '\\' := by
        rintro rfl
        exact h.1 rfl
      simp [Token.text, tokens, hc, ih h.2, map_map_except]
    | escaped c => simp [Token.text, tokens, ih h.2, map_map_except]

/-! ## The reader -/

section
variable {s s' : State} {t : Token} {ps : List Piece} {e : Error}

theorem readPieces_of_ok (h : step s t = .ok (ps, s')) (toks : List Token) :
    readPieces s (t :: toks) = (readPieces s' toks).map (ps ++ ·) := by
  rw [readPieces, h]
  cases hread : readPieces s' toks with
  | ok => simp [bind, Except.bind, hread, pure, Except.pure, Except.map]
  | error => simp [bind, Except.bind, hread, Except.map]

theorem readPieces_of_error (h : step s t = .error e) (toks : List Token) :
    readPieces s (t :: toks) = .error e := by
  rw [readPieces, h]
  rfl

/-- A token that completes no piece only moves the reader. -/
theorem readPieces_of_move (h : step s t = .ok ([], s')) (toks : List Token) :
    readPieces s (t :: toks) = readPieces s' toks := by
  rw [readPieces_of_ok h]
  cases readPieces s' toks with
  | ok => rfl
  | error => rfl

end

/-- Something that begins a new piece: it is not empty, and no star. -/
def Begins (toks : List Token) : Prop := ∃ t rest, toks = t :: rest ∧ t ≠ .plain '*'

/-- One character of a class is a piece of its own before anything but a star. -/
theorem readPieces_after {cls : CharClass} {toks : List Token} (h : Begins toks) :
    readPieces (.after cls) toks = (readPieces .between toks).map (.one cls :: ·) := by
  obtain ⟨t, rest, rfl, ht⟩ := h
  have hstep : step (.after cls) t = (stepBetween t).map ([.one cls], ·) := by
    rw [step]
    rintro rfl
    exact ht rfl
  cases hs : stepBetween t with
  | error e =>
    have hbetween : step .between t = .error e := by rw [step, hs]; rfl
    have hafter : step (.after cls) t = .error e := by rw [hstep, hs]; rfl
    rw [readPieces_of_error hafter, readPieces_of_error hbetween]
    rfl
  | ok s =>
    have hbetween : step .between t = .ok ([], s) := by rw [step, hs]; rfl
    have hafter : step (.after cls) t = .ok ([.one cls], s) := by rw [hstep, hs]; rfl
    rw [readPieces_of_ok hafter, readPieces_of_move hbetween]
    rfl

/-- A token other than a plain closing bracket keeps the reader inside its class. -/
theorem stepInside_stays {t : Token} (ht : t ≠ .plain ']') (cls : OpenClass) (w : Waiting) :
    (∃ e, stepInside cls w t = .error e) ∨
      ∃ cls' w', stepInside cls w t = .ok (.inside cls' w') := by
  unfold stepInside
  split
  · exact absurd rfl ht
  · exact absurd rfl ht
  · exact absurd rfl ht
  · exact absurd rfl ht
  · exact .inr ⟨_, _, rfl⟩
  · exact .inr ⟨_, _, rfl⟩
  · exact .inr ⟨_, _, rfl⟩
  · exact .inr ⟨_, _, rfl⟩
  · split
    · exact .inl ⟨_, rfl⟩
    · split
      · exact .inr ⟨_, _, rfl⟩
      · exact .inr ⟨_, _, rfl⟩
      · exact .inr ⟨_, _, rfl⟩
      · split
        · exact .inr ⟨_, _, rfl⟩
        · exact .inl ⟨_, rfl⟩

/-- The plain closing bracket ends it. -/
theorem stepInside_close (cls : OpenClass) (w : Waiting) :
    ∃ c, stepInside cls w (.plain ']') = .ok (.after c) := by
  cases w with
  | nothing => exact ⟨_, rfl⟩
  | dash => exact ⟨_, rfl⟩
  | char c => exact ⟨_, rfl⟩
  | charDash c => exact ⟨_, rfl⟩

/-- Without a `^` in front the class's members begin at once. -/
theorem readPieces_opened {t : Token} (ht : t ≠ .plain '^') (toks : List Token) :
    readPieces .opened (t :: toks) = readPieces (.inside (.start false) .nothing) (t :: toks) := by
  have hstep : step .opened t = step (.inside (.start false) .nothing) t := by
    rw [step, step]
    rintro rfl
    exact ht rfl
  rw [readPieces, readPieces, hstep]

/-- Members up to the closing bracket are read as some class, or refused, whatever follows. -/
theorem readPieces_inside {toks : List Token} (h : .plain ']' ∉ toks) (cls : OpenClass)
    (w : Waiting) :
    ∃ r : Except Error CharClass, ∀ rest, readPieces (.inside cls w) (toks ++ .plain ']' :: rest) =
      r >>= fun c => readPieces (.after c) rest := by
  induction toks generalizing cls w with
  | nil =>
    obtain ⟨c, hc⟩ := stepInside_close cls w
    have hstep : step (.inside cls w) (.plain ']') = .ok ([], .after c) := by rw [step, hc]; rfl
    exact ⟨.ok c, fun rest => readPieces_of_move hstep rest⟩
  | cons t toks ih =>
    simp only [List.mem_cons, not_or] at h
    rcases stepInside_stays (Ne.symm h.1) cls w with ⟨e, he⟩ | ⟨cls', w', hs⟩
    · have hstep : step (.inside cls w) t = .error e := by rw [step, he]; rfl
      exact ⟨.error e, fun rest => readPieces_of_error hstep _⟩
    · obtain ⟨r, hr⟩ := ih h.2 cls' w'
      have hstep : step (.inside cls w) t = .ok ([], .inside cls' w') := by rw [step, hs]; rfl
      refine ⟨r, fun rest => ?_⟩
      rw [List.cons_append, readPieces_of_move hstep, hr]

end ExecWatch.Regex

namespace ExecWatch.Glob

open Regex (Token readPieces Begins)

/-! ## What escaping keeps away -/

theorem charToken_ne {d : Char} (hd : needsEscape d = true) (c : Char) :
    charToken c ≠ .plain d := by
  unfold charToken
  split
  · rintro ⟨⟩
  · rename_i hc
    rintro ⟨⟩
    exact hc hd

theorem plain_not_mem_members {d : Char} (hd : needsEscape d = true) (hdash : d ≠ '-') :
    ∀ ls : List Letter, .plain d ∉ memberTokens ls
  | [] => List.not_mem_nil
  | l :: ls => by
    rw [memberTokens, List.mem_cons, not_or]
    refine ⟨?_, plain_not_mem_members hd hdash ls⟩
    split
    · rintro ⟨⟩
      exact hdash rfl
    · exact (charToken_ne hd _).symm

theorem plain_not_mem_bracket {d : Char} (hd : needsEscape d = true) (hdash : d ≠ '-')
    (hcaret : d ≠ '^') (k : Bracket) : .plain d ∉ k.tokens := by
  have hslash : d ≠ '/' := by
    rintro rfl
    exact absurd hd (by decide +kernel)
  have hfirst := (charToken_ne hd k.first.char).symm
  have hothers := plain_not_mem_members hd hdash k.others
  unfold Bracket.tokens
  split
  · simp [hcaret, hslash, hfirst, hothers]
  · simp [hfirst, hothers]

theorem backslash_not_mem (e : Element) : .plain '\\' ∉ e.tokens := by
  cases e with
  | letter l h =>
    have := charToken_ne (d := '\\') (by decide +kernel) l.char
    simpa [Element.tokens] using this.symm
  | any => decide +kernel
  | run => decide +kernel
  | cls k =>
    have := plain_not_mem_bracket (d := '\\') (by decide +kernel) (by decide) (by decide) k
    simp [Element.tokens, this]

/-! ## One piece for each element -/

/-- The reader takes these tokens as one piece, or refuses them, whatever begins behind them. -/
def ReadsAs (toks : List Token) (r : Except Regex.Error Regex.Piece) : Prop :=
  ∀ rest, Begins rest → readPieces .between (toks ++ rest) =
    r >>= fun p => (readPieces .between rest).map (p :: ·)

/-- The tokens by themselves are read as an expression of that one piece. -/
theorem ReadsAs.alone {toks : List Token} {r : Except Regex.Error Regex.Piece}
    (h : ReadsAs toks r) : readPieces .between (toks ++ [.plain '$']) = r.map ([·]) := by
  rw [h _ ⟨_, _, rfl, by decide⟩]
  cases r with
  | ok p => rfl
  | error c => rfl

theorem ReadsAs.eq_ok {toks : List Token} {r : Except Regex.Error Regex.Piece} {p : Regex.Piece}
    (h : ReadsAs toks r) (hp : readPieces .between (toks ++ [.plain '$']) = .ok [p]) :
    r = .ok p := by
  rw [h.alone] at hp
  cases r with
  | ok q =>
    cases hp
    rfl
  | error c => cases hp

/-- Everything but `/`. -/
def notSlash : CharClass := ⟨true, [.char '/'], []⟩

theorem needsEscape_of_isOperator {c : Char} (h : Regex.isOperator c = true) :
    needsEscape c = true := by
  have hsub : "\\.+*?()|[]\x7b\x7d^$".toList ⊆ "\\.+*?()|[]\x7b\x7d^$#&-~".toList := by decide +kernel
  exact List.contains_iff_mem.2 (hsub (List.contains_iff_mem.1 h))

theorem stepBetween_charToken (c : Char) :
    Regex.stepBetween (charToken c) = .ok (.after (.single c)) := by
  unfold charToken
  split
  · rfl
  · rename_i hc
    have hopen : c ≠ '[' := by
      rintro rfl
      exact hc (by decide +kernel)
    have hend : c ≠ '$' := by
      rintro rfl
      exact hc (by decide +kernel)
    have hop : ¬ Regex.isOperator c = true := fun h => hc (needsEscape_of_isOperator h)
    simp [Regex.stepBetween, hop]

/-- Tokens that bring the reader behind one character of a class. -/
theorem readsAs_of_after {toks : List Token} {r : Except Regex.Error CharClass}
    (h : ∀ rest, readPieces .between (toks ++ rest) = r >>= fun c => readPieces (.after c) rest) :
    ReadsAs toks (r.map .one) := by
  intro rest hrest
  rw [h]
  cases r with
  | error e => rfl
  | ok c => exact Regex.readPieces_after hrest

theorem readsAs_letter (c : Char) : ReadsAs [charToken c] (.ok (.one (.single c))) := by
  refine readsAs_of_after (r := .ok (.single c)) fun rest => ?_
  have hstep : Regex.step .between (charToken c) = .ok ([], .after (.single c)) := by
    rw [Regex.step, stepBetween_charToken]
    rfl
  exact Regex.readPieces_of_move hstep rest

theorem readPieces_notSlash (rest : List Token) :
    readPieces .between (notSlashTokens ++ rest) = readPieces (.after notSlash) rest :=
  calc readPieces .between (notSlashTokens ++ rest)
    _ = readPieces .opened (.plain '^' :: .plain '/' :: .plain ']' :: rest) :=
      Regex.readPieces_of_move rfl _
    _ = readPieces (.inside (.start true) .nothing) (.plain '/' :: .plain ']' :: rest) :=
      Regex.readPieces_of_move rfl _
    _ = readPieces (.inside (.start true) (.char '/')) (.plain ']' :: rest) :=
      Regex.readPieces_of_move rfl _
    _ = readPieces (.after notSlash) rest := Regex.readPieces_of_move rfl _

theorem readsAs_any : ReadsAs notSlashTokens (.ok (.one notSlash)) :=
  readsAs_of_after (r := .ok notSlash) readPieces_notSlash

theorem readsAs_run : ReadsAs (notSlashTokens ++ [.plain '*']) (.ok (.run notSlash)) := by
  intro rest _
  rw [List.append_assoc, readPieces_notSlash]
  have hstep : Regex.step (.after notSlash) (.plain '*') = .ok ([.run notSlash], .between) := rfl
  exact Regex.readPieces_of_ok hstep rest

theorem readsAs_bracket (k : Bracket) :
    ∃ r : Except Regex.Error CharClass, ReadsAs (Element.cls k).tokens (r.map .one) := by
  have hclose := plain_not_mem_bracket (d := ']') (by decide +kernel) (by decide) (by decide) k
  have hopen : ∀ rest, readPieces .between ((Element.cls k).tokens ++ rest) =
      readPieces .opened (k.tokens ++ .plain ']' :: rest) := fun rest => by
    rw [Element.tokens, List.cons_append, List.append_assoc]
    exact Regex.readPieces_of_move rfl _
  by_cases hsign : k.sign.isSome
  · have htail : .plain ']' ∉ k.tokens.tail := fun h => hclose (List.mem_of_mem_tail h)
    obtain ⟨r, hr⟩ := Regex.readPieces_inside htail (.start true) .nothing
    refine ⟨r, readsAs_of_after fun rest => ?_⟩
    have htokens : k.tokens = .plain '^' :: k.tokens.tail := by simp [Bracket.tokens, hsign]
    rw [hopen, htokens, List.cons_append, Regex.readPieces_of_move rfl, hr]
  · obtain ⟨r, hr⟩ := Regex.readPieces_inside hclose (.start false) .nothing
    refine ⟨r, readsAs_of_after fun rest => ?_⟩
    have htokens : k.tokens = charToken k.first.char :: memberTokens k.others := by
      simp [Bracket.tokens, hsign]
    have hcaret := charToken_ne (d := '^') (by decide +kernel) k.first.char
    rw [hopen, ← hr, htokens, List.cons_append, Regex.readPieces_opened hcaret]

theorem readsAs_element (e : Element) : ∃ r, ReadsAs e.tokens r := by
  cases e with
  | letter l h => exact ⟨_, readsAs_letter l.char⟩
  | any => exact ⟨_, readsAs_any⟩
  | run => exact ⟨_, readsAs_run⟩
  | cls k =>
    obtain ⟨r, hr⟩ := readsAs_bracket k
    exact ⟨_, hr⟩

/-! ## The whole glob -/

theorem begins_elements (es : List Element) :
    Begins (es.flatMap Element.tokens ++ [.plain '$']) := by
  cases es with
  | nil => exact ⟨_, _, rfl, by decide⟩
  | cons e es =>
    cases e with
    | letter l h => exact ⟨_, _, rfl, charToken_ne (by decide +kernel) l.char⟩
    | any => exact ⟨_, _, rfl, by decide⟩
    | run => exact ⟨_, _, rfl, by decide⟩
    | cls k => exact ⟨_, _, rfl, by decide⟩

/-- **The reading is compositional**: one piece for each element, as it is read alone. -/
theorem readPieces_elements (es : List Element) (ps : List Regex.Piece) :
    readPieces .between (es.flatMap Element.tokens ++ [.plain '$']) = .ok ps ↔
      List.Forall₂ (fun e p => readPieces .between (e.tokens ++ [.plain '$']) = .ok [p]) es ps := by
  have hend : readPieces .between [.plain '$'] = .ok [] := rfl
  induction es generalizing ps with
  | nil =>
    rw [List.forall₂_nil_left_iff, List.flatMap_nil, List.nil_append, hend, Except.ok.injEq]
    exact eq_comm
  | cons e es ih =>
    obtain ⟨r, hr⟩ := readsAs_element e
    rw [List.flatMap_cons, List.append_assoc, hr _ (begins_elements es), List.forall₂_cons_left_iff,
      hr.alone]
    cases r with
    | error c =>
      constructor
      · rintro ⟨⟩
      · rintro ⟨_, _, ⟨⟩, _⟩
    | ok p =>
      change (readPieces _ _).map (p :: ·) = _ ↔ _
      constructor
      · intro hread
        obtain ⟨ps', hps, -⟩ := exists_of_map_eq_ok hread
        rw [hps] at hread
        cases hread
        exact ⟨p, ps', rfl, (ih ps').1 hps, rfl⟩
      · rintro ⟨_, ps', ⟨⟩, hps, rfl⟩
        rw [(ih ps').2 hps]
        rfl

/-- A spelled glob compiles as its tokens are read. -/
theorem compile_elements {glob : String} {es : List Element}
    (h : es.flatMap Element.text = glob.toList) :
    compile glob =
      match readPieces .between (es.flatMap Element.tokens ++ [.plain '$']) with
      | .ok ps => .ok ⟨ps⟩
      | .error c => .error (.notCompiled glob c) := by
  have htokens : Regex.tokens
      ('^' :: ((es.flatMap Element.tokens).flatMap Token.text ++ ['$'])) =
      .ok (.plain '^' :: (es.flatMap Element.tokens ++ [.plain '$'])) := by
    have hback : .plain '\\' ∉ Token.plain '^' :: es.flatMap Element.tokens := by
      rw [List.mem_cons, List.mem_flatMap]
      rintro (h | ⟨e, _, he⟩)
      · cases h
      · exact backslash_not_mem e he
    exact Regex.tokens_append hback ['$']
  have hexpression : expression glob =
      .ok (String.ofList ('^' :: ((es.flatMap Element.tokens).flatMap Token.text ++ ['$']))) := by
    rw [expression, ← h, expressionFrom_elements]
  unfold compile
  rw [hexpression]
  simp only [bind, Except.bind, String.toList_ofList, Regex.parse, htokens]
  cases readPieces .between (es.flatMap Element.tokens ++ [.plain '$']) with
  | ok ps => rfl
  | error c => rfl

end ExecWatch.Glob
