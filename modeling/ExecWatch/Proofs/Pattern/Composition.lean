import ExecWatch.Proofs.Pattern.Translation

/-!
# What a glob matches

Main statement: `compile_compositional`. The names a glob matches are those that split into
consecutive parts, one matched by each element (`Element.Matches`). Underneath, each element's
piece covers what the element matches (`covers_iff_matches`), and without classes the reading of a
glob never fails behind its last backslash (`compile_fails_iff`).
-/

namespace ExecWatch.Glob

open Regex (readPieces)

/-- What an element matches: a letter itself, `?` one character and `*` any number of them other
than `/`, a class the characters that its text matches as a glob of its own. -/
def Element.Matches : Element → List Char → Prop
  | .letter l _, part => part = [l.char]
  | .any, part => ∃ c, part = [c] ∧ c ≠ '/'
  | .run, part => '/' ∉ part
  | .cls k, part => ∃ c, part = [c] ∧
      ∃ r, compile (String.ofList k.text) = .ok r ∧ r.isMatch [c] = true

theorem notSlash_mem (c : Char) : notSlash.mem c = true ↔ c ≠ '/' := by
  simp [notSlash, CharClass.mem, CharClass.listed, ClassItem.mem]

theorem single_mem (c d : Char) : (CharClass.single c).mem d = true ↔ d = c := by
  simp [CharClass.single, CharClass.mem, CharClass.listed, ClassItem.mem]

/-- An expression of one class matches the names of one character in it. -/
theorem isMatch_class (cls : CharClass) (name : List Char) :
    (Regex.mk [.one cls]).isMatch name = true ↔ ∃ c, name = [c] ∧ cls.mem c = true := by
  rw [Regex.isMatch_iff_matches]
  cases name with
  | nil => simp [Regex.not_matches_one_nil]
  | cons c later =>
    rw [Regex.matches_one_cons_iff, Regex.matches_nil_iff]
    constructor
    · rintro ⟨hc, rfl⟩
      exact ⟨c, rfl, hc⟩
    · rintro ⟨d, ⟨⟩, hd⟩
      exact ⟨hd, rfl⟩

theorem isMatch_one (cls : CharClass) (c : Char) :
    (Regex.mk [.one cls]).isMatch [c] = true ↔ cls.mem c = true := by
  simp [isMatch_class]

/-- An element's text is a glob of its own, of the one piece that its tokens are read as. -/
theorem compile_text {e : Element} {p : Regex.Piece}
    (h : readPieces .between (e.tokens ++ [.plain '$']) = .ok [p]) :
    compile (String.ofList e.text) = .ok ⟨[p]⟩ := by
  have hspelled : [e].flatMap Element.text = (String.ofList e.text).toList := by
    rw [List.flatMap_singleton, String.toList_ofList]
  rw [compile_elements hspelled, List.flatMap_singleton, h]

/-- **An element's piece covers what the element matches.** -/
theorem covers_iff_matches {e : Element} {p : Regex.Piece}
    (h : readPieces .between (e.tokens ++ [.plain '$']) = .ok [p]) (part : List Char) :
    p.Covers part ↔ e.Matches part := by
  cases e with
  | letter l _ =>
    obtain rfl := Except.ok.inj ((readsAs_letter l.char).eq_ok h)
    constructor
    · rintro ⟨d, rfl, hd⟩
      rw [(single_mem _ d).1 hd]
      rfl
    · rintro rfl
      exact ⟨_, rfl, (single_mem _ _).2 rfl⟩
  | any =>
    obtain rfl := Except.ok.inj (readsAs_any.eq_ok h)
    simp only [Regex.Piece.Covers, Element.Matches, notSlash_mem]
  | run =>
    obtain rfl := Except.ok.inj (readsAs_run.eq_ok h)
    constructor
    · intro hcover hslash
      exact (notSlash_mem _).1 (hcover _ hslash) rfl
    · intro hslash c hc
      refine (notSlash_mem c).2 ?_
      rintro rfl
      exact hslash hc
  | cls k =>
    have halone : compile (String.ofList k.text) = .ok ⟨[p]⟩ :=
      compile_text (e := .cls k) h
    obtain ⟨cls, rfl⟩ : ∃ cls, p = .one cls := by
      obtain ⟨r, hr⟩ := readsAs_bracket k
      have hp := hr.eq_ok h
      cases r with
      | error c => cases hp
      | ok cls => exact ⟨cls, (Except.ok.inj hp).symm⟩
    simp only [Regex.Piece.Covers, Element.Matches, halone, Except.ok.injEq, exists_eq_left',
      isMatch_one]

theorem forall₂_covers_iff {es : List Element} {ps : List Regex.Piece}
    (h : List.Forall₂ (fun e p => readPieces .between (e.tokens ++ [.plain '$']) = .ok [p]) es ps)
    (parts : List (List Char)) :
    List.Forall₂ Regex.Piece.Covers ps parts ↔ List.Forall₂ Element.Matches es parts := by
  induction h generalizing parts with
  | nil => rw [List.forall₂_nil_left_iff, List.forall₂_nil_left_iff]
  | cons hp _ ih =>
    rw [List.forall₂_cons_left_iff, List.forall₂_cons_left_iff]
    simp only [covers_iff_matches hp, ih]

/-! ## Compiled globs -/

section
variable {glob : String}

/-- A glob whose reading stops is not compiled. -/
theorem compile_of_stop {stop : Stop} (h : expressionFrom .outside glob.toList = .error stop) :
    ∃ e, compile glob = .error e := by
  cases stop with
  | trailingBackslash => exact ⟨.trailingBackslash, by rw [compile, expression, h]; rfl⟩
  | unclosedClass => exact ⟨.unclosedClass glob, by rw [compile, expression, h]; rfl⟩

theorem spelled_of_compile {r : Regex} (h : compile glob = .ok r) :
    ∃ es : List Element, es.flatMap Element.text = glob.toList := by
  cases hout : expressionFrom .outside glob.toList with
  | ok out => exact spelled_of_ok hout
  | error stop =>
    obtain ⟨e, he⟩ := compile_of_stop hout
    cases h.symm.trans he

/-- **A compiled glob matches element by element.** -/
theorem isMatch_iff_parts {r : Regex} (h : compile glob = .ok r)
    {es : List Element} (hes : es.flatMap Element.text = glob.toList) (name : List Char) :
    r.isMatch name = true ↔
      ∃ parts : List (List Char), parts.flatten = name ∧ List.Forall₂ Element.Matches es parts := by
  have hpieces : readPieces .between (es.flatMap Element.tokens ++ [.plain '$']) = .ok r.pieces := by
    rw [compile_elements hes] at h
    split at h
    · rename_i ps hps
      cases h
      exact hps
    · cases h
  have hread := (readPieces_elements es r.pieces).1 hpieces
  rw [Regex.isMatch_iff_matches, Regex.matches_iff_parts]
  simp only [forall₂_covers_iff hread]

/-- Elements other than classes are always read. -/
theorem reads_without_classes {es : List Element} (h : '[' ∉ es.flatMap Element.text) :
    ∃ ps, readPieces .between (es.flatMap Element.tokens ++ [.plain '$']) = .ok ps := by
  induction es with
  | nil => exact ⟨[], rfl⟩
  | cons e es ih =>
    rw [List.flatMap_cons, List.mem_append, not_or] at h
    obtain ⟨ps, hps⟩ := ih h.2
    obtain ⟨p, hp⟩ : ∃ p, ReadsAs e.tokens (.ok p) := by
      cases e with
      | letter l _ => exact ⟨_, readsAs_letter l.char⟩
      | any => exact ⟨_, readsAs_any⟩
      | run => exact ⟨_, readsAs_run⟩
      | cls k => exact absurd List.mem_cons_self h.1
    refine ⟨p :: ps, ?_⟩
    rw [List.flatMap_cons, List.append_assoc, hp _ (begins_elements es)]
    change (readPieces _ _).map (p :: ·) = _
    rw [hps]
    rfl

/-- **A glob without classes fails just for an unpaired backslash at its end.** -/
theorem compile_fails_iff (h : '[' ∉ glob.toList) :
    (∃ e, compile glob = .error e) ↔ trailingBackslashes glob.toList % 2 = 1 := by
  rw [← stops_iff _ h]
  constructor
  · rintro ⟨e, he⟩
    cases hout : expressionFrom .outside glob.toList with
    | error stop => exact ⟨stop, rfl⟩
    | ok out =>
      obtain ⟨es, hes⟩ := spelled_of_ok hout
      obtain ⟨ps, hps⟩ := reads_without_classes (hes ▸ h)
      rw [compile_elements hes, hps] at he
      cases he
  · rintro ⟨stop, hstop⟩
    exact compile_of_stop hstop

end

/-- **The translation of globs is compositional.** -/
theorem compile_compositional (glob : String) :
    (∀ r, compile glob = .ok r →
      (∃ es : List Element, es.flatMap Element.text = glob.toList) ∧
      ∀ es : List Element, es.flatMap Element.text = glob.toList → ∀ name : List Char,
        r.isMatch name = true ↔ ∃ parts : List (List Char),
          parts.flatten = name ∧ List.Forall₂ Element.Matches es parts) ∧
    ('[' ∉ glob.toList →
      ((∃ e, compile glob = .error e) ↔ trailingBackslashes glob.toList % 2 = 1)) :=
  ⟨fun _ h => ⟨spelled_of_compile h, fun _ hes => isMatch_iff_parts h hes⟩, compile_fails_iff⟩

/-- `a*[b-d]\?`, element by element. -/
def sampleElements : List Element :=
  [.letter (.plain 'a') (by decide +kernel), .run,
    .cls ⟨none, .plain 'b', [.plain '-', .plain 'd'], by decide +kernel, by decide +kernel⟩,
    .letter (.escaped '?') (by decide +kernel)]

theorem compile_compositional_sample :
    (∃ r, compile "a*[b-d]\\?" = .ok r ∧ (r.isMatch "a.c?".toList = true ↔
      ∃ parts : List (List Char),
        parts.flatten = "a.c?".toList ∧ List.Forall₂ Element.Matches sampleElements parts)) ∧
    ∃ e, compile "a*\\" = .error e := by
  have hok : ∃ r, compile "a*[b-d]\\?" = .ok r := ⟨_, rfl⟩
  obtain ⟨r, hr⟩ := hok
  refine ⟨⟨r, hr, ((compile_compositional _).1 r hr).2 sampleElements (by decide +kernel) _⟩, ?_⟩
  exact ((compile_compositional "a*\\").2 (by decide +kernel)).2 (by decide +kernel)

end ExecWatch.Glob
