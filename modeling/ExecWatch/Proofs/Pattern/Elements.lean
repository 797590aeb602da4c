import ExecWatch.Pattern.Glob
import ExecWatch.Proofs.Results

/-!
# The elements of a glob

A glob is read as a list of elements: letters, each with or without a backslash, `?`, `*`, and
bracket classes. `Element.text` is how an element is written, and the types hold only elements that
are read back as themselves. Main statements:

* `expressionFrom_elements`: the expression of a spelled glob is its elements' tokens;
* `spelled_of_ok`: every glob whose reading does not stop is spelled;
* `stops_iff`: without classes the reading stops only for an unpaired backslash at the end.
-/

namespace ExecWatch.Glob

/-! ## Letters, brackets, elements -/

/-- A character of a glob, with or without a backslash. -/
inductive Letter where
  | plain (c : Char)
  | escaped (c : Char)
deriving Repr, DecidableEq

namespace Letter

def char : Letter → Char
  | .plain c => c
  | .escaped c => c

def text : Letter → List Char
  | .plain c => [c]
  | .escaped c => ['\\', c]

/-- The letter is none of these characters without a backslash. -/
def Avoids (l : Letter) (cs : List Char) : Prop := ∀ c ∈ cs, l ≠ .plain c

instance (l : Letter) (cs : List Char) : Decidable (l.Avoids cs) :=
  List.decidableBAll (fun c => l ≠ .plain c) cs

end Letter

/-- What negates a class. -/
inductive Sign where
  | caret
  | bang
deriving Repr, DecidableEq

def Sign.char : Sign → Char
  | .caret => '^'
  | .bang => '!'

/-- A bracket class: its sign, its first member, which may be a bracket, and its other members. -/
structure Bracket where
  sign : Option Sign
  first : Letter
  others : List Letter
  first_avoids : first.Avoids ('\\' :: if sign.isSome then [] else ['^', '!'])
  others_avoid : ∀ l ∈ others, l.Avoids ['\\', ']']

/-- The text behind a class's sign. -/
def Bracket.membersText (k : Bracket) : List Char :=
  k.first.text ++ (k.others.flatMap Letter.text ++ [']'])

def Bracket.text (k : Bracket) : List Char :=
  '[' :: ((k.sign.map Sign.char).toList ++ k.membersText)

/-- What a glob is made of. -/
inductive Element where
  | letter (l : Letter) (avoids : l.Avoids ['*', '?', '[', '\\'])
  | any
  | run
  | cls (k : Bracket)

def Element.text : Element → List Char
  | .letter l _ => l.text
  | .any => ['?']
  | .run => ['*']
  | .cls k => k.text

/-! ## Their expressions -/

/-- How a character is written in an expression to match just itself. -/
def charToken (c : Char) : Regex.Token := if needsEscape c then .escaped c else .plain c

/-- The members of a class behind the first; a plain `-` at the end stands for itself. -/
def memberTokens : List Letter → List Regex.Token
  | [] => []
  | l :: later =>
    (if l = .plain '-' ∧ later ≠ [] then .plain '-' else charToken l.char) :: memberTokens later

/-- What stands between the brackets of a class. -/
def Bracket.tokens (k : Bracket) : List Regex.Token :=
  (if k.sign.isSome then [.plain '^', .plain '/'] else []) ++
    charToken k.first.char :: memberTokens k.others

/-- The class of everything but `/`. -/
def notSlashTokens : List Regex.Token := [.plain '[', .plain '^', .plain '/', .plain ']']

def Element.tokens : Element → List Regex.Token
  | .letter l _ => [charToken l.char]
  | .any => notSlashTokens
  | .run => notSlashTokens ++ [.plain '*']
  | .cls k => .plain '[' :: (k.tokens ++ [.plain ']'])

end ExecWatch.Glob

namespace ExecWatch

/-- How a token is written. -/
def Regex.Token.text : Regex.Token → List Char
  | .plain c => [c]
  | .escaped c => ['\\', c]

namespace Glob

/-! ## Row by row -/

theorem escape_eq (c : Char) : escape c = (charToken c).text := by
  unfold escape charToken
  split <;> rfl

theorem Letter.avoids_plain {c : Char} {cs : List Char} : (plain c).Avoids cs ↔ c ∉ cs := by
  constructor
  · intro h hc
    exact h c hc rfl
  · rintro h d hd ⟨⟩
    exact h hd

section
variable (g : List Char)

theorem expressionFrom_letter {l : Letter} (h : l.Avoids ['*', '?', '[', '\\']) :
    expressionFrom .outside (l.text ++ g) =
      (expressionFrom .outside g).map ((charToken l.char).text ++ ·) := by
  rw [← escape_eq]
  cases l with
  | plain c =>
    simp only [Letter.avoids_plain, List.mem_cons, List.not_mem_nil, or_false, not_or] at h
    obtain ⟨_, _, hbracket, hbackslash⟩ := h
    simp [Letter.text, Letter.char, expressionFrom, hbracket, hbackslash]
  | escaped c => rfl

theorem expressionFrom_first {l : Letter} (h : l.Avoids ['\\']) :
    expressionFrom .classStart (l.text ++ g) =
      (expressionFrom .inClass g).map ((charToken l.char).text ++ ·) := by
  rw [← escape_eq]
  cases l with
  | plain c =>
    simp only [Letter.avoids_plain, List.mem_singleton] at h
    simp [Letter.text, Letter.char, expressionFrom, h]
  | escaped c => simp [Letter.text, Letter.char, expressionFrom]

/-- A member is written like any character, but for a plain `-` with another member behind it. -/
theorem expressionFrom_member {l : Letter} (h : l.Avoids ['\\', ']']) :
    expressionFrom .inClass (l.text ++ g) =
      (expressionFrom .inClass g).map
        ((if l = .plain '-' ∧ g.headD ']' ≠ ']' then ['-'] else (charToken l.char).text) ++ ·) := by
  rw [← escape_eq]
  cases l with
  | plain c =>
    simp only [Letter.avoids_plain, List.mem_cons, List.not_mem_nil, or_false, not_or] at h
    by_cases hc : c = '-'
    · subst hc
      simp only [Letter.text, Letter.char, List.singleton_append, expressionFrom]
      split <;> simp_all
    · simp [Letter.text, Letter.char, expressionFrom, h, hc]
  | escaped c => simp [Letter.text, Letter.char, expressionFrom]

/-- The text of other members begins with a closing bracket only if there are none. -/
theorem headD_members {ls : List Letter} (h : ∀ l ∈ ls, l.Avoids ['\\', ']']) :
    (ls.flatMap Letter.text ++ ']' :: g).headD ']' = ']' ↔ ls = [] := by
  cases ls with
  | nil => simp
  | cons l ls =>
    have hl := h l List.mem_cons_self
    cases l with
    | plain c =>
      simp only [Letter.avoids_plain, List.mem_cons, List.not_mem_nil, or_false, not_or] at hl
      simp [Letter.text, hl]
    | escaped c => simp [Letter.text]

theorem expressionFrom_members {ls : List Letter} (h : ∀ l ∈ ls, l.Avoids ['\\', ']']) :
    expressionFrom .inClass (ls.flatMap Letter.text ++ ']' :: g) =
      (expressionFrom .outside g).map ((memberTokens ls).flatMap Regex.Token.text ++ ']' :: ·) := by
  induction ls with
  | nil => rfl
  | cons l ls ih =>
    have hls := fun l' hl' => h l' (List.mem_cons_of_mem l hl')
    rw [List.flatMap_cons, List.append_assoc, expressionFrom_member _ (h l List.mem_cons_self),
      ih hls, map_map_except]
    simp only [ne_eq, headD_members g hls, memberTokens]
    by_cases hraw : l = .plain '-' ∧ ¬ ls = []
    · simp only [hraw, List.flatMap_cons, Regex.Token.text]
      rfl
    · simp only [hraw, ↓reduceIte, List.flatMap_cons, List.append_assoc]

/-- Behind the sign of a class its members and the closing bracket are written. -/
theorem expressionFrom_membersText (k : Bracket) :
    expressionFrom .classStart (k.membersText ++ g) =
      (expressionFrom .outside g).map ((charToken k.first.char).text ++
        (memberTokens k.others).flatMap Regex.Token.text ++ ']' :: ·) := by
  have hfirst : k.first.Avoids ['\\'] := fun c hc =>
    k.first_avoids c (by rw [List.mem_singleton.1 hc]; exact List.mem_cons_self)
  have := expressionFrom_first (k.others.flatMap Letter.text ++ ']' :: g) hfirst
  rw [expressionFrom_members g k.others_avoid, map_map_except] at this
  simpa [Bracket.membersText] using this

/-- A class is written as its tokens between brackets. -/
theorem expressionFrom_bracket (k : Bracket) :
    expressionFrom .outside (k.text ++ g) =
      (expressionFrom .outside g).map
        ((Element.cls k).tokens.flatMap Regex.Token.text ++ ·) := by
  have hopened : expressionFrom .outside (k.text ++ g) =
      (expressionFrom .classStart (k.membersText ++ g)).map
        ((if k.sign.isSome then "[^/".toList else ['[']) ++ ·) := by
    obtain ⟨sign, first, others, hfirst, hothers⟩ := k
    match sign with
    | some .caret => rfl
    | some .bang => rfl
    | none =>
      cases first with
      | plain c =>
        have hc : ¬ c = '\\' ∧ ¬ c = '^' ∧ ¬ c = '!' := by
          simpa [Letter.avoids_plain] using hfirst
        simp [Bracket.text, Bracket.membersText, Letter.text, expressionFrom, hc]
      | escaped c =>
        simp [Bracket.text, Bracket.membersText, Letter.text, expressionFrom]
  rw [hopened, expressionFrom_membersText, map_map_except]
  by_cases hsign : k.sign.isSome
  · simp [Element.tokens, Bracket.tokens, Regex.Token.text, hsign]
  · simp [Element.tokens, Bracket.tokens, Regex.Token.text, hsign]

theorem expressionFrom_element (e : Element) :
    expressionFrom .outside (e.text ++ g) =
      (expressionFrom .outside g).map (e.tokens.flatMap Regex.Token.text ++ ·) := by
  cases e with
  | letter l h =>
    have := expressionFrom_letter g h
    simpa [Element.text, Element.tokens] using this
  | any => rfl
  | run => rfl
  | cls k => exact expressionFrom_bracket g k

end

/-- **The expression of a spelled glob** is the tokens of its elements, closed by `$`. -/
theorem expressionFrom_elements (es : List Element) :
    expressionFrom .outside (es.flatMap Element.text) =
      .ok ((es.flatMap Element.tokens).flatMap Regex.Token.text ++ ['$']) := by
  induction es with
  | nil => rfl
  | cons e es ih =>
    rw [List.flatMap_cons, expressionFrom_element, ih, List.flatMap_cons, List.flatMap_append,
      List.append_assoc]
    rfl

/-! ## Every accepted glob is spelled -/

/-- Any character but an opening bracket or a backslash is an element. -/
theorem exists_element {c : Char} (hopen : c ≠ '[') (hslash : c ≠ '\\') :
    ∃ e : Element, e.text = [c] := by
  by_cases hrun : c = '*'
  · exact ⟨.run, by rw [hrun]; rfl⟩
  by_cases hany : c = '?'
  · exact ⟨.any, by rw [hany]; rfl⟩
  · have hc : (Letter.plain c).Avoids ['*', '?', '[', '\\'] := by
      simpa [Letter.avoids_plain] using ⟨hrun, hany, hopen, hslash⟩
    exact ⟨.letter (.plain c) hc, rfl⟩

/-- The rest of a glob inside a class: the class's other members, then elements. -/
def MembersSpelled (g : List Char) : Prop :=
  ∃ ls : List Letter, (∀ l ∈ ls, l.Avoids ['\\', ']']) ∧
    ∃ es : List Element, ls.flatMap Letter.text ++ ']' :: es.flatMap Element.text = g

/-- What is left of an accepted glob, by where its reading stands. -/
def Spelled : Place → List Char → Prop
  | .outside, g => ∃ es : List Element, es.flatMap Element.text = g
  | .inClass, g => MembersSpelled g
  | .classStart, g => ∃ l : Letter, l.Avoids ['\\'] ∧
      ∃ later, MembersSpelled later ∧ l.text ++ later = g

section
variable {g : List Char}

theorem Spelled.element (e : Element) (h : Spelled .outside g) :
    Spelled .outside (e.text ++ g) := by
  obtain ⟨es, rfl⟩ := h
  exact ⟨e :: es, rfl⟩

theorem Spelled.closing (h : Spelled .outside g) : MembersSpelled (']' :: g) := by
  obtain ⟨es, rfl⟩ := h
  exact ⟨[], by simp, es, rfl⟩

theorem MembersSpelled.member {l : Letter} (hl : l.Avoids ['\\', ']']) (h : MembersSpelled g) :
    MembersSpelled (l.text ++ g) := by
  obtain ⟨ls, hls, es, rfl⟩ := h
  refine ⟨l :: ls, ?_, es, by simp⟩
  rintro l' (_ | ⟨_, hl'⟩)
  · exact hl
  · exact hls l' hl'

/-- A class is spelled when what is behind its sign is; without a sign, its first member must not
look like one. -/
theorem Spelled.bracket (sign : Option Sign) (h : Spelled .classStart g)
    (hsign : sign = none → ∀ c ∈ ['^', '!'], ∀ later, g ≠ c :: later) :
    Spelled .outside ('[' :: ((sign.map Sign.char).toList ++ g)) := by
  obtain ⟨first, hfirst, later, ⟨others, hothers, es, rfl⟩, rfl⟩ := h
  refine ⟨.cls ⟨sign, first, others, ?_, hothers⟩ :: es, ?_⟩
  · intro c hc
    rcases List.mem_cons.1 hc with rfl | hc
    · exact hfirst _ (by simp)
    · cases sign with
      | some sign => simp at hc
      | none =>
        rintro rfl
        exact hsign rfl c (by simpa using hc) _ rfl
  · simp [Element.text, Bracket.text, Bracket.membersText]

/-- A character that neither ends a glob as a backslash nor escapes the next is no backslash. -/
theorem ne_backslash {c : Char} (hend : c = '\\' → g = [] → False)
    (hescape : ∀ d later, c = '\\' → g = d :: later → False) : c ≠ '\\' := by
  rintro rfl
  cases g with
  | nil => exact hend rfl rfl
  | cons d later => exact hescape d later rfl rfl

end

/-- **Every accepted glob is spelled.** By the rows of the reading, each of which reads one element,
one sign or one member. -/
theorem spelled_of_ok {place : Place} {g out : List Char}
    (h : expressionFrom place g = .ok out) : Spelled place g := by
  fun_induction expressionFrom place g generalizing out
  case case1 => exact ⟨[], rfl⟩
  case case2 g ih =>
    obtain ⟨_, hout, -⟩ := exists_of_map_eq_ok h
    exact (ih hout).element .run
  case case3 g ih =>
    obtain ⟨_, hout, -⟩ := exists_of_map_eq_ok h
    exact (ih hout).element .any
  case case4 => cases h
  case case5 c g ih =>
    obtain ⟨_, hout, -⟩ := exists_of_map_eq_ok h
    exact (ih hout).element (.letter (.escaped c) (by rintro _ _ ⟨⟩))
  case case6 g ih =>
    obtain ⟨_, hout, -⟩ := exists_of_map_eq_ok h
    exact (ih hout).bracket (some .caret) (by rintro ⟨⟩)
  case case7 g ih =>
    obtain ⟨_, hout, -⟩ := exists_of_map_eq_ok h
    exact (ih hout).bracket (some .bang) (by rintro ⟨⟩)
  case case8 g hcaret hbang ih =>
    obtain ⟨_, hout, -⟩ := exists_of_map_eq_ok h
    refine (ih hout).bracket none fun _ c hc later => ?_
    have hc : c = '^' ∨ c = '!' := by simpa using hc
    rcases hc with rfl | rfl
    · exact hcaret later
    · exact hbang later
  case case9 c g _ _ hend hescape _ _ hopen ih =>
    obtain ⟨_, hout, -⟩ := exists_of_map_eq_ok h
    obtain ⟨e, he⟩ := exists_element hopen (ne_backslash hend hescape)
    rw [← List.singleton_append, ← he]
    exact (ih hout).element e
  case case10 => cases h
  case case11 g ih =>
    obtain ⟨_, hout, -⟩ := exists_of_map_eq_ok h
    exact (ih hout).closing
  case case12 g _ ih =>
    obtain ⟨_, hout, -⟩ := exists_of_map_eq_ok h
    exact (ih hout).member (Letter.avoids_plain.2 (by decide))
  case case13 g _ ih =>
    obtain ⟨_, hout, -⟩ := exists_of_map_eq_ok h
    exact (ih hout).member (Letter.avoids_plain.2 (by decide))
  case case14 place c g hplace ih =>
    obtain ⟨_, hout, -⟩ := exists_of_map_eq_ok h
    cases place with
    | outside => cases hplace rfl
    | classStart => exact ⟨.escaped c, by rintro _ _ ⟨⟩, g, ih hout, rfl⟩
    | inClass => exact (ih hout).member (l := .escaped c) (by rintro _ _ ⟨⟩)
  case case15 place c g _ _ hend _ _ _ _ hplace hclose _ hescape ih =>
    obtain ⟨_, hout, -⟩ := exists_of_map_eq_ok h
    have hslash : c ≠ '\\' := ne_backslash hend hescape
    cases place with
    | outside => cases hplace rfl
    | classStart => exact ⟨.plain c, by simpa [Letter.avoids_plain], g, ih hout, rfl⟩
    | inClass =>
      exact (ih hout).member (l := .plain c) (by simpa [Letter.avoids_plain] using
        ⟨hslash, hclose rfl⟩)

/-! ## Without classes -/

/-- How many backslashes a text ends in; the last is unpaired if they are odd in number. -/
def trailingBackslashes (g : List Char) : Nat := (g.reverse.takeWhile (· = '\\')).length

theorem trailingBackslashes_le (g : List Char) : trailingBackslashes g ≤ g.length := by
  have := (List.takeWhile_prefix (p := fun c => decide (c = '\\')) (l := g.reverse)).length_le
  rwa [List.length_reverse] at this

theorem trailingBackslashes_cons (c : Char) (g : List Char) :
    trailingBackslashes (c :: g) =
      if trailingBackslashes g = g.length ∧ c = '\\' then g.length + 1
      else trailingBackslashes g := by
  unfold trailingBackslashes
  rw [List.reverse_cons, List.takeWhile_append, List.length_reverse]
  by_cases hall : (g.reverse.takeWhile (· = '\\')).length = g.length
  · by_cases hc : c = '\\'
    · simp [hall, hc]
    · simp [hall, hc]
  · simp [hall]

/-- A pair at the front leaves the last backslash paired or unpaired, as it was. -/
theorem trailingBackslashes_pair (c : Char) (g : List Char) :
    trailingBackslashes ('\\' :: c :: g) % 2 = trailingBackslashes g % 2 := by
  have hle := trailingBackslashes_le g
  rw [trailingBackslashes_cons, trailingBackslashes_cons, List.length_cons]
  by_cases hall : trailingBackslashes g = g.length ∧ c = '\\'
  · rw [if_pos hall, if_pos ⟨rfl, rfl⟩, hall.1]
    omega
  · rw [if_neg hall, if_neg (by omega)]

/-- **Without classes only an unpaired backslash at the end stops the reading.** -/
theorem stops_iff : ∀ g : List Char, '[' ∉ g →
    ((∃ stop, expressionFrom .outside g = .error stop) ↔ trailingBackslashes g % 2 = 1)
  | [], _ => by simp [expressionFrom, trailingBackslashes]
  | c :: g, h => by
    obtain ⟨hopen, hg⟩ := not_or.1 (mt List.mem_cons.2 h)
    by_cases hc : c = '\\'
    · subst hc
      cases g with
      | nil => simp [expressionFrom, trailingBackslashes]
      | cons d g =>
        have hg' : '[' ∉ g := fun hmem => hg (List.mem_cons_of_mem d hmem)
        rw [trailingBackslashes_pair, ← stops_iff g hg', expressionFrom, map_eq_error_iff]
    · obtain ⟨e, he⟩ := exists_element (Ne.symm hopen) hc
      have htrailing : trailingBackslashes (c :: g) = trailingBackslashes g := by
        rw [trailingBackslashes_cons, if_neg fun hall => hc hall.2]
      rw [htrailing, ← stops_iff g hg, ← List.singleton_append, ← he, expressionFrom_element,
        map_eq_error_iff]
termination_by g => g.length

end Glob

end ExecWatch
