import ExecWatch.Proofs.Pattern.Composition

/-!
# What a bracket class denotes

A class's letters are read left to right as single characters and ranges (`items`): a letter with a
plain hyphen and another letter behind it begins a range. Two plain hyphens with a letter behind
them never reach that reading: the expression takes them for its set difference, so they cut the
letters into groups (`groups`), and the class holds what its first group lists and no later one.

* `readPieces_members`: the reader adds the items of each group, or refuses a decreasing range;
* `compile_bracket`: a glob of one class compiles to `Bracket.charClass`, unless a range decreases;
* `class_denotes_union`: where no two hyphens are cut at, the class denotes the union of its items;
  `difference_matches_slash` shows that the condition is needed.
-/

namespace ExecWatch

/-- A range does not decrease. -/
def ClassItem.Ordered : ClassItem → Prop
  | .char _ => True
  | .range low high => low ≤ high

instance : DecidablePred ClassItem.Ordered
  | .char _ => .isTrue trivial
  | .range low high => inferInstanceAs (Decidable (low ≤ high))

namespace Regex

/-! ## Adding items to a class under way -/

/-- The class of a first group of items and of the groups removed from it. -/
def classOfGroups (negated : Bool) : List (List ClassItem) → CharClass
  | [] => ⟨negated, [], []⟩
  | items :: removed => ⟨negated, items, removed⟩

namespace OpenClass

/-- Adds items in order; a decreasing range is refused. -/
def addItems (o : OpenClass) : List ClassItem → Except Error OpenClass
  | [] => .ok o
  | i :: later => if i.Ordered then (o.add i).addItems later else .error .decreasingRange

/-- Adds a group of items, and removes the groups behind it. -/
def addGroups (o : OpenClass) (group : List ClassItem) :
    List (List ClassItem) → Except Error OpenClass
  | [] => o.addItems group
  | next :: later => do (← o.addItems group).remove.addGroups next later

theorem close_eq (o : OpenClass) : o.close = classOfGroups o.negated (o.earlier ++ [o.current]) := by
  unfold close
  cases o.earlier <;> rfl

theorem addItems_eq (o : OpenClass) (items : List ClassItem) :
    o.addItems items =
      if ∀ i ∈ items, i.Ordered then .ok { o with current := o.current ++ items }
      else .error .decreasingRange := by
  induction items generalizing o with
  | nil => simp [addItems]
  | cons i later ih => by_cases hi : i.Ordered <;> simp [addItems, hi, ih, add]

theorem addGroups_close (o : OpenClass) (group : List ClassItem) (later : List (List ClassItem)) :
    (o.addGroups group later).map close =
      if ∀ g ∈ group :: later, ∀ i ∈ g, i.Ordered then
        .ok (classOfGroups o.negated (o.earlier ++ (o.current ++ group) :: later))
      else .error .decreasingRange := by
  induction later generalizing o group with
  | nil =>
    rw [addGroups, addItems_eq]
    by_cases h : ∀ i ∈ group, i.Ordered
    · rw [if_pos h, if_pos (by simpa using h), Except.map, close_eq]
    · rw [if_neg h, if_neg (by simpa using h)]
      rfl
  | cons next later ih =>
    rw [addGroups, addItems_eq]
    by_cases h : ∀ i ∈ group, i.Ordered
    · rw [if_pos h]
      have hcons : (∀ g ∈ group :: next :: later, ∀ i ∈ g, i.Ordered) ↔
          ∀ g ∈ next :: later, ∀ i ∈ g, i.Ordered :=
        List.forall_mem_cons.trans (and_iff_right h)
      change (addGroups _ next later).map close = _
      rw [ih]
      simp only [hcons, remove, List.append_assoc, List.singleton_append, List.nil_append]
    · rw [if_neg h, if_neg fun hall => h (hall group List.mem_cons_self)]
      rfl

end OpenClass

/-! ## The reader inside a class -/

/-- A token that stands for its character inside a class, whatever is before it. -/
def Inert (t : Token) : Prop := ∀ c ∈ [']', '-', '[', '&', '~'], t ≠ .plain c

section
variable {t : Token} (h : Inert t) (cls : OpenClass)
include h

theorem stepInside_inert (w : Waiting) :
    stepInside cls w t =
      match w with
      | .nothing => .ok (.inside cls (.char t.char))
      | .dash => .ok (.inside (cls.add (.char '-')) (.char t.char))
      | .char c => .ok (.inside (cls.add (.char c)) (.char t.char))
      | .charDash c =>
        if c ≤ t.char then .ok (.inside (cls.add (.range c t.char)) .nothing)
        else .error .decreasingRange := by
  have hne : ∀ c ∈ [']', '-', '[', '&', '~'], t ≠ .plain c := h
  simp only [List.mem_cons, List.not_mem_nil, or_false, forall_eq_or_imp, forall_eq] at hne
  obtain ⟨h1, h2, h3, h4, h5⟩ := hne
  unfold stepInside
  cases w <;> split <;> simp_all
end

end Regex

namespace Glob

open Regex (Token OpenClass Waiting readPieces stepInside)

/-! ## Items and groups of letters -/

/-- The items of a group of letters, left to right: a letter with a plain hyphen and another letter
behind it begins a range. -/
def items : List Letter → List ClassItem
  | low :: .plain '-' :: high :: later => .range low.char high.char :: items later
  | l :: later => .char l.char :: items later
  | [] => []

/-- Letters cut at each pair of plain hyphens that another letter follows: those before the first
pair, and those behind each. -/
def groups : List Letter → List Letter × List (List Letter)
  | .plain '-' :: .plain '-' :: l :: later =>
    ([], (groups (l :: later)).1 :: (groups (l :: later)).2)
  | l :: later => (l :: (groups later).1, (groups later).2)
  | [] => ([], [])

/-- A letter that is read as itself wherever it stands: no plain hyphen with a letter behind it. -/
def Literal (l : Letter) (later : List Letter) : Prop := ¬ (l = .plain '-' ∧ later ≠ [])

instance (l : Letter) (later : List Letter) : Decidable (Literal l later) :=
  inferInstanceAs (Decidable (¬ _))

theorem inert_charToken (c : Char) : Regex.Inert (charToken c) := by
  have hescaped : [']', '-', '[', '&', '~'].all needsEscape = true := by decide +kernel
  intro d hd
  exact charToken_ne (List.all_eq_true.1 hescaped d hd) c

theorem char_charToken (c : Char) : (charToken c).char = c := by
  unfold charToken
  split <;> rfl

section
variable {l : Letter} {later : List Letter}

theorem not_literal (h : ¬ Literal l later) : l = .plain '-' ∧ ∃ m ms, later = m :: ms := by
  obtain ⟨hl, hlater⟩ := Decidable.not_not.1 h
  exact ⟨hl, List.exists_cons_of_ne_nil hlater⟩

theorem memberTokens_literal (h : Literal l later) :
    memberTokens (l :: later) = charToken l.char :: memberTokens later := by
  rw [memberTokens, if_neg h]

theorem memberTokens_hyphen (h : later ≠ []) :
    memberTokens (.plain '-' :: later) = .plain '-' :: memberTokens later := by
  rw [memberTokens, if_pos ⟨rfl, h⟩]

theorem groups_literal (h : Literal l later) :
    groups (l :: later) = (l :: (groups later).1, (groups later).2) := by
  rw [groups]
  rintro m ms rfl rfl
  exact h ⟨rfl, by simp⟩

/-- A hyphen with a literal letter behind it is no cut. -/
theorem groups_hyphen (h : Literal l later) :
    groups (.plain '-' :: l :: later) =
      (.plain '-' :: l :: (groups later).1, (groups later).2) := by
  rw [groups, groups_literal h]
  rintro m ms - ⟨⟩
  exact h ⟨rfl, by simp⟩

theorem items_literal (first : Letter) (h : Literal l later) :
    items (first :: l :: (groups later).1) = .char first.char :: items (l :: (groups later).1) := by
  rw [items]
  intro high g heq
  obtain ⟨rfl, hg⟩ := List.cons.inj heq
  have hlater : later = [] := by
    by_contra hne
    exact h ⟨rfl, hne⟩
  rw [hlater] at hg
  cases hg

end

end Glob

namespace Regex

theorem OpenClass.addGroups_cons (o : OpenClass) (i : ClassItem) (group : List ClassItem)
    (later : List (List ClassItem)) :
    o.addGroups (i :: group) later =
      if i.Ordered then (o.add i).addGroups group later else .error .decreasingRange := by
  by_cases h : i.Ordered
  · rw [if_pos h]
    cases later <;> rw [addGroups, addGroups, addItems, if_pos h]
  · rw [if_neg h]
    cases later <;> rw [addGroups, addItems, if_neg h]
    rfl

section
variable {cls : OpenClass} {w w' : Waiting} {t : Token} {toks : List Token}

theorem readPieces_inside_step {cls' : OpenClass} (h : stepInside cls w t = .ok (.inside cls' w'))
    (toks : List Token) :
    readPieces (.inside cls w) (t :: toks) = readPieces (.inside cls' w') toks := by
  refine readPieces_of_move ?_ toks
  rw [step, h]
  rfl

theorem readPieces_inside_error {e : Error} (h : stepInside cls w t = .error e)
    (toks : List Token) :
    readPieces (.inside cls w) (t :: toks) = .error e := by
  refine readPieces_of_error ?_ toks
  rw [step, h]
  rfl

end

end Regex

namespace Glob

open Regex (Token OpenClass readPieces readPieces_inside_step readPieces_inside_error)

/-! ## The letters of a class -/

/-- A class under way with the items of some letters, group by group; `front` are the letters of the
first group that were read before. -/
def addLetters (cls : OpenClass) (front later : List Letter) : Except Regex.Error OpenClass :=
  cls.addGroups (items (front ++ (groups later).1)) ((groups later).2.map items)

/-- What the reader makes of a class whose remaining letters are given, and of what follows its
closing bracket. -/
def readLetters (cls : OpenClass) (front later : List Letter) (rest : List Token) :
    Except Regex.Error (List Regex.Piece) :=
  (addLetters cls front later).map OpenClass.close >>= fun c => readPieces (.after c) rest

theorem stepInside_charToken (cls : OpenClass) (w : Regex.Waiting) (c : Char) :
    Regex.stepInside cls w (charToken c) =
      match w with
      | .nothing => .ok (.inside cls (.char c))
      | .dash => .ok (.inside (cls.add (.char '-')) (.char c))
      | .char d => .ok (.inside (cls.add (.char d)) (.char c))
      | .charDash d =>
        if d ≤ c then .ok (.inside (cls.add (.range d c)) .nothing)
        else .error .decreasingRange := by
  rw [Regex.stepInside_inert (inert_charToken c), char_charToken]

theorem stepInside_hyphen (cls : OpenClass) (w : Regex.Waiting) :
    Regex.stepInside cls w (.plain '-') =
      match w with
      | .nothing => .ok (.inside cls .dash)
      | .dash => .ok (.inside cls.remove .nothing)
      | .char d => .ok (.inside cls (.charDash d))
      | .charDash d => .ok (.inside (cls.add (.char d)).remove .nothing) := by
  cases w <;> rfl

mutual

/-- Letters that begin a group. -/
theorem readPieces_group (cls : OpenClass) (rest : List Token) : ∀ ls : List Letter,
    readPieces (.inside cls .nothing) (memberTokens ls ++ .plain ']' :: rest) =
      readLetters cls [] ls rest
  | [] => Regex.readPieces_of_move rfl rest
  | l :: later => by
    by_cases hl : Literal l later
    · rw [memberTokens_literal hl, List.cons_append,
        readPieces_inside_step (stepInside_charToken cls .nothing _),
        readPieces_behind cls rest l later]
      simp only [readLetters, addLetters, groups_literal hl, List.nil_append, List.singleton_append]
    · obtain ⟨rfl, m, ms, rfl⟩ := not_literal hl
      -- a hyphen that begins a group is itself a single character, unless one more follows it
      rw [memberTokens_hyphen (List.cons_ne_nil m ms), List.cons_append,
        readPieces_inside_step (stepInside_hyphen cls .nothing)]
      by_cases hm : Literal m ms
      · rw [memberTokens_literal hm, List.cons_append,
          readPieces_inside_step (stepInside_charToken cls .dash _),
          readPieces_behind _ rest m ms]
        simp only [readLetters, addLetters, groups_hyphen hm, List.nil_append,
          List.singleton_append, items_literal (.plain '-') hm, OpenClass.addGroups_cons]
        rfl
      · obtain ⟨rfl, k, ks, rfl⟩ := not_literal hm
        rw [memberTokens_hyphen (List.cons_ne_nil k ks), List.cons_append,
          readPieces_inside_step (stepInside_hyphen cls .dash),
          readPieces_group cls.remove rest (k :: ks)]
        rfl
termination_by ls => ls.length

/-- Letters behind one that may begin a range. -/
theorem readPieces_behind (cls : OpenClass) (rest : List Token) (first : Letter) :
    ∀ ls : List Letter,
    readPieces (.inside cls (.char first.char)) (memberTokens ls ++ .plain ']' :: rest) =
      readLetters cls [first] ls rest
  | [] => Regex.readPieces_of_move rfl rest
  | l :: later => by
    by_cases hl : Literal l later
    · rw [memberTokens_literal hl, List.cons_append,
        readPieces_inside_step (stepInside_charToken cls (.char first.char) _),
        readPieces_behind _ rest l later]
      simp only [readLetters, addLetters, groups_literal hl, List.singleton_append,
        items_literal first hl, OpenClass.addGroups_cons]
      rfl
    · obtain ⟨rfl, m, ms, rfl⟩ := not_literal hl
      -- a hyphen behind a letter makes a range with what follows, unless that is one more hyphen
      rw [memberTokens_hyphen (List.cons_ne_nil m ms), List.cons_append,
        readPieces_inside_step (stepInside_hyphen cls (.char first.char))]
      by_cases hm : Literal m ms
      · rw [memberTokens_literal hm, List.cons_append]
        simp only [readLetters, addLetters, groups_hyphen hm, List.singleton_append, items,
          OpenClass.addGroups_cons]
        have hstep := stepInside_charToken cls (.charDash first.char) m.char
        by_cases hle : first.char ≤ m.char
        · have hordered : (ClassItem.range first.char m.char).Ordered := hle
          rw [if_pos hordered, readPieces_inside_step (hstep.trans (if_pos hle)),
            readPieces_group _ rest ms]
          rfl
        · have hdecreasing : ¬ (ClassItem.range first.char m.char).Ordered := hle
          rw [if_neg hdecreasing, readPieces_inside_error (hstep.trans (if_neg hle))]
          rfl
      · obtain ⟨rfl, k, ks, rfl⟩ := not_literal hm
        rw [memberTokens_hyphen (List.cons_ne_nil k ks), List.cons_append,
          readPieces_inside_step (stepInside_hyphen cls (.charDash first.char)),
          readPieces_group _ rest (k :: ks)]
        rfl
termination_by ls => ls.length

end

/-! ## The whole class -/

namespace Bracket

variable (k : Bracket)

/-- The items of each group of the class's letters, the first letter's group first. A negated class
lists `/` as well. -/
def itemGroups : List (List ClassItem) :=
  ((if k.sign.isSome then [.char '/'] else []) ++ items (k.first :: (groups k.others).1)) ::
    (groups k.others).2.map items

def charClass : CharClass := Regex.classOfGroups k.sign.isSome k.itemGroups

/-- No range of the class decreases. -/
def Ordered : Prop := ∀ g ∈ k.itemGroups, ∀ i ∈ g, i.Ordered

instance : Decidable k.Ordered := inferInstanceAs (Decidable (∀ g ∈ k.itemGroups, _))

end Bracket

/-- The class under way before its first letter. -/
def Bracket.opening (k : Bracket) : OpenClass :=
  if k.sign.isSome then (OpenClass.start true).add (.char '/') else .start false

theorem readPieces_bracket (k : Bracket) (rest : List Token) :
    readPieces .between ((Element.cls k).tokens ++ rest) =
      readLetters k.opening [k.first] k.others rest := by
  rw [Element.tokens, List.cons_append, Regex.readPieces_of_move rfl, List.append_assoc]
  unfold Bracket.tokens Bracket.opening
  by_cases hsign : k.sign.isSome
  · have hslash : Regex.stepInside (.start true) .nothing (.plain '/') =
        .ok (.inside (.start true) (.char '/')) := rfl
    simp only [hsign, ↓reduceIte, List.cons_append, List.nil_append]
    rw [Regex.readPieces_of_move rfl, readPieces_inside_step hslash,
      readPieces_inside_step (stepInside_charToken _ (.char '/') _), readPieces_behind]
  · simp only [hsign, Bool.false_eq_true, ↓reduceIte, List.cons_append, List.nil_append]
    rw [Regex.readPieces_opened (charToken_ne (by decide +kernel) _),
      readPieces_inside_step (stepInside_charToken _ .nothing _), readPieces_behind]

theorem addLetters_bracket (k : Bracket) :
    (addLetters k.opening [k.first] k.others).map OpenClass.close =
      if k.Ordered then .ok k.charClass else .error .decreasingRange := by
  rw [addLetters, OpenClass.addGroups_close]
  unfold Bracket.Ordered Bracket.charClass Bracket.itemGroups Bracket.opening
  by_cases hsign : k.sign.isSome
  · have hslash : (ClassItem.char '/').Ordered := trivial
    simp [hsign, OpenClass.start, OpenClass.add, hslash]
  · simp [hsign, OpenClass.start]

theorem readsAs_charClass (k : Bracket) :
    ReadsAs (Element.cls k).tokens
      ((if k.Ordered then .ok k.charClass else .error .decreasingRange : Except _ _).map .one) := by
  refine readsAs_of_after fun rest => ?_
  rw [readPieces_bracket, readLetters, addLetters_bracket]

/-- **A glob of one class** compiles to that class, unless one of its ranges decreases. -/
theorem compile_bracket {glob : String} {k : Bracket} (h : k.text = glob.toList) :
    compile glob =
      if k.Ordered then .ok ⟨[.one k.charClass]⟩ else .error (.notCompiled glob .decreasingRange) := by
  have hspelled : [Element.cls k].flatMap Element.text = glob.toList := by
    rw [List.flatMap_singleton]
    exact h
  rw [compile_elements hspelled, List.flatMap_singleton, (readsAs_charClass k).alone]
  by_cases hordered : k.Ordered
  · rw [if_pos hordered, if_pos hordered]
    rfl
  · rw [if_neg hordered, if_neg hordered]
    rfl

/-! ## Classes without a difference -/

/-- Two plain hyphens follow each other behind the first letter, with another letter behind them. -/
def Bracket.HasDifference (k : Bracket) : Prop :=
  ∃ l, [.plain '-', .plain '-', l] <:+: k.others

/-- The singles and ranges that the class's letters make, read left to right. -/
def Bracket.listedItems (k : Bracket) : List ClassItem := items (k.first :: k.others)

/-- The character is one of the singles or in one of the ranges; for a negated class, it is neither
that nor `/`. -/
def Bracket.Denotes (k : Bracket) (c : Char) : Prop :=
  if k.sign.isSome then c ≠ '/' ∧ ¬ ∃ i ∈ k.listedItems, i.mem c = true
  else ∃ i ∈ k.listedItems, i.mem c = true

/-- Letters are cut exactly at hyphens of that kind. -/
theorem groups_eq_self_iff (ls : List Letter) :
    groups ls = (ls, []) ↔ ¬ ∃ l, [.plain '-', .plain '-', l] <:+: ls := by
  fun_induction groups ls with
  | case1 l later ih =>
    constructor
    · rintro ⟨⟩
    · rintro h
      exact absurd ⟨l, [], later, rfl⟩ h
  | case2 l later hcut ih =>
    have hcons : (∃ m, [.plain '-', .plain '-', m] <:+: l :: later) ↔
        ∃ m, [.plain '-', .plain '-', m] <:+: later := by
      refine exists_congr fun m => ⟨fun h => ?_, fun h => h.trans (List.infix_cons (List.infix_refl _))⟩
      rcases List.infix_cons_iff.1 h with ⟨after, hafter⟩ | h
      · obtain ⟨rfl, rfl⟩ := List.cons.inj hafter
        exact absurd rfl (hcut m after rfl)
      · exact h
    rw [hcons, ← ih, Prod.ext_iff, Prod.ext_iff]
    simp
  | case3 => simp

section
variable {k : Bracket} (h : ¬ k.HasDifference)
include h

theorem ordered_iff_of_plain : k.Ordered ↔ ∀ i ∈ k.listedItems, i.Ordered := by
  have hgroups := (groups_eq_self_iff k.others).2 h
  unfold Bracket.Ordered Bracket.itemGroups Bracket.listedItems
  rw [hgroups]
  by_cases hsign : k.sign.isSome
  · have hslash : (ClassItem.char '/').Ordered := trivial
    simp [hsign, hslash]
  · simp [hsign]

theorem charClass_mem_of_plain (c : Char) : k.charClass.mem c = true ↔ k.Denotes c := by
  have hgroups := (groups_eq_self_iff k.others).2 h
  unfold Bracket.charClass Bracket.itemGroups Bracket.Denotes Bracket.listedItems
  rw [hgroups]
  by_cases hsign : k.sign.isSome
  · simp [hsign, Regex.classOfGroups, CharClass.mem, CharClass.listed, ClassItem.mem]
  · simp [hsign, Regex.classOfGroups, CharClass.mem, CharClass.listed]

end

/-- A glob that begins with a bracket and compiles begins with a class. -/
theorem bracket_of_compile {glob : String} {r : Regex} (h : compile glob = .ok r)
    (hopen : ['['] <+: glob.toList) :
    ∃ (k : Bracket) (rest : List Char), k.text ++ rest = glob.toList := by
  obtain ⟨es, hes⟩ := spelled_of_compile h
  rw [← hes] at hopen ⊢
  match es with
  | [] => cases List.prefix_nil.1 hopen
  | .cls k :: es => exact ⟨k, _, rfl⟩
  | .any :: es => cases (List.cons_prefix_cons.1 hopen).1
  | .run :: es => cases (List.cons_prefix_cons.1 hopen).1
  | .letter (.escaped c) _ :: es => cases (List.cons_prefix_cons.1 hopen).1
  | .letter (.plain c) havoids :: es =>
    obtain rfl := (List.cons_prefix_cons.1 hopen).1
    exact absurd rfl (havoids '[' (by decide))

/-- **A class denotes the union of its items.** A glob of one class without a difference compiles
exactly if no range decreases, and then matches the names of one character that the class denotes. A
glob that begins with a bracket but with no class, one that is not closed or holds an unpaired
backslash, does not compile. -/
theorem class_denotes_union (glob : String) :
    (∀ k : Bracket, k.text = glob.toList → ¬ k.HasDifference →
      ((∃ r, compile glob = .ok r) ↔ ∀ i ∈ k.listedItems, i.Ordered) ∧
      ∀ r, compile glob = .ok r → ∀ name : List Char,
        r.isMatch name = true ↔ ∃ c, name = [c] ∧ k.Denotes c) ∧
    (['['] <+: glob.toList → (∀ (k : Bracket) (rest : List Char), k.text ++ rest ≠ glob.toList) →
      ∃ e, compile glob = .error e) := by
  refine ⟨fun k hk hplain => ?_, fun hopen hnone => ?_⟩
  · rw [compile_bracket hk, ← ordered_iff_of_plain hplain]
    by_cases hordered : k.Ordered
    · rw [if_pos hordered]
      refine ⟨⟨fun _ => hordered, fun _ => ⟨_, rfl⟩⟩, ?_⟩
      rintro r ⟨⟩ name
      simp only [isMatch_class, charClass_mem_of_plain hplain]
    · rw [if_neg hordered]
      refine ⟨⟨?_, fun h => absurd h hordered⟩, ?_⟩
      · rintro ⟨r, ⟨⟩⟩
      · rintro r ⟨⟩
  · cases hcompile : compile glob with
    | error e => exact ⟨e, rfl⟩
    | ok r =>
      obtain ⟨k, rest, hk⟩ := bracket_of_compile hcompile hopen
      exact absurd hk (hnone k rest)

/-- `[!a-c\]-]`: neither `/` nor one of `a` to `c`, nor `]` or `-`. -/
def sampleClass : Bracket :=
  ⟨some .bang, .plain 'a', [.plain '-', .plain 'c', .escaped ']', .plain '-'], by decide +kernel,
    by decide +kernel⟩

theorem class_denotes_union_sample :
    (sampleClass.text = "[!a-c\\]-]".toList ∧ ¬ sampleClass.HasDifference ∧
      ∃ r, compile "[!a-c\\]-]" = .ok r ∧
        (r.isMatch ['b'] = true ↔ ∃ c, ['b'] = [c] ∧ sampleClass.Denotes c)) ∧
    ['['] <+: "[a-\\".toList ∧ ∃ e, compile "[a-\\" = .error e := by
  have htext : sampleClass.text = "[!a-c\\]-]".toList := by decide +kernel
  have hplain : ¬ sampleClass.HasDifference :=
    (groups_eq_self_iff sampleClass.others).1 (by decide +kernel)
  obtain ⟨haccepts, hmatches⟩ := (class_denotes_union _).1 sampleClass htext hplain
  obtain ⟨r, hr⟩ := haccepts.2 (by decide +kernel)
  have hopen : ['['] <+: "[a-\\".toList := by decide +kernel
  have hnone (k : Bracket) (rest : List Char) : k.text ++ rest ≠ "[a-\\".toList := by
    intro hk
    have hclose : ']' ∈ k.text ++ rest := by simp [Bracket.text, Bracket.membersText]
    rw [hk] at hclose
    exact absurd hclose (by decide +kernel)
  exact ⟨⟨htext, hplain, r, hr, hmatches r hr _⟩, hopen, (class_denotes_union _).2 hopen hnone⟩

/-- `[!+--,/]`, whose letters make the range from `+` to `-`, a comma and a slash. -/
def differenceClass : Bracket :=
  ⟨some .bang, .plain '+', [.plain '-', .plain '-', .plain ',', .plain '/'], by decide +kernel,
    by decide +kernel⟩

/-- A class with a difference need not denote the union of its items: this one is negated and
matches `/`. -/
theorem difference_matches_slash :
    differenceClass.text = "[!+--,/]".toList ∧ (∀ i ∈ differenceClass.listedItems, i.Ordered) ∧
      ∃ r, compile "[!+--,/]" = .ok r ∧ r.isMatch ['/'] = true ∧ ¬ differenceClass.Denotes '/' := by
  have htext : differenceClass.text = "[!+--,/]".toList := by decide +kernel
  have hordered : differenceClass.Ordered := by decide +kernel
  refine ⟨htext, by decide +kernel, _, (compile_bracket htext).trans (if_pos hordered), ?_, ?_⟩
  · decide +kernel
  · intro h
    exact h.1 rfl

end Glob

end ExecWatch
