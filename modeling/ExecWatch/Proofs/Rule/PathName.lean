import ExecWatch.Rule.PathName

/-!
# The last element of a path

`LastElement path name` says where the last element of a path stands, without a direction in which the path is
read: behind nothing or a slash, and before slashes only.

* `exists_lastElement`: every path has one unless it is made of slashes only;
* `LastElement.baseName_eq`: the base name is what stands there, so there is at most one;
* `baseName_last_element`: the base name of every path, and what does not change it.
-/

namespace ExecWatch.PathName

/-- The text is made of slashes only; the empty text is. -/
def Slashes (text : List Char) : Prop := ∀ c ∈ text, c = '/'

instance (text : List Char) : Decidable (Slashes text) :=
  List.decidableBAll (fun c => c = '/') text

/-- The text can stand before an element: it is empty or ends in a slash. -/
def Leads (text : List Char) : Prop := text = [] ∨ ∃ front, text = front ++ ['/']

/-- `name` is the last element of `path`: a text without slashes that stands behind nothing or a slash, and
before slashes only. -/
structure LastElement (path name : List Char) : Prop where
  ne_nil : name ≠ []
  no_slash : '/' ∉ name
  stands : ∃ front behind, path = front ++ name ++ behind ∧ Leads front ∧ Slashes behind

section
variable {path name front text : List Char}

/-! ## Where elements stand -/

theorem slashes_cons {c : Char} : Slashes (c :: text) ↔ c = '/' ∧ Slashes text :=
  List.forall_mem_cons

/-- An element is the last one of the path in front of it and itself. -/
theorem lastElement_append (hfront : Leads front) (hne : name ≠ []) (hslash : '/' ∉ name) :
    LastElement (front ++ name) name :=
  ⟨hne, hslash, front, [], by rw [List.append_nil], hfront, nofun⟩

theorem lastElement_self (hne : name ≠ []) (hslash : '/' ∉ name) : LastElement name name :=
  lastElement_append (.inl rfl) hne hslash

/-- Behind a slash an element is the last one, whatever stands before the slash. -/
theorem lastElement_join (directory : List Char) (hne : name ≠ []) (hslash : '/' ∉ name) :
    LastElement (directory ++ '/' :: name) name := by
  rw [List.append_cons]
  exact lastElement_append (.inr ⟨directory, rfl⟩) hne hslash

theorem LastElement.append_slashes (h : LastElement path name) (htext : Slashes text) :
    LastElement (path ++ text) name := by
  obtain ⟨hne, hslash, front, behind, rfl, hfront, hbehind⟩ := h
  refine ⟨hne, hslash, front, behind ++ text, by simp only [List.append_assoc], hfront, fun c hc => ?_⟩
  rcases List.mem_append.1 hc with hc | hc
  · exact hbehind c hc
  · exact htext c hc

/-- **Every path has a last element**, unless it is made of slashes only. -/
theorem exists_lastElement (h : ¬ Slashes path) : ∃ name, LastElement path name := by
  -- on the path; its first character belongs to what leads, or begins the element
  induction path with
  | nil => exact absurd nofun h
  | cons c path ih =>
    by_cases hpath : Slashes path
    · have hc : c ≠ '/' := fun hc => h (slashes_cons.2 ⟨hc, hpath⟩)
      have hself : LastElement [c] [c] :=
        lastElement_self (List.cons_ne_nil c []) (by simpa using Ne.symm hc)
      exact ⟨[c], hself.append_slashes hpath⟩
    · obtain ⟨name, hne, hslash, front, behind, rfl, hfront, hbehind⟩ := ih hpath
      rcases hfront with rfl | ⟨front, rfl⟩
      · by_cases hc : c = '/'
        · exact ⟨name, hne, hslash, ['/'], behind, by rw [hc]; rfl, .inr ⟨[], rfl⟩, hbehind⟩
        · refine ⟨c :: name, by simp, ?_, [], behind, rfl, .inl rfl, hbehind⟩
          simpa using ⟨Ne.symm hc, hslash⟩
      · exact ⟨name, hne, hslash, c :: (front ++ ['/']), behind, rfl, .inr ⟨c :: front, rfl⟩, hbehind⟩

/-! ## The base name -/

theorem trimSlashes_append (h : Slashes text) : trimSlashes (path ++ text) = trimSlashes path := by
  have htext : ∀ c ∈ text.reverse, decide (c = '/') = true := fun c hc =>
    decide_eq_true (h c (List.mem_reverse.1 hc))
  rw [trimSlashes, List.reverse_append, List.dropWhile_append_of_pos htext, ← trimSlashes]

theorem trimSlashes_eq_nil (h : Slashes path) : trimSlashes path = [] := by
  rw [← List.nil_append path, trimSlashes_append h]
  rfl

/-- Nothing is trimmed from a path that ends in an element. -/
theorem trimSlashes_name (hne : name ≠ []) (hslash : '/' ∉ name) :
    trimSlashes (front ++ name) = front ++ name := by
  obtain ⟨c, rest, hrest⟩ := List.exists_cons_of_ne_nil (mt List.reverse_eq_nil_iff.1 hne)
  have hc : c ≠ '/' := by
    rintro rfl
    exact hslash (List.mem_reverse.1 (hrest ▸ List.mem_cons_self))
  rw [trimSlashes, List.reverse_append, hrest, List.cons_append,
    List.dropWhile_cons_of_neg (by simpa using hc), ← List.cons_append, ← hrest, ← List.reverse_append,
    List.reverse_reverse]

theorem afterLastSlash_name (hfront : Leads front) (hslash : '/' ∉ name) :
    afterLastSlash (front ++ name) = name := by
  have hname : ∀ c ∈ name.reverse, decide (c ≠ '/') = true := by
    intro c hc
    refine decide_eq_true ?_
    rintro rfl
    exact hslash (List.mem_reverse.1 hc)
  have hstop : front.reverse.takeWhile (· ≠ '/') = [] := by
    rcases hfront with rfl | ⟨front, rfl⟩
    · rfl
    · rw [List.reverse_append]
      rfl
  rw [afterLastSlash, List.reverse_append, List.takeWhile_append_of_pos hname, hstop, List.append_nil,
    List.reverse_reverse]

theorem baseName_of_trimmed (h : trimSlashes path ≠ []) :
    baseName path = afterLastSlash (trimSlashes path) := by
  have hne : path ≠ [] := by
    rintro rfl
    exact h rfl
  simp [baseName, hne, h]

theorem baseName_slashes (hne : path ≠ []) (h : Slashes path) : baseName path = ['/'] := by
  simp [baseName, hne, trimSlashes_eq_nil h]

/-- **The base name is the last element.** -/
theorem LastElement.baseName_eq (h : LastElement path name) : baseName path = name := by
  obtain ⟨hne, hslash, front, behind, rfl, hfront, hbehind⟩ := h
  have htrim : trimSlashes (front ++ name ++ behind) = front ++ name := by
    rw [trimSlashes_append hbehind, trimSlashes_name hne hslash]
  have hsome : trimSlashes (front ++ name ++ behind) ≠ [] := by
    rw [htrim]
    exact List.append_ne_nil_of_right_ne_nil front hne
  rw [baseName_of_trimmed hsome, htrim, afterLastSlash_name hfront hslash]

theorem lastElement_iff (h : ¬ Slashes path) : LastElement path name ↔ baseName path = name := by
  obtain ⟨last, hlast⟩ := exists_lastElement h
  constructor
  · exact LastElement.baseName_eq
  · rintro rfl
    rwa [hlast.baseName_eq]

/-- Slashes at the end of a path do not change its base name. -/
theorem baseName_append_slashes (hne : path ≠ []) (htext : Slashes text) :
    baseName (path ++ text) = baseName path := by
  by_cases h : Slashes path
  · have hall : Slashes (path ++ text) := fun c hc => (List.mem_append.1 hc).elim (h c) (htext c)
    rw [baseName_slashes hne h, baseName_slashes (by simp [hne]) hall]
  · obtain ⟨name, hname⟩ := exists_lastElement h
    rw [hname.baseName_eq, (hname.append_slashes htext).baseName_eq]

theorem baseName_baseName (path : List Char) : baseName (baseName path) = baseName path := by
  by_cases h : Slashes path
  · cases path with
    | nil => rfl
    | cons c path =>
      rw [baseName_slashes (List.cons_ne_nil c path) h]
      rfl
  · obtain ⟨name, hname⟩ := exists_lastElement h
    rw [hname.baseName_eq, (lastElement_self hname.ne_nil hname.no_slash).baseName_eq]

end

/-- **The base name of a path**: `.` for the empty path, `/` for slashes, and else the one last element. To
take it again changes nothing, nor do slashes at the end of a path, and behind a slash every element is it. -/
theorem baseName_last_element :
    (∀ path : List Char,
      (path = [] → baseName path = ['.']) ∧
      (path ≠ [] → Slashes path → baseName path = ['/']) ∧
      (¬ Slashes path → ∀ name, LastElement path name ↔ baseName path = name)) ∧
    (∀ path, baseName (baseName path) = baseName path) ∧
    (∀ path slashes, path ≠ [] → Slashes slashes → baseName (path ++ slashes) = baseName path) ∧
    ∀ directory name, name ≠ [] → '/' ∉ name → baseName (directory ++ '/' :: name) = name := by
  refine ⟨fun path => ⟨?_, baseName_slashes, fun h name => lastElement_iff h⟩, baseName_baseName,
    fun path slashes => baseName_append_slashes,
    fun directory name hne hslash => (lastElement_join directory hne hslash).baseName_eq⟩
  rintro rfl
  rfl

/-- Slashes alone, and a path with slashes in front, inside and behind. -/
theorem baseName_last_element_nested :
    baseName [] = ['.'] ∧ Slashes ['/', '/'] ∧ baseName ['/', '/'] = ['/'] ∧
      ¬ Slashes "//srv//caf\u00e9//".toList ∧ LastElement "//srv//caf\u00e9//".toList "caf\u00e9".toList ∧
      baseName ("//srv//caf\u00e9//".toList ++ ['/', '/']) = "caf\u00e9".toList ∧
      baseName (baseName "//srv//caf\u00e9//".toList) = "caf\u00e9".toList ∧
      baseName ("//srv//".toList ++ '/' :: "caf\u00e9".toList) = "caf\u00e9".toList := by
  obtain ⟨hpath, hagain, hslashes, hjoin⟩ := baseName_last_element
  have hroot : Slashes ['/', '/'] := by decide
  have hnot : ¬ Slashes "//srv//caf\u00e9//".toList := by decide +kernel
  have hbase : baseName "//srv//caf\u00e9//".toList = "caf\u00e9".toList := by decide +kernel
  refine ⟨(hpath []).1 rfl, hroot, (hpath _).2.1 (List.cons_ne_nil _ _) hroot, hnot,
    ((hpath _).2.2 hnot _).2 hbase, ?_, ?_, hjoin _ _ (by decide +kernel) (by decide +kernel)⟩
  · rw [hslashes _ _ (by decide +kernel) hroot, hbase]
  · rw [hagain, hbase]

end ExecWatch.PathName
