import ExecWatch.Settings.KeyPath
import ExecWatch.Settings.OfValue

/-!
# Gathered members by key

What operations on members do to the member of a key, and what reading them makes of it:

* `lookup_update`, `lookup_merge`, `lookup_mergeEntries`: what stands at a key afterwards;
* `nodup_update` to `nodup_overlay`: members that are gathered have no key twice;
* `ofMembers_eq_ok_iff`: members are read exactly when what stands at each key of the settings can be
  converted; what is missing has its default, and other keys do not count. `toToggles_table_iff` says the
  same of the two toggles.
-/

namespace ExecWatch.Settings

namespace Members

variable {members : Members} {key k : String} {dflt value : Value} {f : Value → Value}

def keys (members : Members) : List String := members.map (·.1)

/-! ## What stands at a key -/

theorem lookup_cons_eq {α : Type} (m : String × α) (rest : List (String × α)) :
    List.lookup k (m :: rest) = if k = m.1 then some m.2 else List.lookup k rest := by
  obtain ⟨first, v⟩ := m
  by_cases h : k = first
  · simp [h]
  · have hk : (k == first) = false := by simpa using h
    rw [List.lookup_cons, hk, if_neg h]

theorem lookup_update :
    (update key dflt f members).lookup k =
      if k = key then some (f ((members.lookup key).getD dflt)) else members.lookup k := by
  induction members with
  | nil => rw [update, lookup_cons_eq]; rfl
  | cons m rest ih =>
    obtain ⟨first, v⟩ := m
    unfold update
    by_cases hfirst : first = key
    · subst hfirst
      rw [if_pos rfl, lookup_cons_eq, lookup_cons_eq, lookup_cons_eq, if_pos rfl]
      by_cases h : k = first <;> simp [h]
    · rw [if_neg hfirst, lookup_cons_eq, lookup_cons_eq, lookup_cons_eq, if_neg (Ne.symm hfirst), ih]
      by_cases h : k = first
      · subst h
        simp [hfirst]
      · simp [h]

theorem lookup_set :
    (set key value members).lookup k = if k = key then some value else members.lookup k :=
  lookup_update

/-- What stands at a key after a value was put over what stood there. -/
def laidOver : Value → Option Value → Value
  | .table _ incoming, old => Value.mergeAll (old.getD .empty) incoming
  | value, _ => value

theorem lookup_merge :
    (merge members key value).lookup k =
      if k = Text.lowerCase key then some (laidOver value (members.lookup k)) else members.lookup k := by
  cases value
  case table source incoming =>
    rw [merge, lookup_update]
    split
    · rename_i h
      rw [h, laidOver]
    · rfl
  all_goals
    rw [merge, lookup_set]
    · rfl
    · nofun

/-! ## No key twice -/

theorem lookup_eq_none_iff : members.lookup k = none ↔ k ∉ members.keys := by
  induction members with
  | nil => simp [keys]
  | cons m rest ih =>
    rw [lookup_cons_eq]
    by_cases h : k = m.1 <;> simp_all [keys]

theorem mem_keys_iff : k ∈ members.keys ↔ (members.lookup k).isSome := by
  rw [← Option.ne_none_iff_isSome, ne_eq, lookup_eq_none_iff, Classical.not_not]

theorem mem_keys_update {x : String} :
    x ∈ (update key dflt f members).keys ↔ x = key ∨ x ∈ members.keys := by
  rw [mem_keys_iff, mem_keys_iff, lookup_update]
  by_cases h : x = key <;> simp [h]

theorem nodup_update (h : members.keys.Nodup) : (update key dflt f members).keys.Nodup := by
  induction members with
  | nil => simp [update, keys]
  | cons m rest ih =>
    obtain ⟨first, v⟩ := m
    obtain ⟨hnot, hrest⟩ : first ∉ keys rest ∧ (keys rest).Nodup := List.nodup_cons.1 h
    unfold update
    split
    · exact h
    · rename_i hfirst
      refine List.nodup_cons.2 ⟨fun hmem => ?_, ih hrest⟩
      rcases mem_keys_update.1 hmem with heq | hmem
      · exact hfirst heq
      · exact hnot hmem

theorem nodup_merge (h : members.keys.Nodup) : (merge members key value).keys.Nodup := by
  cases value
  case table source incoming => rw [merge]; exact nodup_update h
  all_goals
    rw [merge]
    · exact nodup_update h
    · nofun

theorem nodup_put {path : KeyPath} (h : members.keys.Nodup) : (path.put value members).keys.Nodup := by
  unfold KeyPath.put
  split
  · exact nodup_merge h
  · exact nodup_update h

theorem nodup_overlay {entries : List (String × Value)} (h : members.keys.Nodup) :
    (members.overlay entries).keys.Nodup := by
  induction entries generalizing members with
  | nil => exact h
  | cons e rest ih => exact ih (nodup_put h)

/-! ## Tables put over tables -/

/-- The first value that is named by `key`, up to case. -/
def named {α : Type} (key : String) (entries : List (String × α)) : Option α :=
  (entries.find? fun e => Text.lowerCase e.1 = key).map (·.2)

/-- No two names are alike in lower case. -/
def Distinct {α : Type} (entries : List (String × α)) : Prop :=
  (entries.map fun e => Text.lowerCase e.1).Nodup

instance {α : Type} (entries : List (String × α)) : Decidable (Distinct entries) :=
  inferInstanceAs (Decidable (entries.map fun e : String × α => Text.lowerCase e.1).Nodup)

theorem named_cons {α : Type} (e : String × α) (rest : List (String × α)) :
    named key (e :: rest) = if Text.lowerCase e.1 = key then some e.2 else named key rest := by
  unfold named
  rw [List.find?_cons]
  by_cases h : Text.lowerCase e.1 = key <;> simp [h]

theorem named_eq_none {α : Type} {entries : List (String × α)}
    (h : key ∉ entries.map fun e => Text.lowerCase e.1) : named key entries = none := by
  induction entries with
  | nil => rfl
  | cons e rest ih =>
    rw [List.map_cons, List.mem_cons, not_or] at h
    rw [named_cons, if_neg (Ne.symm h.1), ih h.2]

/-- Puts values over the members of their keys. -/
def mergeEntries (members : Members) (entries : List (String × Value)) : Members :=
  entries.foldl (fun members e => members.merge e.1 e.2) members

theorem mergeAll_table (source : Option Source) (incoming : Members) :
    Value.mergeAll (.table source members) incoming = .table source (members.mergeEntries incoming) := by
  induction incoming generalizing members with
  | nil => rw [Value.mergeAll]; rfl
  | cons e rest ih =>
    obtain ⟨first, v⟩ := e
    rw [Value.mergeAll]
    exact ih

theorem nodup_mergeEntries {entries : List (String × Value)} (h : members.keys.Nodup) :
    (members.mergeEntries entries).keys.Nodup := by
  induction entries generalizing members with
  | nil => exact h
  | cons e rest ih => exact ih (nodup_merge h)

/-- Of entries with different names, only the one that is named by a key counts there. -/
theorem lookup_mergeEntries {entries : List (String × Value)} (h : Distinct entries) :
    (members.mergeEntries entries).lookup k =
      match named k entries with
      | some v => some (laidOver v (members.lookup k))
      | none => members.lookup k := by
  induction entries generalizing members with
  | nil => rfl
  | cons e rest ih =>
    obtain ⟨hnot, hrest⟩ := List.nodup_cons.1 h
    rw [named_cons]
    show ((members.merge e.1 e.2).mergeEntries rest).lookup k = _
    rw [ih hrest, lookup_merge]
    by_cases he : Text.lowerCase e.1 = k
    · rw [named_eq_none (he ▸ hnot), if_pos he, if_pos he.symm]
    · rw [if_neg he, if_neg (Ne.symm he)]

end Members

/-! ## Reading -/

/-- The conversion of what is set, or the default. -/
def readOr {α : Type} (convert : Value → Except Mismatch α) (dflt : α) : Option Value → Except Mismatch α
  | some v => convert v
  | none => .ok dflt

namespace Value

section
variable {α β : Type} {slots : List (Slot α)} {slot : Slot α} {members : Members} {a b : α}

/-- The slot sets what `get` gets, and to what `convert` makes of the value. -/
def Slot.Sets (slot : Slot α) (get : α → β) (convert : Value → Except Mismatch β) : Prop :=
  ∀ a v b, slot.set a v = .ok b → convert v = .ok (get b)

/-- The slot leaves what `get` gets. -/
def Slot.Keeps (slot : Slot α) (get : α → β) : Prop :=
  ∀ a v b, slot.set a v = .ok b → get b = get a

/-- What is read at the key of a slot is what stands there. -/
theorem readOr_of_setMembers (get : α → β) {convert : Value → Except Mismatch β} {key : String}
    (hfind : slots.find? (·.key = key) = some slot) (hsets : slot.Sets get convert)
    (hkeeps : ∀ other ∈ slots, other.key ≠ key → other.Keeps get) (hnodup : members.keys.Nodup)
    (h : setMembers slots a members = .ok b) :
    readOr convert (get a) (members.lookup key) = .ok (get b) := by
  induction members generalizing a with
  | nil =>
    cases h
    rfl
  | cons m rest ih =>
    obtain ⟨first, v⟩ := m
    obtain ⟨hnot, hrest⟩ : first ∉ Members.keys rest ∧ (Members.keys rest).Nodup :=
      List.nodup_cons.1 hnodup
    rw [Members.lookup_cons_eq]
    unfold setMembers at h
    by_cases hfirst : key = first
    · subst hfirst
      rw [hfind] at h
      cases hset : slot.set a v with
      | error e =>
        simp only [hset] at h
        cases h
      | ok a' =>
        simp only [hset] at h
        have hread := ih hrest h
        rw [Members.lookup_eq_none_iff.2 hnot] at hread
        rw [if_pos rfl, readOr, hsets a v a' hset]
        exact hread
    · rw [if_neg hfirst]
      cases hother : slots.find? (·.key = first) with
      | none =>
        rw [hother] at h
        exact ih hrest h
      | some other =>
        rw [hother] at h
        have hkey : other.key = first := by simpa using List.find?_some hother
        cases hset : other.set a v with
        | error e =>
          simp only [hset] at h
          cases h
        | ok a' =>
          simp only [hset] at h
          rw [← hkeeps other (List.mem_of_find?_eq_some hother) (hkey ▸ Ne.symm hfirst) a v a' hset]
          exact ih hrest h

/-- Members are read when each slot takes what stands at its key. -/
theorem exists_setMembers (hnodup : members.keys.Nodup)
    (h : ∀ slot ∈ slots, ∀ v, members.lookup slot.key = some v → ∀ a, ∃ b, slot.set a v = .ok b) (a : α) :
    ∃ b, setMembers slots a members = .ok b := by
  induction members generalizing a with
  | nil => exact ⟨a, rfl⟩
  | cons m rest ih =>
    obtain ⟨first, v⟩ := m
    obtain ⟨hnot, hrest⟩ : first ∉ Members.keys rest ∧ (Members.keys rest).Nodup :=
      List.nodup_cons.1 hnodup
    have hlater : ∀ slot ∈ slots, ∀ w, rest.lookup slot.key = some w → ∀ a, ∃ b, slot.set a w = .ok b := by
      intro slot hslot w hw
      refine h slot hslot w ?_
      rw [Members.lookup_cons_eq, if_neg, hw]
      intro hkey
      rw [hkey, Members.lookup_eq_none_iff.2 hnot] at hw
      cases hw
    unfold setMembers
    cases hfind : slots.find? (·.key = first) with
    | none => exact ih hrest hlater a
    | some slot =>
      have hkey : slot.key = first := by simpa using List.find?_some hfind
      obtain ⟨a', ha'⟩ := h slot (List.mem_of_find?_eq_some hfind) v
        (by rw [Members.lookup_cons_eq, if_pos hkey]) a
      obtain ⟨b, hb⟩ := ih hrest hlater a'
      exact ⟨b, by simp only [ha']; exact hb⟩

/-- The slot puts what `convert` makes of the value into its place. -/
def Slot.Puts (slot : Slot α) (convert : Value → Except Mismatch β) (put : α → β → α) : Prop :=
  ∀ a v b, slot.set a v = .ok b ↔ ∃ x, convert v = .ok x ∧ put a x = b

theorem puts_of_convert (key : String) (required : Bool) (convert : Value → Except Mismatch β)
    (put : α → β → α) :
    Slot.Puts ⟨key, required, fun a v => do return put a (← convert v)⟩ convert put := by
  intro a v b
  show (convert v >>= fun x => pure (put a x)) = .ok b ↔ _
  cases convert v with
  | error e => exact ⟨nofun, nofun⟩
  | ok x =>
    constructor
    · intro h
      cases h
      exact ⟨x, rfl, rfl⟩
    · rintro ⟨_, hx, rfl⟩
      cases hx
      rfl

theorem Slot.Puts.sets {convert : Value → Except Mismatch β} {put : α → β → α} {get : α → β}
    (h : slot.Puts convert put) (hget : ∀ a x, get (put a x) = x) : slot.Sets get convert := by
  intro a v b hb
  obtain ⟨x, hx, rfl⟩ := (h a v b).1 hb
  rw [hx, hget]

theorem Slot.Puts.keeps {γ : Type} {convert : Value → Except Mismatch β} {put : α → β → α}
    {get : α → γ} (h : slot.Puts convert put) (hget : ∀ a x, get (put a x) = get a) :
    slot.Keeps get := by
  intro a v b hb
  obtain ⟨x, -, rfl⟩ := (h a v b).1 hb
  exact hget a x

theorem Slot.Puts.exists_set {convert : Value → Except Mismatch β} {put : α → β → α} {dflt x : β}
    {v : Value} (h : slot.Puts convert put) (hv : readOr convert dflt (some v) = .ok x) (a : α) :
    ∃ b, slot.set a v = .ok b :=
  ⟨put a x, (h a v _).2 ⟨x, hv, rfl⟩⟩

end

/-- Of a table, each toggle is read by itself. -/
theorem toToggles_table_iff {source : Option Source} {members : Members} {t : ProbeToggles}
    (hnodup : members.keys.Nodup) :
    (Value.table source members).toToggles = .ok t ↔
      readOr toBool true (members.lookup "execve") = .ok t.execve ∧
        readOr toBool true (members.lookup "execveat") = .ok t.execveat := by
  have hexecve := puts_of_convert "execve" false toBool
    fun (t : ProbeToggles) b => { t with execve := b }
  have hexecveat := puts_of_convert "execveat" false toBool
    fun (t : ProbeToggles) b => { t with execveat := b }
  have hread : ∀ u, (Value.table source members).toToggles = .ok u →
      readOr toBool true (members.lookup "execve") = .ok u.execve ∧
        readOr toBool true (members.lookup "execveat") = .ok u.execveat := by
    intro u hu
    refine ⟨readOr_of_setMembers ProbeToggles.execve rfl (hexecve.sets fun _ _ => rfl) ?_
        hnodup hu,
      readOr_of_setMembers ProbeToggles.execveat rfl (hexecveat.sets fun _ _ => rfl) ?_
        hnodup hu⟩
    · simpa using hexecveat.keeps fun _ _ => rfl
    · simpa using hexecve.keeps fun _ _ => rfl
  refine ⟨hread t, fun ⟨h, h'⟩ => ?_⟩
  obtain ⟨u, hu⟩ : ∃ u, (Value.table source members).toToggles = .ok u := by
    refine exists_setMembers hnodup ?_ _
    simp only [List.forall_mem_cons, List.not_mem_nil, false_implies, implies_true, and_true]
    constructor
    · intro v hv
      rw [hv] at h
      exact hexecve.exists_set h
    · intro v hv
      rw [hv] at h'
      exact hexecveat.exists_set h'
  obtain ⟨hu1, hu2⟩ := hread u hu
  obtain rfl : u = t := by
    rw [hu1, Except.ok.injEq] at h
    rw [hu2, Except.ok.injEq] at h'
    cases u
    cases t
    simp_all
  exact hu

/-- A slot of the settings keeps what it does not set. -/
theorem slots_keep {γ : Type} {get : Settings → γ} {key : String}
    (hlevel : key = "log_level" ∨ ∀ s x, get { s with logLevel := x } = get s)
    (hprobes : key = "probes" ∨ ∀ s x, get { s with probes := x } = get s)
    (hcapacity : key = "alert_channel_capacity" ∨ ∀ s x, get { s with channelCapacity := x } = get s)
    (hendpoint : key = "otel_exporter_otlp_endpoint" ∨ ∀ s x, get { s with endpoint := x } = get s)
    (hrules : key = "rules" ∨ ∀ s x, get { s with rules := x } = get s) :
    ∀ other ∈ slots, other.key ≠ key → other.Keeps get := by
  simp only [slots, List.forall_mem_cons, List.not_mem_nil, false_implies, implies_true, and_true]
  refine ⟨fun hne => ?_, fun hne => ?_, fun hne => ?_, fun hne => ?_, fun hne => ?_⟩
  · exact (puts_of_convert _ _ _ _).keeps (hlevel.resolve_left (Ne.symm hne))
  · exact (puts_of_convert _ _ _ _).keeps (hprobes.resolve_left (Ne.symm hne))
  · exact (puts_of_convert _ _ _ _).keeps (hcapacity.resolve_left (Ne.symm hne))
  · exact (puts_of_convert _ _ _ _).keeps (hendpoint.resolve_left (Ne.symm hne))
  · exact (puts_of_convert _ _ _ _).keeps (hrules.resolve_left (Ne.symm hne))

end Value

/-- The settings are what members hold at their keys. -/
structure Holds (members : Members) (s : Settings) : Prop where
  logLevel : readOr Value.toOptionalStr none (members.lookup "log_level") = .ok s.logLevel
  probes : readOr Value.toToggles {} (members.lookup "probes") = .ok s.probes
  channelCapacity :
    readOr Value.toSize 64 (members.lookup "alert_channel_capacity") = .ok s.channelCapacity
  endpoint :
    readOr Value.toOptionalStr none (members.lookup "otel_exporter_otlp_endpoint") = .ok s.endpoint
  rules : readOr Value.toRules [] (members.lookup "rules") = .ok s.rules

theorem Holds.unique {members : Members} {s t : Settings} (hs : Holds members s)
    (ht : Holds members t) : s = t := by
  obtain ⟨h1, h2, h3, h4, h5⟩ := hs
  obtain ⟨k1, k2, k3, k4, k5⟩ := ht
  rw [k1, Except.ok.injEq] at h1
  rw [k2, Except.ok.injEq] at h2
  rw [k3, Except.ok.injEq] at h3
  rw [k4, Except.ok.injEq] at h4
  rw [k5, Except.ok.injEq] at h5
  cases s
  cases t
  simp_all

theorem holds_of_ofMembers {members : Members} {s : Settings} (hnodup : members.keys.Nodup)
    (h : ofMembers members = .ok s) : Holds members s where
  logLevel := Value.readOr_of_setMembers Settings.logLevel rfl
    ((Value.puts_of_convert _ _ _ _).sets fun _ _ => rfl)
    (Value.slots_keep (.inl rfl) (.inr fun _ _ => rfl) (.inr fun _ _ => rfl) (.inr fun _ _ => rfl)
      (.inr fun _ _ => rfl)) hnodup h
  probes := Value.readOr_of_setMembers Settings.probes rfl
    ((Value.puts_of_convert _ _ _ _).sets fun _ _ => rfl)
    (Value.slots_keep (.inr fun _ _ => rfl) (.inl rfl) (.inr fun _ _ => rfl) (.inr fun _ _ => rfl)
      (.inr fun _ _ => rfl)) hnodup h
  channelCapacity := Value.readOr_of_setMembers Settings.channelCapacity rfl
    ((Value.puts_of_convert _ _ _ _).sets fun _ _ => rfl)
    (Value.slots_keep (.inr fun _ _ => rfl) (.inr fun _ _ => rfl) (.inl rfl) (.inr fun _ _ => rfl)
      (.inr fun _ _ => rfl)) hnodup h
  endpoint := Value.readOr_of_setMembers Settings.endpoint rfl
    ((Value.puts_of_convert _ _ _ _).sets fun _ _ => rfl)
    (Value.slots_keep (.inr fun _ _ => rfl) (.inr fun _ _ => rfl) (.inr fun _ _ => rfl) (.inl rfl)
      (.inr fun _ _ => rfl)) hnodup h
  rules := Value.readOr_of_setMembers Settings.rules rfl
    ((Value.puts_of_convert _ _ _ _).sets fun _ _ => rfl)
    (Value.slots_keep (.inr fun _ _ => rfl) (.inr fun _ _ => rfl) (.inr fun _ _ => rfl)
      (.inr fun _ _ => rfl) (.inl rfl)) hnodup h

/-- Members are read key by key. -/
theorem ofMembers_eq_ok_iff {members : Members} {s : Settings} (hnodup : members.keys.Nodup) :
    ofMembers members = .ok s ↔ Holds members s := by
  refine ⟨holds_of_ofMembers hnodup, fun h => ?_⟩
  obtain ⟨t, ht⟩ : ∃ t, ofMembers members = .ok t := by
    refine Value.exists_setMembers hnodup ?_ _
    simp only [Value.slots, List.forall_mem_cons, List.not_mem_nil, false_implies, implies_true, and_true]
    refine ⟨fun v hv => ?_, fun v hv => ?_, fun v hv => ?_, fun v hv => ?_, fun v hv => ?_⟩
    · exact (Value.puts_of_convert "log_level" true _ _).exists_set (hv ▸ h.logLevel)
    · exact (Value.puts_of_convert "probes" false _ _).exists_set (hv ▸ h.probes)
    · exact (Value.puts_of_convert "alert_channel_capacity" false _ _).exists_set (hv ▸ h.channelCapacity)
    · exact (Value.puts_of_convert "otel_exporter_otlp_endpoint" true _ _).exists_set (hv ▸ h.endpoint)
    · exact (Value.puts_of_convert "rules" false _ _).exists_set (hv ▸ h.rules)
  rw [ht, (holds_of_ofMembers hnodup ht).unique h]

end ExecWatch.Settings
