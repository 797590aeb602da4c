import ExecWatch.Alert.Sink
import ExecWatch.Proofs.Json.RoundTrip
import ExecWatch.Proofs.Text.Utf8
import ExecWatch.Text.Pieces
import Mathlib.Data.List.Forall2

/-!
# Lines of alerts

Each alert is one line of JSON, whatever its texts hold. Main statements:

* `Sink.written_of_writeLines`: a sink that took every line holds them one behind another;
* `Sink.Reliable.writeLines_ok`: a sink that never fails takes every line;
* `Text.pieces_lines`: lines are found again by splitting at the breaks that end them;
* `Alert.says_toJson`: the JSON of an alert says what its rule and its exec say;
* `lines_framed`: what was written, split into lines and read, is the alerts.
-/

namespace ExecWatch

/-! ## What a sink takes -/

namespace Sink

variable {s s' : Sink}

/-- A sink that took all of some bytes holds them behind what it held. -/
theorem written_of_writeAll {bytes : Bytes} (h : s.writeAll bytes = (s', .ok ())) :
    s'.written = s.written ++ bytes := by
  induction s, bytes using writeAll.induct with
  | case1 s =>
    rw [writeAll] at h
    cases h
    exact (List.append_nil _).symm
  | case2 s b rest hnone =>
    rw [writeAll, hnone] at h
    cases h
  | case3 s b rest n hsome ih =>
    rw [writeAll, hsome] at h
    rw [ih h]
    simp [take]

theorem written_of_flush (h : s.flush = (s', .ok ())) : s'.written = s.written := by
  unfold flush at h
  split at h
  · cases h
  · cases h
    rfl

/-- The text of alerts: their lines one behind another. -/
def linesText (alerts : List Alert) : List Char := alerts.flatMap Alert.line

theorem written_of_writeLines {alerts : List Alert} (h : s.writeLines alerts = (s', .ok ())) :
    s'.written = s.written ++ Utf8.encode (linesText alerts) := by
  induction alerts generalizing s with
  | nil =>
    cases h
    exact (List.append_nil _).symm
  | cons a rest ih =>
    rw [writeLines] at h
    split at h
    · cases h
    · rename_i s₁ hwrite
      split at h
      · cases h
      · rename_i s₂ hflush
        rw [ih h, written_of_flush hflush, written_of_writeAll hwrite, List.append_assoc,
          ← Utf8.encode_append]
        rfl

/-- Lines are written one after another. -/
theorem writeLines_append {alerts : List Alert} (h : s.writeLines alerts = (s', .ok ()))
    (later : List Alert) : s.writeLines (alerts ++ later) = s'.writeLines later := by
  induction alerts generalizing s with
  | nil =>
    cases h
    rfl
  | cons a rest ih =>
    rw [writeLines] at h
    rw [List.cons_append, writeLines]
    split at h
    · cases h
    · split at h
      · cases h
      · exact ih h

theorem atMost_ne_zero {n : Nat} {bound : Option Nat} (hn : n ≠ 0) (hbound : bound ≠ some 0) :
    atMost n bound ≠ 0 := by
  cases bound with
  | none => exact hn
  | some b =>
    have hb : b ≠ 0 := fun h => hbound (congrArg some h)
    exact Nat.min_eq_zero_iff.not.2 (not_or.2 ⟨hn, hb⟩)

/-- A sink that never fails: it has room and flushes without bounds and takes something of every
write. -/
structure Reliable (s : Sink) : Prop where
  room : s.room = none
  flushes : s.flushes = none
  chunk : s.chunk ≠ some 0

theorem Reliable.take (h : s.Reliable) (bytes : Bytes) : (s.take bytes).Reliable :=
  ⟨by simp [Sink.take, h.room], h.flushes, h.chunk⟩

theorem Reliable.writeAll_ok (h : s.Reliable) (bytes : Bytes) :
    ∃ s', s.writeAll bytes = (s', .ok ()) ∧ s'.Reliable := by
  induction s, bytes using writeAll.induct with
  | case1 s => exact ⟨s, writeAll.eq_1 s, h⟩
  | case2 s b rest hnone =>
    rw [accepts, h.room] at hnone
    have hchunk : atMost (b :: rest).length s.chunk = 0 := hnone
    exact absurd hchunk (atMost_ne_zero (Nat.succ_ne_zero _) h.chunk)
  | case3 s b rest n hsome ih =>
    obtain ⟨s', hwrite, hreliable⟩ := ih (h.take _)
    refine ⟨s', ?_, hreliable⟩
    rw [writeAll, hsome]
    exact hwrite

theorem Reliable.flush_ok (h : s.Reliable) : ∃ s', s.flush = (s', .ok ()) ∧ s'.Reliable := by
  refine ⟨{ s with flushes := none }, ?_, ⟨h.room, rfl, h.chunk⟩⟩
  simp [flush, h.flushes]

theorem Reliable.writeAll_ne_error (h : s.Reliable) {bytes : Bytes} {cause : Fault} :
    s.writeAll bytes ≠ (s', .error cause) := by
  intro hfailed
  obtain ⟨s₁, htook, -⟩ := h.writeAll_ok bytes
  cases hfailed.symm.trans htook

theorem Reliable.flush_ne_error (h : s.Reliable) {cause : Fault} : s.flush ≠ (s', .error cause) := by
  intro hfailed
  obtain ⟨s₁, htook, -⟩ := h.flush_ok
  cases hfailed.symm.trans htook

theorem Reliable.writeLines_ok (h : s.Reliable) (alerts : List Alert) :
    ∃ s', s.writeLines alerts = (s', .ok ()) ∧ s'.Reliable := by
  induction alerts generalizing s with
  | nil => exact ⟨s, rfl, h⟩
  | cons a rest ih =>
    obtain ⟨s₁, hwrite, h₁⟩ := h.writeAll_ok (Utf8.encode a.line)
    obtain ⟨s₂, hflush, h₂⟩ := h₁.flush_ok
    obtain ⟨s₃, hlines, h₃⟩ := ih h₂
    exact ⟨s₃, by rw [writeLines, hwrite]; simp only [hflush, hlines], h₃⟩

end Sink

/-! ## Lines -/

theorem Text.pieces_line {line : List Char} (h : '\n' ∉ line) (rest : List Char) :
    pieces (· = '\n') (line ++ '\n' :: rest) = line :: pieces (· = '\n') rest := by
  induction line with
  | nil => simp [pieces]
  | cons c line ih =>
    rw [List.mem_cons, not_or] at h
    have hc : ¬ c = '\n' := fun heq => h.1 heq.symm
    rw [List.cons_append, pieces, ih h.2]
    simp [hc]

/-- Lines without breaks in them are found again by splitting at the breaks that end them. -/
theorem Text.pieces_lines {lines : List (List Char)} (h : ∀ l ∈ lines, '\n' ∉ l) :
    pieces (· = '\n') (lines.flatMap (· ++ ['\n'])) = lines ++ [[]] := by
  induction lines with
  | nil => rfl
  | cons line lines ih =>
    rw [List.flatMap_cons, List.append_assoc, List.singleton_append,
      pieces_line (h line List.mem_cons_self), ih fun l hl => h l (List.mem_cons_of_mem _ hl)]
    rfl

namespace Alert

/-- A JSON value says what a rule and an exec say: the command line only if there are arguments. -/
structure Says (j : Json) (rule : ProcessRule) (exec : ExecInfo) : Prop where
  type : j.member? "tripwire_type" = some (.string "PROCESS")
  name : j.member? "rule_name" = some (.string rule.name)
  severity : j.member? "severity" = some (.string rule.severity)
  detail : ∃ d, j.member? "detail" = some d ∧
    (∀ field ∈ [("pid", exec.pid), ("ppid", exec.ppid), ("uid", exec.uid), ("gid", exec.gid)],
      d.member? field.1 = some (.int field.2.toNat)) ∧
    d.member? "comm" = some (.string exec.comm) ∧
    d.member? "exe" = some (.string exec.filename) ∧
    d.member? "cmdline" = if exec.argv = "" then none else some (.string exec.argv)

theorem says_toJson (rule : ProcessRule) (exec : ExecInfo) (now : Timestamp) :
    Says (ofMatch rule exec now).toJson rule exec := by
  refine ⟨rfl, rfl, rfl, .object (detail exec), rfl, ?_, ?_, ?_, ?_⟩
  all_goals
    unfold detail
    by_cases hargv : exec.argv = "" <;> simp [Json.member?, hargv, List.lookup_cons]

theorem exact_detail (exec : ExecInfo) : ∀ member ∈ detail exec, member.2.Exact := by
  have hword (w : UInt32) : (Json.int w.toNat).Exact := .int (by have := w.toNat_lt; omega)
  intro member hmember
  unfold detail at hmember
  rw [List.mem_append] at hmember
  rcases hmember with hmember | hmember
  · split at hmember
    · cases hmember
    · rw [List.mem_singleton] at hmember
      subst hmember
      exact .string _
  · simp only [List.mem_cons, List.not_mem_nil, or_false] at hmember
    rcases hmember with rfl | rfl | rfl | rfl | rfl | rfl
    · exact .string _
    · exact .string _
    · exact hword _
    · exact hword _
    · exact hword _
    · exact hword _

theorem exact_toJson (a : Alert) : a.toJson.Exact := by
  refine .object fun member hmember => ?_
  simp only [List.mem_cons, List.not_mem_nil, or_false] at hmember
  rcases hmember with rfl | rfl | rfl | rfl | rfl
  · exact .string _
  · exact .string _
  · exact .string _
  · exact .string _
  · exact .object (exact_detail a.exec)

/-- Reading the text of an alert gives its JSON, and the text is one line. -/
theorem read?_text (a : Alert) : Json.read? a.text = some a.toJson := Json.read?_write (exact_toJson a)

theorem newline_not_mem_text (a : Alert) : '\n' ∉ a.text := Json.newline_not_mem_write (exact_toJson a)

end Alert

theorem pieces_linesText (alerts : List Alert) :
    Text.pieces (· = '\n') (Sink.linesText alerts) = alerts.map Alert.text ++ [[]] := by
  have hlines : Sink.linesText alerts = (alerts.map Alert.text).flatMap (· ++ ['\n']) := by
    rw [List.flatMap_map]
    rfl
  rw [hlines, Text.pieces_lines]
  intro l hl
  obtain ⟨a, -, rfl⟩ := List.mem_map.1 hl
  exact a.newline_not_mem_text

/-- The alerts of rules that matched execs. -/
def alertsOf (hits : List (ProcessRule × ExecInfo × Timestamp)) : List Alert :=
  hits.map fun (rule, exec, now) => .ofMatch rule exec now

/-- **No text in an alert breaks its line or its quotes.** A sink that never fails takes the lines of
all alerts. What any sink holds that took them is the bytes of a text that, split at its line breaks,
has one piece for each alert, in order, and an empty one behind them; and each piece, read as JSON,
says what the rule and the exec of its alert say. -/
theorem lines_framed (hits : List (ProcessRule × ExecInfo × Timestamp)) (s : Sink) :
    (s.Reliable → ∃ s', s.writeLines (alertsOf hits) = (s', .ok ())) ∧
      ∀ s', s.writeLines (alertsOf hits) = (s', .ok ()) →
        ∃ text lines, s'.written = s.written ++ Utf8.encode text ∧
          Utf8.decode? (Utf8.encode text) = some text ∧
          Text.pieces (· = '\n') text = lines ++ [[]] ∧
          List.Forall₂ (fun hit line => ∃ j, Json.read? line = some j ∧ Alert.Says j hit.1 hit.2.1)
            hits lines := by
  refine ⟨fun h => ?_, fun s' h => ?_⟩
  · obtain ⟨s', hwrite, -⟩ := h.writeLines_ok (alertsOf hits)
    exact ⟨s', hwrite⟩
  · refine ⟨Sink.linesText (alertsOf hits), (alertsOf hits).map Alert.text,
      Sink.written_of_writeLines h, Utf8.decode?_encode _, pieces_linesText _, ?_⟩
    rw [alertsOf, List.map_map, List.forall₂_map_right_iff, List.forall₂_same]
    rintro ⟨rule, exec, now⟩ -
    exact ⟨_, Alert.read?_text _, Alert.says_toJson rule exec now⟩

/-- Two execs whose texts try to end their line or their string; the first has no arguments. -/
def forgedHits : List (ProcessRule × ExecInfo × Timestamp) :=
  [(⟨"any\"", "INFO", none⟩,
      ⟨7, 1, 0, 0, "sh\n", "/tmp/\"\x7d\x7d\n\x7b\"rule_name\":\"none", ""⟩, ⟨0, 0⟩),
    (⟨"tab\t", "WARN", none⟩, ⟨8, 7, 1000, 1000, "\\", "\uFFFD\x00", "a \\\" \u2028"⟩, ⟨1, 5⟩)]

theorem lines_framed_forged :
    Sink.Reliable { chunk := some 3 } ∧
      ∃ text first second, Text.pieces (· = '\n') text = [first, second, []] ∧
        (∃ j, Json.read? first = some j ∧
          j.member? "rule_name" = some (.string "any\"") ∧
          ∃ d, j.member? "detail" = some d ∧ d.member? "cmdline" = none) ∧
        ∃ j, Json.read? second = some j ∧
          ∃ d, j.member? "detail" = some d ∧ d.member? "comm" = some (.string "\\") := by
  have hreliable : Sink.Reliable { chunk := some 3 } := ⟨rfl, rfl, by decide⟩
  obtain ⟨hwrite, hframed⟩ := lines_framed forgedHits { chunk := some 3 }
  obtain ⟨s', hwrite⟩ := hwrite hreliable
  obtain ⟨text, lines, -, -, hpieces, hlines⟩ := hframed s' hwrite
  cases hlines with
  | cons hfirst hlines =>
    cases hlines with
    | cons hsecond hlines =>
      cases hlines
      obtain ⟨j, hread, hsays⟩ := hfirst
      obtain ⟨k, hread', hsays'⟩ := hsecond
      obtain ⟨d, hd, -, -, -, hcmdline⟩ := hsays.detail
      obtain ⟨d', hd', -, hcomm, -⟩ := hsays'.detail
      exact ⟨hreliable, text, _, _, hpieces, ⟨j, hread, hsays.name, d, hd, hcmdline⟩,
        k, hread', d', hd', hcomm⟩

end ExecWatch
