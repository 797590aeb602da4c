import ExecWatch.Proofs.Alert.Lines

/-!
# Lines on a sink that fails

A sink may take a few bytes at a time, run out of room, or refuse a flush. Main statements:

* `Sink.writeAll_eq`: how much of some bytes a sink takes depends on its room only, however few of them
  it takes at a time;
* `Sink.writeLines_cut`, `Sink.writeLines_refused`, `Sink.writeLines_next`: what a sink with bounds does
  with the first line, and with which bounds it goes on;
* `Sink.Stops.cons`: where a run stops is where the run over its later lines stops;
* `Sink.stream_kept`: what is written of the lines of alerts, and where it stops.
-/

namespace ExecWatch.Sink

/-! ## Writing bytes -/

theorem take_nil (s : Sink) : s.take [] = s := by
  obtain ⟨written, room, chunk, flushes, whenFull⟩ := s
  cases room <;> simp [take]

theorem take_take (s : Sink) (front back : Bytes) : (s.take front).take back = s.take (front ++ back) := by
  obtain ⟨written, room, chunk, flushes, whenFull⟩ := s
  cases room <;> simp [take, Nat.sub_sub]

theorem atMost_le (n : Nat) (bound : Option Nat) : atMost n bound ≤ n := by
  cases bound with
  | none => exact Nat.le_refl n
  | some b => exact Nat.min_le_left n b

theorem accepts_le (s : Sink) (length : Nat) : s.accepts length ≤ length :=
  Nat.le_trans (atMost_le ..) (atMost_le ..)

/-- The fault of a sink that has run out of room. -/
def WhenFull.fault : WhenFull → Fault
  | .fails => .full
  | .takesNothing => .tookNothing

theorem refusal_of_no_room {s : Sink} (h : s.room = some 0) : s.refusal = s.whenFull.fault := by
  cases hfull : s.whenFull <;> simp [refusal, h, hfull, WhenFull.fault]

section
variable {s : Sink} {budget : Nat} (hchunk : s.chunk ≠ some 0) (hroom : s.room = some budget)
include hroom

theorem accepts_le_room (length : Nat) : s.accepts length ≤ budget := by
  rw [accepts, hroom]
  exact Nat.min_le_right ..

include hchunk

/-- A sink takes something of every write for which it has room. -/
theorem room_of_accepts_zero {length : Nat} (hlength : length ≠ 0) (h : s.accepts length = 0) :
    budget = 0 := by
  rw [accepts, hroom] at h
  exact (Nat.min_eq_zero_iff.1 h).resolve_left (atMost_ne_zero hlength hchunk)

/-- However few bytes a sink takes at a time, it takes those that it has room for. -/
theorem writeAll_eq (bytes : Bytes) :
    s.writeAll bytes = (s.take (bytes.take budget),
      if bytes.length ≤ budget then .ok () else .error s.whenFull.fault) := by
  induction s, bytes using writeAll.induct generalizing budget with
  | case1 s =>
    rw [writeAll, List.take_nil, take_nil]
    rfl
  | case2 s b rest hnone =>
    obtain rfl := room_of_accepts_zero hchunk hroom (by simp) hnone
    rw [writeAll, hnone, List.take_zero, take_nil, refusal_of_no_room hroom]
    rfl
  | case3 s b rest n hsome ih =>
    have hfits : n + 1 ≤ budget := Nat.le_trans (Nat.le_of_eq hsome.symm) (accepts_le_room hroom _)
    have hlength : n + 1 ≤ (b :: rest).length :=
      Nat.le_trans (Nat.le_of_eq hsome.symm) (accepts_le s _)
    have hleft : (s.take ((b :: rest).take (n + 1))).room = some (budget - (n + 1)) := by
      rw [take, hroom, List.length_take_of_le hlength]
      rfl
    have htaken : (b :: rest).take (n + 1) ++ (rest.drop n).take (budget - (n + 1)) =
        (b :: rest).take budget := by
      rw [← List.drop_succ_cons (a := b), ← List.take_add, Nat.add_sub_cancel' hfits]
    have hmore : (rest.drop n).length ≤ budget - (n + 1) ↔ (b :: rest).length ≤ budget := by
      rw [List.length_drop, List.length_cons]
      omega
    rw [writeAll, hsome]
    show (s.take ((b :: rest).take (n + 1))).writeAll (rest.drop n) = _
    rw [ih hchunk hleft, take_take, htaken]
    simp only [hmore]
    rfl

end

/-! ## Writing lines -/

/-- The bytes of each alert's line. -/
def linesOf (alerts : List Alert) : List Bytes := alerts.map fun a => Utf8.encode a.line

/-- The sink, with room for `budget` bytes, of which it takes `chunk` at a time, and with `flushes`
flushes. -/
def limited (s : Sink) (chunk budget flushes : Nat) : Sink :=
  { s with chunk := some chunk, room := some budget, flushes := some flushes }

/-- The sink with more written to it, whatever it still takes. -/
def holding (s : Sink) (more : Bytes) : Sink := { s with written := s.written ++ more }

section
variable (s : Sink) {chunk budget : Nat} (hchunk : 1 ≤ chunk)
include hchunk

theorem writeAll_limited (flushes : Nat) (bytes : Bytes) :
    (s.limited chunk budget flushes).writeAll bytes =
      ((s.holding (bytes.take budget)).limited chunk (budget - bytes.length) flushes,
        if bytes.length ≤ budget then .ok () else .error s.whenFull.fault) := by
  have hone : (s.limited chunk budget flushes).chunk ≠ some 0 := by
    simp only [limited, ne_eq, Option.some.injEq]
    omega
  rw [writeAll_eq hone rfl]
  simp [limited, holding, take]
  omega

variable {a : Alert}

/-- A line for which there is no room is cut short. -/
theorem writeLines_cut (flushes : Nat) (rest : List Alert) (h : budget < (Utf8.encode a.line).length) :
    (s.limited chunk budget flushes).writeLines (a :: rest) =
      ((s.holding ((Utf8.encode a.line).take budget)).limited chunk 0 flushes,
        .error (.write s.whenFull.fault)) := by
  rw [writeLines, writeAll_limited s hchunk, if_neg (by omega), Nat.sub_eq_zero_of_le (by omega)]

variable (h : (Utf8.encode a.line).length ≤ budget)
include h

theorem writeAll_fits (flushes : Nat) :
    (s.limited chunk budget flushes).writeAll (Utf8.encode a.line) =
      ((s.holding (Utf8.encode a.line)).limited chunk (budget - (Utf8.encode a.line).length) flushes,
        .ok ()) := by
  rw [writeAll_limited s hchunk, if_pos h, List.take_of_length_le h]

/-- Without a flush left, the run stops behind the line. -/
theorem writeLines_refused (rest : List Alert) :
    (s.limited chunk budget 0).writeLines (a :: rest) =
      ((s.holding (Utf8.encode a.line)).limited chunk (budget - (Utf8.encode a.line).length) 0,
        .error (.flush .flushRefused)) := by
  rw [writeLines, writeAll_fits s hchunk h]
  rfl

/-- A line that is written and flushed leaves less room and one flush less to the others. -/
theorem writeLines_next (flushes : Nat) (rest : List Alert) :
    (s.limited chunk budget (flushes + 1)).writeLines (a :: rest) =
      ((s.holding (Utf8.encode a.line)).limited chunk (budget - (Utf8.encode a.line).length)
        flushes).writeLines rest := by
  rw [writeLines, writeAll_fits s hchunk h]
  rfl

end

/-! ## Where a run stops -/

/-- What is written of `lines` with room for `budget` bytes and `flushes` flushes, and how that ends; `fault`
is that of a sink without room. -/
inductive Stops (fault : Fault) (budget flushes : Nat) (lines : List Bytes) :
    Bytes → Except Error Unit → Prop where
  | finished (fits : lines.flatten.length ≤ budget) (flushed : lines.length ≤ flushes) :
    Stops fault budget flushes lines lines.flatten (.ok ())
  /-- Inside the line behind `k` whole ones: all the room that they leave is filled with a part of it. -/
  | inside (k : Nat) {line : Bytes} {e : Error} (next : lines[k]? = some line)
      (fits : (lines.take k).flatten.length ≤ budget)
      (short : budget - (lines.take k).flatten.length < line.length) (flushed : k ≤ flushes)
      (message : e.message = "Failed to write alert") (cause : e.cause = fault) :
    Stops fault budget flushes lines
      ((lines.take k).flatten ++ line.take (budget - (lines.take k).flatten.length)) (.error e)
  /-- Right behind line `k`, when its flush is the one that is refused. -/
  | behind (k : Nat) {e : Error} (length : k ≤ lines.length)
      (fits : (lines.take k).flatten.length ≤ budget) (refused : k = flushes + 1)
      (message : e.message = "Failed to flush alert sink") (cause : e.cause = .flushRefused) :
    Stops fault budget flushes lines (lines.take k).flatten (.error e)

namespace Stops

variable {fault : Fault} {budget flushes : Nat} {line : Bytes} {lines : List Bytes} {out : Bytes}
  {result : Except Error Unit}

/-- A run whose first line is written and flushed stops where the run over the others stops. -/
theorem cons (h : Stops fault (budget - line.length) flushes lines out result)
    (hfits : line.length ≤ budget) :
    Stops fault budget (flushes + 1) (line :: lines) (line ++ out) result := by
  cases h with
  | finished fits flushed =>
    have hall : (line :: lines).flatten.length ≤ budget := by
      rw [List.flatten_cons, List.length_append]
      omega
    rw [← List.flatten_cons]
    exact .finished hall (Nat.succ_le_succ flushed)
  | inside k next fits short flushed message cause =>
    have hwhole : (((line :: lines).take (k + 1)).flatten).length =
        line.length + (lines.take k).flatten.length := by
      rw [List.take_succ_cons, List.flatten_cons, List.length_append]
    have hroom : budget - line.length - (lines.take k).flatten.length =
        budget - ((line :: lines).take (k + 1)).flatten.length := by omega
    rw [← List.append_assoc, ← List.flatten_cons, ← List.take_succ_cons, hroom]
    refine .inside (k + 1) next ?_ ?_ (Nat.succ_le_succ flushed) message cause
    · omega
    · omega
  | behind k length fits refused message cause =>
    rw [← List.flatten_cons, ← List.take_succ_cons]
    refine .behind (k + 1) (Nat.succ_le_succ length) ?_ (congrArg (· + 1) refused) message cause
    rw [List.take_succ_cons, List.flatten_cons, List.length_append]
    omega

/-- The bytes of lines fall into those before, in and behind one of them. -/
theorem flatten_split {k : Nat} (next : lines[k]? = some line) :
    lines.flatten = (lines.take k).flatten ++ (line ++ (lines.drop (k + 1)).flatten) := by
  obtain ⟨hk, rfl⟩ := List.getElem?_eq_some_iff.1 next
  rw [← List.flatten_cons, ← List.drop_eq_getElem_cons hk, ← List.flatten_append,
    List.take_append_drop]

/-- What is written is the front of the lines. -/
theorem isPrefix (h : Stops fault budget flushes lines out result) : out <+: lines.flatten := by
  cases h with
  | finished => exact List.prefix_rfl
  | inside k next =>
    rw [flatten_split next, List.prefix_append_right_inj]
    exact (List.take_prefix ..).trans (List.prefix_append ..)
  | behind k =>
    refine ⟨(lines.drop k).flatten, ?_⟩
    rw [← List.flatten_append, List.take_append_drop]

/-- A run ends well exactly when there is room for all lines and a flush for each. -/
theorem eq_ok_iff (h : Stops fault budget flushes lines out result) :
    result = .ok () ↔ lines.flatten.length ≤ budget ∧ lines.length ≤ flushes := by
  cases h with
  | finished fits flushed => exact ⟨fun _ => ⟨fits, flushed⟩, fun _ => rfl⟩
  | inside k next fits short =>
    refine ⟨nofun, fun ⟨hall, _⟩ => ?_⟩
    rw [flatten_split next, List.length_append, List.length_append] at hall
    omega
  | behind k length fits refused =>
    refine ⟨nofun, fun ⟨_, hflushed⟩ => ?_⟩
    omega

end Stops

/-- Where a run stops does not depend on how much the sink takes at a time. -/
theorem exists_stop (alerts : List Alert) (s : Sink) (budget flushes : Nat) :
    ∃ out result,
      (∀ chunk, 1 ≤ chunk → ∃ s', (s.limited chunk budget flushes).writeLines alerts = (s', result) ∧
        s'.written = s.written ++ out) ∧
      Stops s.whenFull.fault budget flushes (linesOf alerts) out result := by
  induction alerts generalizing s budget flushes with
  | nil =>
    refine ⟨[], .ok (), fun chunk _ => ⟨s.limited chunk budget flushes, rfl, ?_⟩,
      .finished (Nat.zero_le _) (Nat.zero_le _)⟩
    exact (List.append_nil _).symm
  | cons a rest ih =>
    by_cases hfits : (Utf8.encode a.line).length ≤ budget
    · cases flushes with
      | zero =>
        refine ⟨Utf8.encode a.line, _,
          fun chunk hchunk => ⟨_, writeLines_refused s hchunk hfits rest, rfl⟩, ?_⟩
        have hfirst : ((linesOf (a :: rest)).take 1).flatten = Utf8.encode a.line :=
          List.append_nil _
        rw [← hfirst] at hfits ⊢
        exact .behind 1 (Nat.succ_le_succ (Nat.zero_le _)) hfits rfl rfl rfl
      | succ flushes =>
        -- The others are written behind the first line, with the room and the flushes that it leaves.
        obtain ⟨out, result, hrun, hstop⟩ := ih (s.holding (Utf8.encode a.line))
          (budget - (Utf8.encode a.line).length) flushes
        refine ⟨Utf8.encode a.line ++ out, result, fun chunk hchunk => ?_, hstop.cons hfits⟩
        obtain ⟨s', hlater, hwritten⟩ := hrun chunk hchunk
        refine ⟨s', (writeLines_next s hchunk hfits flushes rest).trans hlater, ?_⟩
        rw [hwritten, holding, List.append_assoc]
    · have hshort : budget < (Utf8.encode a.line).length := Nat.lt_of_not_le hfits
      refine ⟨(Utf8.encode a.line).take budget, _,
        fun chunk hchunk => ⟨_, writeLines_cut s hchunk flushes rest hshort, rfl⟩, ?_⟩
      exact .inside 0 rfl (Nat.zero_le _) hshort (Nat.zero_le _) rfl rfl

/-- **A failing or slow sink keeps the stream.** A sink with room for `budget` bytes and with `flushes`
flushes is written the same bytes, and the run ends in the same way, however few bytes it takes at a time.
The bytes are the front of the lines, one behind another. The run stops behind all lines, inside a line when
the room is filled, or behind the line whose flush is the first to be refused (`Stops`); it ends well exactly
when there is room for all lines and a flush for each. -/
theorem stream_kept (alerts : List Alert) (s : Sink) (budget flushes : Nat) :
    ∃ out result,
      (∀ chunk, 1 ≤ chunk → ∃ s', (s.limited chunk budget flushes).writeLines alerts = (s', result) ∧
        s'.written = s.written ++ out) ∧
      out <+: (linesOf alerts).flatten ∧
      Stops s.whenFull.fault budget flushes (linesOf alerts) out result ∧
      (result = .ok () ↔
        (linesOf alerts).flatten.length ≤ budget ∧ alerts.length ≤ flushes) := by
  obtain ⟨out, result, hrun, hstop⟩ := exists_stop alerts s budget flushes
  refine ⟨out, result, hrun, hstop.isPrefix, hstop, ?_⟩
  rw [hstop.eq_ok_iff, linesOf, List.length_map]

/-- A sink that takes nothing once it is full. -/
def stalling : Sink := { whenFull := .takesNothing }

/-- There is room for 50 bytes of the second line, whether it comes in threes or at once. -/
theorem stream_kept_stalling :
    1 ≤ 3 ∧ 1 ≤ 4096 ∧ ((linesOf (alertsOf forgedHits)).map List.length = [200, 214]) ∧
      ∃ out e, out.length = 250 ∧ e.message = "Failed to write alert" ∧ e.cause = .tookNothing ∧
        ∀ chunk ∈ [3, 4096], ∃ s',
          (stalling.limited chunk 250 2).writeLines (alertsOf forgedHits) = (s', .error e) ∧
            s'.written = out := by
  have hlengths : (linesOf (alertsOf forgedHits)).map List.length = [200, 214] := by decide +kernel
  obtain ⟨out, result, hrun, -, hstop, hok⟩ := stream_kept (alertsOf forgedHits) stalling 250 2
  have hchunks : ∀ chunk ∈ [3, 4096], ∃ s',
      (stalling.limited chunk 250 2).writeLines (alertsOf forgedHits) = (s', result) ∧
        s'.written = out := by
    intro chunk hchunk
    refine hrun chunk ?_
    rcases List.mem_pair.1 hchunk with rfl | rfl <;> decide
  have hfull : ¬ (linesOf (alertsOf forgedHits)).flatten.length ≤ 250 := by
    rw [List.length_flatten, hlengths]
    decide
  refine ⟨by decide, by decide, hlengths, ?_⟩
  cases hstop with
  | finished fits => exact absurd fits hfull
  | inside k next fits short flushed message cause =>
    refine ⟨_, _, ?_, message, cause, hchunks⟩
    rw [List.length_append, List.length_take_of_le (Nat.le_of_lt short), Nat.add_sub_cancel' fits]
  | behind k length _ refused =>
    -- The third flush is that of no line.
    rw [refused] at length
    exact absurd length (by decide)

end ExecWatch.Sink
