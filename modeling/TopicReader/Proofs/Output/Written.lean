import TopicReader.Proofs.Output.Lines
import TopicReader.Proofs.Output.Writers
import TopicReader.Proofs.Snapshot.Output
import TopicReader.Proofs.Text.Utf8

/-! What a printer leaves in a pipe that takes everything. In the JSON layout that is one line for
each record, and the records can be read back from the bytes. -/
namespace TopicReader

namespace Layout

/-- Records as lines, each with its line break. -/
def lines (records : List Record) : List Char := records.flatMap fun r => line r ++ ['\n']

@[simp] theorem lines_nil : lines [] = [] := rfl

theorem lines_cons (r : Record) (records : List Record) :
    lines (r :: records) = line r ++ '\n' :: lines records := by simp [lines]

theorem line_append_ne_nil {r : Record} {x : List Char} : line r ++ x ≠ [] := by
  rw [line_append]
  exact List.cons_ne_nil _ _

/-- Lines tell which records they are, with the timestamps carried over. -/
theorem lines_inj {records others : List Record} (dated : ∀ r ∈ records, r.Dated)
    (named : ∀ r ∈ others, r.Dated) (same : lines records = lines others) :
    records.map Record.carried = others.map Record.carried := by
  induction records generalizing others with
  | nil =>
    cases others with
    | nil => rfl
    | cons s others =>
      rw [lines_cons] at same
      exact absurd same.symm line_append_ne_nil
  | cons r records ih =>
    rw [lines_cons] at same
    cases others with
    | nil => exact absurd same line_append_ne_nil
    | cons s others =>
      rw [lines_cons] at same
      rw [List.forall_mem_cons] at dated named
      obtain ⟨first, rest⟩ := line_append_inj dated.1 named.1 same
      rw [List.map_cons, List.map_cons, first, ih dated.2 named.2 (List.cons.inj rest).2]

theorem lines_carried (records : List Record) : lines (records.map Record.carried) = lines records := by
  simp [lines, List.flatMap_map, line_carried]

theorem bytes_lines (records : List Record) :
    Utf8.bytes (lines records) = records.flatMap fun r => Utf8.bytes (line r) ++ [0x0A] := by
  induction records with
  | nil => rfl
  | cons r records ih =>
    rw [lines_cons, List.flatMap_cons, ← ih, ← List.singleton_append, Utf8.bytes_append,
      Utf8.bytes_append, List.append_assoc]
    rfl

theorem newline_not_mem_bytes (r : Record) : 0x0A ∉ Utf8.bytes (line r) := by
  rw [Utf8.newline_mem_bytes]
  exact newline_not_mem_line r

theorem count_newline (records : List Record) :
    (Utf8.bytes (lines records)).count 0x0A = records.length := by
  rw [bytes_lines]
  induction records with
  | nil => rfl
  | cons r records ih =>
    rw [List.flatMap_cons, List.count_append, List.count_append, ih, List.length_cons,
      List.count_eq_zero.mpr (newline_not_mem_bytes r), Nat.zero_add, Nat.add_comm]
    rfl

theorem bytes_json (shown : Shown) (r : Record) :
    bytes .json shown r = Utf8.bytes (line r ++ ['\n']) := by
  have each (parts : List String) :
      (parts.map Utf8.encode).flatten = Utf8.bytes (joined parts) := by
    induction parts with
    | nil => rfl
    | cons part parts ih => simp [Utf8.encode_eq, ih]
  rw [bytes, pieces, each, joined_append, line]
  rfl

theorem rendered_json (shown : Shown) (records : List Record) :
    rendered .json shown records = Utf8.bytes (lines records) := by
  induction records with
  | nil => rfl
  | cons r records ih =>
    rw [rendered_cons, ih, bytes_json, ← Utf8.bytes_append, lines_cons, List.append_assoc,
      List.singleton_append]

end Layout

namespace Pipe

/-- A pipe without limit that holds some bytes, after some flushes. -/
def holding (written : Bytes) (flushes : Nat) : Pipe := ⟨none, true, written, flushes⟩

end Pipe

namespace Printer

theorem printed_holding (written bytes : Bytes) (flushes : Nat) :
    printed (Pipe.holding written flushes) bytes =
      Pipe.holding (written ++ bytes) (flushes + 1) :=
  if_pos (Pipe.fits_of_limitless rfl bytes)

/-- What a pipe without limit holds after records were printed. -/
theorem after_holding (layout : Layout) (shown : Shown) (records : List Record) (written : Bytes)
    (flushes : Nat) :
    Sink.after? (⟨layout, shown, Pipe.holding written flushes⟩ : Printer) records =
      some ⟨layout, shown, Pipe.holding (written ++ layout.rendered shown records)
        (flushes + records.length)⟩ := by
  induction records generalizing written flushes with
  | nil => simp [Sink.after?]
  | cons r records ih =>
    have flushed : flushes + 1 + records.length = flushes + (r :: records).length := by
      rw [List.length_cons, Nat.add_assoc, Nat.add_comm 1]
    obtain ⟨next, given, rfl⟩ :=
      emit_run Writer.pipe_actsAs layout shown r (Eq.refl (Pipe.holding written flushes)) rfl
    rw [if_pos (Pipe.fits_of_limitless rfl _), printed_holding] at given
    rw [Sink.after?, given]
    change Sink.after? (⟨layout, shown, Pipe.holding _ _⟩ : Printer) records = _
    rw [ih, flushed, Layout.rendered_cons, List.append_assoc]

/-- What it holds if the layout is JSON. -/
theorem after_json (shown : Shown) (records : List Record) (written : Bytes) (flushes : Nat) :
    Sink.after? (⟨.json, shown, Pipe.holding written flushes⟩ : Printer) records =
      some ⟨.json, shown, Pipe.holding (written ++ Utf8.bytes (Layout.lines records))
        (flushes + records.length)⟩ := by
  rw [after_holding, Layout.rendered_json]

/-- In the JSON layout each record becomes one line that ends with its only line break, and the bytes
tell which records they came from, except for leap nanoseconds inside a minute. -/
theorem json_lines_decodable (shown : Shown) (records : List Record)
    (dated : ∀ r ∈ records, r.Dated) :
    ∃ p, Sink.after? (⟨.json, shown, {}⟩ : Printer) records = some p ∧
      p.pipe.written = records.flatMap (fun r => Utf8.bytes (Layout.line r) ++ [0x0A]) ∧
      (∀ r ∈ records, 0x0A ∉ Utf8.bytes (Layout.line r)) ∧
      p.pipe.written.count 0x0A = records.length ∧
      (∀ shown' others q, (∀ r ∈ others, Record.Dated r) →
        Sink.after? (⟨.json, shown', {}⟩ : Printer) others = some q →
        (q.pipe.written = p.pipe.written ↔
          others.map Record.carried = records.map Record.carried)) ∧
      ∀ r : Record, (∀ t ∈ r.timestamp, ∃ seconds nanos,
        Instant.ofSeconds? seconds nanos = some t) → r.carried = r := by
  refine ⟨_, after_json shown records [] 0, ?_, ?_, ?_, ?_, ?_⟩
  · exact Layout.bytes_lines records
  · intro r _
    exact Layout.newline_not_mem_bytes r
  · exact Layout.count_newline records
  · intro shown' others q named taken
    have written := after_json shown' others [] 0
    change Sink.after? (⟨.json, shown', {}⟩ : Printer) others = _ at written
    rw [taken] at written
    cases written
    constructor
    · intro same
      exact Layout.lines_inj named dated (Utf8.bytes_injective same)
    · intro same
      have lines := congrArg Layout.lines same
      rw [Layout.lines_carried, Layout.lines_carried] at lines
      exact congrArg Utf8.bytes lines
  · intro r asked
    refine Record.carried_eq fun t dated => ?_
    obtain ⟨_, _, origin⟩ := asked t dated
    exact Instant.proper_of_ofSeconds? origin

/-- Two records of the same instant, once with the nanoseconds of a leap second. -/
def atOnce : List Record :=
  [{ partition := 0, offset := 0, timestamp := some ⟨0, 1500000000⟩ },
   { partition := 0, offset := 0, timestamp := some ⟨1, 500000000⟩ }]

/-- Inside a minute leap nanoseconds are written as the next second. -/
theorem leap_written_alike :
    (∀ r ∈ atOnce, r.Dated) ∧ ∃ r ∈ atOnce, ∃ s ∈ atOnce, r ≠ s ∧ ∃ p q : Printer,
      Sink.after? (⟨.json, {}, {}⟩ : Printer) [r] = some p ∧
      Sink.after? (⟨.json, {}, {}⟩ : Printer) [s] = some q ∧
      p.pipe.written = q.pipe.written := by
  refine ⟨by decide, _, List.mem_cons_self, _, List.mem_cons_of_mem _ List.mem_cons_self, by decide,
    _, _, after_json {} _ [] 0, after_json {} _ [] 0, ?_⟩
  decide

/-- A leap second, one inside a minute, a year past the four digits, a key that is empty and one that
is missing. -/
def oddRecords : List Record :=
  [{ partition := 0, offset := 0, timestamp := some ⟨1483228799, 1500000000⟩, key := some "",
     value := some "\n\"é\x00" },
   { partition := 0, offset := 1, timestamp := some ⟨0, 1500000000⟩ },
   { partition := -1, offset := 5, timestamp := some ⟨253402300800, 0⟩, headers := [("", "")] }]

theorem oddRecords_decodable :
    (∀ r ∈ oddRecords, r.Dated) ∧ ∃ p, Sink.after? (⟨.json, {}, {}⟩ : Printer) oddRecords = some p ∧
      p.pipe.written.count 0x0A = 3 ∧
      ∀ q, Sink.after? (⟨.json, {}, {}⟩ : Printer) oddRecords.reverse = some q →
        q.pipe.written ≠ p.pipe.written := by
  have dated : ∀ r ∈ oddRecords, r.Dated := by decide
  obtain ⟨p, taken, _, _, count, tells, _⟩ := json_lines_decodable {} oddRecords dated
  refine ⟨dated, p, taken, count, ?_⟩
  intro q other same
  have turned := (tells {} oddRecords.reverse q (by decide) other).mp same
  revert turned
  decide

end Printer
end TopicReader
