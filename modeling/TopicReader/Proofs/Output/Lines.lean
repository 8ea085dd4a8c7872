import TopicReader.Output.Layout
import TopicReader.Proofs.Json.TextWriting
import TopicReader.Proofs.Time.Rfc3339

/-! Records as JSON objects. A record can be read off the front of what is written, member by member,
and its object stays on one line. A member that is left out is told from an empty one because what
follows has another name. -/
namespace TopicReader

namespace Record

/-- Whether the timestamp of a record, if it has one, is an instant of the calendar. -/
def Dated (r : Record) : Prop := ∀ t ∈ r.timestamp, t.Representable

instance (r : Record) : Decidable r.Dated :=
  inferInstanceAs (Decidable (∀ t ∈ r.timestamp, t.Representable))

/-- The record with its timestamp as it is written. -/
def carried (r : Record) : Record := { r with timestamp := r.timestamp.map Instant.carried }

theorem carried_eq {r : Record} (proper : ∀ t ∈ r.timestamp, t.Proper) : r.carried = r := by
  have same : r.timestamp.map Instant.carried = r.timestamp := by
    cases dated : r.timestamp with
    | none => rfl
    | some t => exact congrArg some (proper t dated).carried_eq
  rw [carried, same]

/-- Timestamps that are written alike are carried over to the same instant. -/
theorem Dated.timestamp_inj {r s : Record} (dated : r.Dated) (named : s.Dated)
    (same : r.timestamp.map Rfc3339.exact = s.timestamp.map Rfc3339.exact) :
    r.timestamp.map Instant.carried = s.timestamp.map Instant.carried := by
  cases first : r.timestamp with
  | none => simpa [first, eq_comm] using same
  | some t =>
    cases second : s.timestamp with
    | none => simp [first, second] at same
    | some u =>
      rw [first, second, Option.map_some, Option.map_some, Option.some.injEq] at same
      exact congrArg some ((Rfc3339.exact_eq_iff (dated t first) (named u second)).mp same)

end Record

namespace Layout

open Decimal (Breaks breaks_cons chars_append_inj)
open Json.Text (quoted_append_inj newline_not_mem_quoted)

variable {x y : List Char} {name other : String}

/-- The text of the pieces in which something is written. -/
def joined (pieces : List String) : List Char := pieces.flatMap String.toList

/-- A record as one JSON object. -/
def line (r : Record) : List Char := joined (object r)

@[simp] theorem joined_nil : joined [] = [] := rfl

@[simp] theorem joined_cons (piece : String) (pieces : List String) :
    joined (piece :: pieces) = piece.toList ++ joined pieces := rfl

@[simp] theorem joined_append (first second : List String) :
    joined (first ++ second) = joined first ++ joined second := by simp [joined]

@[simp] theorem toList_quoted (s : String) : (quoted s).toList = Json.Text.quoted s := by
  simp [quoted]

@[simp] theorem toList_text (n : Int) : (Decimal.text n).toList = Decimal.chars n := by
  simp [Decimal.text]

theorem joined_member (value : List String) :
    joined (member name value) = ',' :: (Json.Text.quoted name ++ ':' :: joined value) := by
  simp [member]

/-- Whether a text begins with anything but the member of a name. -/
def Lacks (name : String) (s : List Char) : Prop := ∀ rest, s ≠ ',' :: (Json.Text.quoted name ++ rest)

theorem lacks_brace : Lacks name ('}' :: x) := by
  intro rest same
  simp at same

theorem lacks_member {value : List String} (differs : other ≠ name) :
    Lacks name (joined (member other value) ++ x) := by
  intro rest same
  rw [joined_member, List.cons_append, List.append_assoc] at same
  exact differs (quoted_append_inj (List.cons.inj same).2).1

theorem lacks_optional {value : Option String} (differs : other ≠ name) (lacks : Lacks name x) :
    Lacks name (joined (optional other value) ++ x) := by
  cases value with
  | none => exact lacks
  | some s => exact lacks_member differs

theorem optional_append_inj {a b : Option String} (lacks : Lacks name x) (misses : Lacks name y)
    (same : joined (optional name a) ++ x = joined (optional name b) ++ y) : a = b ∧ x = y := by
  cases a with
  | none =>
    cases b with
    | none => exact ⟨rfl, same⟩
    | some t =>
      simp only [optional, joined_member, List.cons_append, List.append_assoc] at same
      exact absurd same (lacks _)
  | some s =>
    simp only [optional, joined_member, List.cons_append, List.append_assoc] at same
    cases b with
    | none => exact absurd same.symm (misses _)
    | some t =>
      simp only [joined_member, List.cons_append, List.append_assoc, List.cons.injEq, true_and,
        List.append_cancel_left_eq, joined_cons, toList_quoted, joined_nil] at same
      obtain ⟨rfl, rest⟩ := quoted_append_inj same
      exact ⟨rfl, rest⟩

theorem breaks_optional {value : Option String} (ends : Breaks x) :
    Breaks (joined (optional name value) ++ x) := by
  cases value with
  | none => exact ends
  | some s =>
    rw [optional, joined_member]
    exact breaks_cons.mpr rfl

theorem headerObject_append_inj {h k : String × String}
    (same : joined (headerObject h) ++ x = joined (headerObject k) ++ y) : h = k ∧ x = y := by
  simp only [headerObject, joined_append, joined_cons, joined_nil, joined_member, toList_quoted,
    List.append_assoc, List.cons_append, List.nil_append, List.append_cancel_left_eq] at same
  obtain ⟨key, same⟩ := quoted_append_inj same
  simp only [List.cons.injEq, true_and, List.append_cancel_left_eq] at same
  obtain ⟨value, same⟩ := quoted_append_inj same
  exact ⟨Prod.ext key value, List.append_cancel_left same⟩

/-- The headers after the first, and the bracket that ends them. -/
theorem headers_append_inj {headers others : List (String × String)}
    (same : joined (headers.flatMap fun h => "," :: headerObject h) ++ ']' :: x =
      joined (others.flatMap fun h => "," :: headerObject h) ++ ']' :: y) :
    headers = others ∧ x = y := by
  induction headers generalizing others with
  | nil =>
    cases others with
    | nil => exact ⟨rfl, (List.cons.inj same).2⟩
    | cons k others => simp at same
  | cons h headers ih =>
    cases others with
    | nil => simp at same
    | cons k others =>
      simp only [List.flatMap_cons, joined_append, joined_cons, List.append_assoc,
        List.append_cancel_left_eq] at same
      obtain ⟨rfl, rest⟩ := headerObject_append_inj same
      obtain ⟨rfl, after⟩ := ih rest
      exact ⟨rfl, after⟩

theorem headerArray_append_inj {headers others : List (String × String)}
    (same : joined (headerArray headers) ++ x = joined (headerArray others) ++ y) :
    headers = others ∧ x = y := by
  cases headers with
  | nil =>
    cases others with
    | nil => exact ⟨rfl, List.append_cancel_left same⟩
    | cons k others => simp [headerArray, headerObject] at same
  | cons h headers =>
    cases others with
    | nil => simp [headerArray, headerObject] at same
    | cons k others =>
      simp only [headerArray, joined_append, joined_cons, joined_nil, List.cons_append,
        List.append_assoc, List.append_cancel_left_eq] at same
      obtain ⟨rfl, rest⟩ := headerObject_append_inj same
      obtain ⟨rfl, after⟩ := headers_append_inj rest
      exact ⟨rfl, after⟩

/-- The headers of a record, if it has any. -/
def headerPieces (headers : List (String × String)) : List String :=
  if headers = [] then [] else member "headers" (headerArray headers)

theorem lacks_headers {headers : List (String × String)} (differs : "headers" ≠ name) :
    Lacks name (joined (headerPieces headers) ++ '}' :: x) := by
  unfold headerPieces
  split
  · exact lacks_brace
  · exact lacks_member differs

theorem breaks_headers {headers : List (String × String)} :
    Breaks (joined (headerPieces headers) ++ '}' :: x) := by
  unfold headerPieces
  split
  · exact breaks_cons.mpr rfl
  · rw [joined_member]
    exact breaks_cons.mpr rfl

theorem headerPieces_append_inj {headers others : List (String × String)}
    (same : joined (headerPieces headers) ++ '}' :: x = joined (headerPieces others) ++ '}' :: y) :
    headers = others ∧ x = y := by
  unfold headerPieces at same
  by_cases none : headers = [] <;> by_cases empty : others = []
  · rw [if_pos none, if_pos empty] at same
    exact ⟨none.trans empty.symm, (List.cons.inj same).2⟩
  · simp [if_pos none, if_neg empty, joined_member] at same
  · simp [if_neg none, if_pos empty, joined_member] at same
  · rw [if_neg none, if_neg empty, joined_member, joined_member] at same
    simp only [List.cons_append, List.append_assoc, List.cons.injEq, true_and,
      List.append_cancel_left_eq] at same
    obtain ⟨rfl, rest⟩ := headerArray_append_inj same
    exact ⟨rfl, (List.cons.inj rest).2⟩

/-- What follows the offset. -/
def afterOffset (r : Record) (x : List Char) : List Char :=
  joined (optional "timestamp" (r.timestamp.map Rfc3339.exact)) ++
    (joined (optional "key" r.key) ++
      (joined (optional "value" r.value) ++ (joined (headerPieces r.headers) ++ '}' :: x)))

theorem line_append (r : Record) :
    line r ++ x = '{' :: (Json.Text.quoted "partition" ++ ':' :: (Decimal.chars r.partition ++
      ',' :: (Json.Text.quoted "offset" ++ ':' :: (Decimal.chars r.offset ++ afterOffset r x)))) := by
  simp [line, object, afterOffset, headerPieces, joined_member]

theorem breaks_afterOffset (r : Record) : Breaks (afterOffset r x) :=
  breaks_optional (breaks_optional (breaks_optional breaks_headers))

theorem afterOffset_inj {r s : Record} (dated : r.Dated) (named : s.Dated)
    (same : afterOffset r x = afterOffset s y) :
    (r.timestamp.map Instant.carried = s.timestamp.map Instant.carried ∧ r.key = s.key ∧
      r.value = s.value ∧ r.headers = s.headers) ∧ x = y := by
  obtain ⟨timestamp, same⟩ := optional_append_inj
    (lacks_optional (by decide) (lacks_optional (by decide) (lacks_headers (by decide))))
    (lacks_optional (by decide) (lacks_optional (by decide) (lacks_headers (by decide)))) same
  obtain ⟨key, same⟩ := optional_append_inj
    (lacks_optional (by decide) (lacks_headers (by decide)))
    (lacks_optional (by decide) (lacks_headers (by decide))) same
  obtain ⟨value, same⟩ := optional_append_inj
    (lacks_headers (by decide)) (lacks_headers (by decide)) same
  obtain ⟨headers, after⟩ := headerPieces_append_inj same
  exact ⟨⟨dated.timestamp_inj named timestamp, key, value, headers⟩, after⟩

theorem line_append_inj {r s : Record} (dated : r.Dated) (named : s.Dated)
    (same : line r ++ x = line s ++ y) : r.carried = s.carried ∧ x = y := by
  simp only [line_append, List.cons.injEq, true_and, List.append_cancel_left_eq] at same
  obtain ⟨partition, same⟩ := chars_append_inj (breaks_cons.mpr rfl) (breaks_cons.mpr rfl) same
  simp only [List.cons.injEq, true_and, List.append_cancel_left_eq] at same
  obtain ⟨offset, same⟩ := chars_append_inj (breaks_afterOffset r) (breaks_afterOffset s) same
  obtain ⟨⟨timestamp, key, value, headers⟩, after⟩ := afterOffset_inj dated named same
  constructor
  · unfold Record.carried
    rw [partition, offset, timestamp, key, value, headers]
  · exact after

theorem line_carried (r : Record) : line r.carried = line r := by
  have dates : r.carried.timestamp.map Rfc3339.exact = r.timestamp.map Rfc3339.exact := by
    simp [Record.carried, Function.comp_def, Rfc3339.exact_carried]
  unfold line object
  rw [dates]
  rfl

theorem newline_not_mem_optional {value : Option String} :
    '\n' ∉ joined (optional name value) := by
  cases value with
  | none => exact List.not_mem_nil
  | some s => simp [optional, joined_member, newline_not_mem_quoted]

theorem newline_not_mem_headerArray (headers : List (String × String)) :
    '\n' ∉ joined (headerArray headers) := by
  have object (h : String × String) : '\n' ∉ joined (headerObject h) := by
    simp [headerObject, joined_member, newline_not_mem_quoted]
  cases headers with
  | nil => decide
  | cons h headers =>
    have others : '\n' ∉ joined (headers.flatMap fun h => "," :: headerObject h) := by
      induction headers with
      | nil => exact List.not_mem_nil
      | cons k headers ih => simp [object, ih]
    simp [headerArray, object, others]

theorem newline_not_mem_chars (n : Int) : '\n' ∉ Decimal.chars n := by
  intro member
  rcases Decimal.mem_chars member with sign | digit
  · cases sign
  · cases digit

/-- An object stays on its line. -/
theorem newline_not_mem_line (r : Record) : '\n' ∉ line r := by
  have headers : '\n' ∉ joined (headerPieces r.headers) := by
    unfold headerPieces
    split
    · exact List.not_mem_nil
    · simp [joined_member, newline_not_mem_quoted, newline_not_mem_headerArray]
  have shape := line_append (x := []) r
  rw [List.append_nil] at shape
  simp [shape, afterOffset, newline_not_mem_quoted, newline_not_mem_chars,
    newline_not_mem_optional, headers]

end Layout
end TopicReader
