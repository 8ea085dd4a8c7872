import TopicReader.Partition.Start
import TopicReader.Proofs.Text.Numerals
import TopicReader.Proofs.Text.Words

/-! How the start of a partition may be written. What is read is exactly what the grammar has, and
what a start is written as is read as that start. -/
namespace TopicReader

open Decimal (Numeral)
open Text (Surrounds)

variable {s word : List Char} {n : Int}

namespace Position

/-- A keyword in any ASCII letter case, or a numeral for an offset. -/
inductive Written : List Char → Position → Prop where
  | oldest {s : List Char} (word : s.map Char.toLower = "oldest".toList) : Written s .oldest
  | newest {s : List Char} (word : s.map Char.toLower = "newest".toList) : Written s .newest
  | exactly {s : List Char} {n : Int} (numeral : Numeral s n) (natural : 0 ≤ n) (fits : n < 2 ^ 63) :
      Written s (.exactly n)

/-- Whether a position is one that can be asked for. -/
def Proper : Position → Prop
  | .exactly n => 0 ≤ n ∧ n < 2 ^ 63
  | .oldest | .newest => True

end Position

namespace Start

/-- The part before the first equals sign is a numeral for a partition, and the part behind it is a
position. Both may have white space around them. -/
inductive Written (s : List Char) (start : Start) : Prop where
  | parts {before after partition position : List Char} (split : s = before ++ '=' :: after)
      (first : '=' ∉ before) (left : Surrounds partition before)
      (numeral : Numeral partition start.partition) (natural : 0 ≤ start.partition)
      (fits : start.partition < 2 ^ 31) (right : Surrounds position after)
      (written : Position.Written position start.position)

/-- Whether a start is one that can be asked for. -/
structure Proper (start : Start) : Prop where
  natural : 0 ≤ start.partition
  fits : start.partition < 2 ^ 31
  position : start.position.Proper

end Start

/-- The characters of numerals lie below all letters. -/
theorem Decimal.Numeral.code {c : Char} (numeral : Numeral s n) (member : c ∈ s) :
    43 ≤ c.toNat ∧ c.toNat ≤ 57 := by
  rcases numeral.mem member with digit | rfl | rfl
  · rw [Decimal.isDigit, Bool.and_eq_true, decide_eq_true_eq, decide_eq_true_eq] at digit
    have low : 48 ≤ c.toNat := UInt32.le_iff_toNat_le.mp digit.1
    have high : c.toNat ≤ 57 := UInt32.le_iff_toNat_le.mp digit.2
    omega
  · decide
  · decide

theorem Decimal.Numeral.solid (numeral : Numeral s n) : ∀ c ∈ s, Text.isBlank c = false := by
  intro c member
  have code := numeral.code member
  simp only [Text.isBlank, Text.blankRanges, List.any_cons, List.any_nil, Bool.or_eq_false_iff,
    Bool.and_eq_false_iff, decide_eq_false_iff_not, and_true]
  omega

/-- Only a numeral itself is a numeral in lower case. -/
theorem Decimal.Numeral.lowered_eq_iff (numeral : Numeral word n) :
    s.flatMap Text.lowerCase = word ↔ s = word := by
  have plain : ∀ d ∈ word, d ∉ ['k', 'i', '\u212A', '\u0130'] := by
    intro d member outside
    have code := numeral.code member
    have all : ∀ x ∈ ['k', 'i', '\u212A', '\u0130'], 57 < x.toNat := by simp
    exact absurd (all d outside) (by omega)
  have other : ∀ d ∈ word, ¬ ('a' ≤ d ∧ d ≤ 'z') := by
    rintro d member ⟨letter, _⟩
    have code := numeral.code member
    have high : 97 ≤ d.toNat := UInt32.le_iff_toNat_le.mp letter
    omega
  rw [Text.lowered_eq_iff plain]
  constructor
  · intro same
    exact Text.eq_of_map_toLower same other
  · rintro rfl
    have still : s.map Char.toLower = s.map id := by
      apply List.map_congr_left
      intro c member
      have code := numeral.code member
      exact Text.toLower_eq_self (.inl (by omega))
    rwa [List.map_id] at still

namespace Position

variable {position : Position}

theorem Written.solid (written : Written word position) : ∀ c ∈ word, Text.isBlank c = false := by
  cases written with
  | oldest keyword => exact Text.solid_of_toLower keyword (by simp [Text.isBlank, Text.blankRanges])
  | newest keyword => exact Text.solid_of_toLower keyword (by simp [Text.isBlank, Text.blankRanges])
  | exactly numeral => exact numeral.solid

/-- What a position is written as. -/
theorem written_text (proper : position.Proper) : Written position.text.toList position := by
  cases position with
  | exactly n =>
    obtain ⟨natural, fits⟩ := proper
    rw [text, Decimal.text, String.toList_ofList]
    exact .exactly (Decimal.numeral_chars natural) natural fits
  | oldest => exact .oldest (by decide)
  | newest => exact .newest (by decide)

end Position

namespace Start

variable {start : Start} {position : Position}

theorem readPartition_eq_ok_iff : readPartition s = .ok n ↔
    ∃ word, Surrounds word s ∧ Numeral word n ∧ 0 ≤ n ∧ n < 2 ^ 31 := by
  unfold readPartition
  constructor
  · intro read
    simp only at read
    split at read
    · cases read
    · rename_i m signed
      split at read
      · cases read
      · cases read
        obtain ⟨numeral, _, fits⟩ := Decimal.signed?_eq_some_iff.mp signed
        exact ⟨Text.trim s, Text.surrounds_trim s, numeral, by omega, fits⟩
  · rintro ⟨word, stands, numeral, natural, fits⟩
    have signed : Decimal.signed? 32 word = some n :=
      Decimal.signed?_eq_some_iff.mpr ⟨numeral, by omega, fits⟩
    rw [Text.trim_eq numeral.solid stands]
    simp only [signed]
    exact if_neg (by omega)

theorem readPosition_eq_ok_iff : readPosition s = .ok position ↔
    ∃ word, Surrounds word s ∧ Position.Written word position := by
  have oldest {t : List Char} : t.flatMap Text.lowerCase = "oldest".toList ↔
      t.map Char.toLower = "oldest".toList := Text.lowered_eq_iff (by simp)
  have newest {t : List Char} : t.flatMap Text.lowerCase = "newest".toList ↔
      t.map Char.toLower = "newest".toList := Text.lowered_eq_iff (by simp)
  unfold readPosition
  constructor
  · intro read
    refine ⟨Text.trim s, Text.surrounds_trim s, ?_⟩
    simp only at read
    split at read
    · rename_i keyword
      cases read
      exact .oldest (oldest.mp keyword)
    · split at read
      · rename_i keyword
        cases read
        exact .newest (newest.mp keyword)
      · split at read
        · rename_i m signed
          cases read
          obtain ⟨signed, natural⟩ := Option.filter_eq_some_iff.mp signed
          obtain ⟨numeral, _, fits⟩ := Decimal.signed?_eq_some_iff.mp signed
          rw [← numeral.lowered_eq_iff.mp rfl] at numeral
          exact .exactly numeral (by simpa using natural) fits
        · cases read
  · rintro ⟨word, stands, written⟩
    rw [Text.trim_eq written.solid stands]
    cases written with
    | oldest keyword => simp only [oldest.mpr keyword, if_true]
    | newest keyword =>
      simp only [newest.mpr keyword, if_true]
      exact if_neg (by decide)
    | @exactly n numeral natural fits =>
      have lowered := numeral.lowered_eq_iff.mpr rfl
      have signed : Decimal.signed? 64 word = some n :=
        Decimal.signed?_eq_some_iff.mpr ⟨numeral, by omega, fits⟩
      have other {keyword : List Char} (letter : 'e' ∈ keyword) : word ≠ keyword := by
        rintro rfl
        exact absurd (numeral.code letter) (by decide)
      simp only [lowered, if_neg (other (show 'e' ∈ "oldest".toList by decide)),
        if_neg (other (show 'e' ∈ "newest".toList by decide)), signed, Option.filter_some,
        natural, decide_true, if_true]

/-- The first equals sign is where a text is split. -/
theorem split_first {before after : List Char} (first : '=' ∉ before) :
    (before ++ '=' :: after).takeWhile (· ≠ '=') = before ∧
      (before ++ '=' :: after).dropWhile (· ≠ '=') = '=' :: after := by
  have others : ∀ c ∈ before, decide (c ≠ '=') = true := by
    intro c member
    refine decide_eq_true ?_
    rintro rfl
    exact first member
  constructor
  · rw [List.takeWhile_append_of_pos others, List.takeWhile_cons_of_neg (by decide),
      List.append_nil]
  · rw [List.dropWhile_append_of_pos others, List.dropWhile_cons_of_neg (by decide)]

/-- Before what is split off there is no equals sign. -/
theorem split_of_dropWhile {c : Char} {after : List Char}
    (rest : s.dropWhile (· ≠ '=') = c :: after) :
    s = s.takeWhile (· ≠ '=') ++ '=' :: after ∧ '=' ∉ s.takeWhile (· ≠ '=') := by
  have stops := List.head?_dropWhile_not (fun d => decide (d ≠ '=')) s
  rw [rest, List.head?_cons] at stops
  obtain rfl : c = '=' := by simpa using stops
  constructor
  · rw [← rest, List.takeWhile_append_dropWhile]
  · intro member
    have other := List.all_eq_true.mp List.all_takeWhile _ member
    simp at other

theorem read_eq_ok_iff {s : String} : read s = .ok start ↔ Written s.toList start := by
  unfold read
  constructor
  · intro read
    simp only at read
    cases rest : s.toList.dropWhile (· ≠ '=') with
    | nil =>
      rw [rest] at read
      cases read
    | cons c after =>
      obtain ⟨split, first⟩ := split_of_dropWhile rest
      rw [rest] at read
      simp only at read
      cases left : readPartition (s.toList.takeWhile (· ≠ '=')) with
      | error e =>
        rw [left] at read
        cases read
      | ok n =>
        cases right : readPosition after with
        | error e =>
          rw [left, right] at read
          cases read
        | ok position =>
          rw [left, right] at read
          cases read
          obtain ⟨_, stands, numeral, natural, fits⟩ := readPartition_eq_ok_iff.mp left
          obtain ⟨_, follows, written⟩ := readPosition_eq_ok_iff.mp right
          exact .parts split first stands numeral natural fits follows written
  · intro written
    cases written with
    | @parts before after _ _ split first left numeral natural fits right written =>
      obtain ⟨front, back⟩ := @split_first before after first
      simp only [split, front, back]
      rw [readPartition_eq_ok_iff.mpr ⟨_, left, numeral, natural, fits⟩,
        readPosition_eq_ok_iff.mpr ⟨_, right, written⟩]
      rfl

/-- What a start is written as. -/
theorem written_text (proper : start.Proper) : Written start.text.toList start := by
  have numeral := Decimal.numeral_chars proper.natural
  have text : start.text.toList =
      Decimal.chars start.partition ++ '=' :: start.position.text.toList := by
    simp [Start.text, Decimal.text]
  have alone (word : List Char) : Surrounds word word := ⟨[], [], by simp, by simp, by simp⟩
  refine .parts text ?_ (alone _) numeral proper.natural proper.fits (alone _)
    (Position.written_text proper.position)
  intro member
  exact absurd (numeral.code member) (by decide)

theorem Written.proper (written : Written s start) : start.Proper := by
  cases written with
  | parts _ _ _ _ natural fits _ position =>
    refine ⟨natural, fits, ?_⟩
    cases h : start.position with
    | exactly n =>
      rw [h] at position
      cases position with
      | exactly _ natural fits => exact ⟨natural, fits⟩
    | oldest => trivial
    | newest => trivial

/-- A start is read from exactly the texts of its grammar, and it is the one that the text is for. Each
start that can be asked for is read from the text that it is written as, and nothing else is ever read:
what has been read once is read again from what it is written as. -/
theorem reads_its_grammar (s : String) (start : Start) :
    (read s = .ok start ↔ Written s.toList start) ∧
    (start.Proper → read start.text = .ok start) ∧
    (read s = .ok start → start.Proper ∧ read start.text = .ok start) := by
  refine ⟨read_eq_ok_iff, ?_, ?_⟩
  · intro proper
    exact read_eq_ok_iff.mpr (written_text proper)
  · intro read
    have proper := (read_eq_ok_iff.mp read).proper
    exact ⟨proper, read_eq_ok_iff.mpr (written_text proper)⟩

/-- A signed zero, two kinds of white space and a keyword in mixed case; and the greatest numbers. -/
theorem spaced_read :
    Written " -0 =\u00A0NewEst\n".toList ⟨0, .newest⟩ ∧
      read " -0 =\u00A0NewEst\n" = .ok ⟨0, .newest⟩ ∧ read "0=newest" = .ok ⟨0, .newest⟩ ∧
      Start.Proper ⟨2147483647, .exactly 9223372036854775807⟩ ∧
      read "2147483647=9223372036854775807" = .ok ⟨2147483647, .exactly 9223372036854775807⟩ := by
  have written : Written " -0 =\u00A0NewEst\n".toList ⟨0, .newest⟩ := by
    have space : ∀ c ∈ [' ', '\u00A0', '\n'], Text.isBlank c = true := by
      simp [Text.isBlank, Text.blankRanges]
    have digit : ∀ c ∈ ['0'], Decimal.isDigit c = true := by simp [Decimal.isDigit]
    refine @Written.parts _ _ " -0 ".toList "\u00A0NewEst\n".toList "-0".toList "NewEst".toList rfl
      (by decide) ⟨[' '], [' '], rfl, ?_, ?_⟩ (.minus ⟨by decide, digit⟩) (by decide) (by decide)
      ⟨['\u00A0'], ['\n'], rfl, ?_, ?_⟩ (.newest (by decide))
    all_goals
      intro c member
      exact space c (by simp_all)
  obtain ⟨iff, _, again⟩ := reads_its_grammar " -0 =\u00A0NewEst\n" ⟨0, .newest⟩
  have read := iff.mpr written
  have greatest : Start.Proper ⟨2147483647, .exactly 9223372036854775807⟩ :=
    ⟨by decide, by decide, by decide, by decide⟩
  obtain ⟨_, exact, _⟩ := reads_its_grammar "" ⟨2147483647, .exactly 9223372036854775807⟩
  refine ⟨written, read, ?_, greatest, ?_⟩
  · exact (again read).2
  · exact exact greatest

end Start
end TopicReader
