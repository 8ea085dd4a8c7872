import TopicReader.Proofs.Json.Grammar

/-! The numbers of the grammar and those that can be read. A number has a value unless it is too
large, and reading it takes exactly its own bytes. -/
namespace TopicReader.Json

namespace Number

/-- The number of a significand and a decimal exponent, unless it is too large. -/
def joined? (negative : Bool) (significand : Nat) (exponent : Int) : Option Number :=
  ((Binary64.ofQuotient? significand 1).bind (scale · exponent)).map (.real negative)

/-- A whole number, with the count of the digits that were too many to be kept. -/
def whole? (negative : Bool) (significand dropped : Nat) : Option Number :=
  if dropped ≠ 0 then joined? negative significand dropped
  else if !negative then some (.whole significand)
  else if significand = 0 ∨ pow2 63 < significand then joined? true significand 0
  else some (.whole (-(significand : Int)))

/-- A number whose exponent has the given sign and digits. -/
def scaled? (negative : Bool) (significand : Nat) (base : Int) (down : Bool) (digits : Bytes) :
    Option Number :=
  match exponent 0 digits with
  | .ok e => joined? negative significand (if down then base - e else base + e)
  | .error _ =>
    if significand ≠ 0 ∧ !down then none else some (.real negative Binary64.zero)

end Number

open Number

namespace Literal

/-- The value of a number that has an exponent or none. -/
def power? (negative : Bool) (significand : Nat) (base : Int) : Option Exponent → Option Number
  | none => joined? negative significand base
  | some e => scaled? negative significand base (e.sign = some 0x2D) e.digits

/-- The value of a number whose integer digits have been gathered. -/
def tail? (negative : Bool) (significand dropped : Nat) :
    Bytes → Option Exponent → Option Number
  | [], none => whole? negative significand dropped
  | [], some e => power? negative significand dropped (some e)
  | b :: digits, exponent =>
    let (significand, ignored) := gather significand (b :: digits)
    power? negative significand
      (dropped - (((b :: digits).length - ignored.length : Nat) : Int)) exponent

/-- The value of a number, unless it is too large. -/
def value? (l : Literal) : Option Number :=
  let (significand, dropped) := gather 0 l.whole
  tail? l.negative significand dropped.length l.fraction l.exponent

end Literal

namespace Number

variable {negative : Bool} {significand dropped : Nat} {base : Int} {s rest digits : Bytes}
  {v : Number}

theorem takeWhile_digits (all_digits : digits.all isDigit = true)
    (stops : ∀ b ∈ rest.head?, isDigit b = false) :
    (digits ++ rest).takeWhile isDigit = digits ∧ (digits ++ rest).dropWhile isDigit = rest := by
  have stop : rest.takeWhile isDigit = [] ∧ rest.dropWhile isDigit = rest := by
    cases rest with
    | nil => exact ⟨rfl, rfl⟩
    | cons b more =>
      have digit := stops b (by simp)
      exact ⟨List.takeWhile_cons_of_neg (by simp [digit]), List.dropWhile_cons_of_neg (by simp [digit])⟩
  have all := List.all_eq_true.mp all_digits
  rw [List.takeWhile_append_of_pos all, List.dropWhile_append_of_pos all, stop.1, stop.2]
  exact ⟨List.append_nil digits, rfl⟩

theorem joined_eq (negative : Bool) (significand : Nat) (exponent : Int) (rest : Bytes) :
    (joined negative significand exponent rest).toOption =
      (joined? negative significand exponent).map (·, rest) := by
  unfold joined joined?
  cases (Binary64.ofQuotient? significand 1).bind (scale · exponent) <;> rfl

/-- The digits of an exponent, when its sign has been read. -/
def readScaled (negative : Bool) (significand : Nat) (base : Int) (down : Bool) (s : Bytes) :
    Except Failure (Number × Bytes) :=
  let digits := s.takeWhile isDigit
  let rest := s.dropWhile isDigit
  if digits.isEmpty then .error ⟨.malformed, rest.length⟩
  else match exponent 0 digits with
    | .ok e => joined negative significand (if down then base - e else base + e) rest
    | .error unread =>
      if significand ≠ 0 ∧ !down then .error ⟨.numberOutOfRange, unread.length + rest.length⟩
      else .ok (.real negative Binary64.zero, rest)

theorem readExponent_minus : readExponent negative significand base (0x2D :: s) =
    readScaled negative significand base true s := rfl

theorem readExponent_plus : readExponent negative significand base (0x2B :: s) =
    readScaled negative significand base false s := rfl

theorem readExponent_unsigned (no_minus : s.head? ≠ some 0x2D) (no_plus : s.head? ≠ some 0x2B) :
    readExponent negative significand base s = readScaled negative significand base false s := by
  unfold readExponent readScaled
  split
  rename_i pair split_sign
  split at split_sign
  · simp at no_minus
  · simp at no_plus
  · cases split_sign
    rfl

theorem readScaled_eq {down : Bool} (some_digits : s.takeWhile isDigit ≠ []) :
    (readScaled negative significand base down s).toOption =
      (scaled? negative significand base down (s.takeWhile isDigit)).map
        (·, s.dropWhile isDigit) := by
  unfold readScaled scaled?
  simp only [List.isEmpty_iff, some_digits, if_false]
  split
  · exact joined_eq _ _ _ _
  · split <;> rfl

theorem head_digit (rest : Bytes) (all_digits : digits.all isDigit = true) (some_digits : digits ≠ []) :
    ∃ b, (digits ++ rest).head? = some b ∧ isDigit b = true := by
  cases digits with
  | nil => exact absurd rfl some_digits
  | cons b more =>
    simp only [List.all_cons, Bool.and_eq_true] at all_digits
    exact ⟨b, rfl, all_digits.1⟩

theorem readScaled_digits {down : Bool} (all_digits : digits.all isDigit = true)
    (some_digits : digits ≠ []) (stops : ∀ b ∈ rest.head?, isDigit b = false) :
    (readScaled negative significand base down (digits ++ rest)).toOption =
      (scaled? negative significand base down digits).map (·, rest) := by
  obtain ⟨taken, left⟩ := takeWhile_digits all_digits stops
  rw [readScaled_eq (by rwa [taken]), taken, left]

theorem readExponent_digits (e : Exponent) (stops : ∀ b ∈ rest.head?, isDigit b = false) :
    (readExponent negative significand base (e.sign.toList ++ (e.digits ++ rest))).toOption =
      (Literal.power? negative significand base (some e)).map (·, rest) := by
  have scaled (down : Bool) :
      (readScaled negative significand base down (e.digits ++ rest)).toOption =
        (scaled? negative significand base down e.digits).map (·, rest) :=
    readScaled_digits e.all_digits e.some_digits stops
  have value : Literal.power? negative significand base (some e) =
      scaled? negative significand base (e.sign = some 0x2D) e.digits := rfl
  rw [value]
  cases sign : e.sign with
  | none =>
    obtain ⟨b, first, digit⟩ := head_digit rest e.all_digits e.some_digits
    rw [Option.toList_none, List.nil_append, readExponent_unsigned]
    · exact scaled false
    · rw [first]
      rintro ⟨⟩
      cases digit
    · rw [first]
      rintro ⟨⟩
      cases digit
  | some b =>
    rw [Option.toList_some, List.singleton_append]
    rcases e.is_sign b sign with rfl | rfl
    · rw [readExponent_plus]
      exact scaled false
    · rw [readExponent_minus]
      exact scaled true

theorem digits_of_readScaled {down : Bool}
    (h : readScaled negative significand base down s = .ok (v, rest)) :
    ∃ digits, digits ≠ [] ∧ digits.all isDigit = true ∧ s = digits ++ rest ∧
      scaled? negative significand base down digits = some v := by
  by_cases none_taken : s.takeWhile isDigit = []
  · simp [readScaled, none_taken] at h
  · have same : (readScaled negative significand base down s).toOption =
        (scaled? negative significand base down (s.takeWhile isDigit)).map
          (·, s.dropWhile isDigit) := readScaled_eq none_taken
    rw [h] at same
    obtain ⟨w, value, pair⟩ := Option.map_eq_some_iff.mp same.symm
    cases pair
    exact ⟨_, none_taken, List.all_takeWhile, (List.takeWhile_append_dropWhile).symm, value⟩

theorem exponent_of_readExponent {letter : UInt8} (is_mark : letter = 0x65 ∨ letter = 0x45)
    (h : readExponent negative significand base s = .ok (v, rest)) :
    ∃ e : Exponent, letter :: s = Literal.exponentBytes (some e) ++ rest ∧
      Literal.power? negative significand base (some e) = some v := by
  by_cases minus : s.head? = some 0x2D
  · obtain ⟨t, rfl⟩ := List.head?_eq_some_iff.mp minus
    rw [readExponent_minus] at h
    obtain ⟨digits, some_digits, all_digits, rfl, value⟩ := digits_of_readScaled h
    exact ⟨⟨letter, some 0x2D, digits, is_mark, by simp, some_digits, all_digits⟩, rfl, value⟩
  · by_cases plus : s.head? = some 0x2B
    · obtain ⟨t, rfl⟩ := List.head?_eq_some_iff.mp plus
      rw [readExponent_plus] at h
      obtain ⟨digits, some_digits, all_digits, rfl, value⟩ := digits_of_readScaled h
      exact ⟨⟨letter, some 0x2B, digits, is_mark, by simp, some_digits, all_digits⟩, rfl, value⟩
    · rw [readExponent_unsigned minus plus] at h
      obtain ⟨digits, some_digits, all_digits, rfl, value⟩ := digits_of_readScaled h
      exact ⟨⟨letter, none, digits, is_mark, by simp, some_digits, all_digits⟩, rfl, value⟩

/-- What may follow the digits of a fraction. -/
def readPower (negative : Bool) (significand : Nat) (base : Int) (s : Bytes) :
    Except Failure (Number × Bytes) :=
  match s with
  | 0x65 :: rest | 0x45 :: rest => readExponent negative significand base rest
  | rest => joined negative significand base rest

theorem readPower_exponent {e : Option Exponent} (delimited : Delimited rest) :
    (readPower negative significand base (Literal.exponentBytes e ++ rest)).toOption =
      (Literal.power? negative significand base e).map (·, rest) := by
  cases e with
  | none =>
    rw [Literal.exponentBytes, List.nil_append]
    unfold readPower
    split
    · simp [Delimited] at delimited
    · simp [Delimited] at delimited
    · exact joined_eq _ _ _ _
  | some e =>
    rw [Literal.exponentBytes, List.cons_append, List.append_assoc]
    rcases e.is_mark with mark | mark
    · rw [mark]
      exact readExponent_digits e fun b first => (delimited b first).1
    · rw [mark]
      exact readExponent_digits e fun b first => (delimited b first).1

theorem exponent_of_readPower (h : readPower negative significand base s = .ok (v, rest)) :
    ∃ e, s = Literal.exponentBytes e ++ rest ∧
      Literal.power? negative significand base e = some v := by
  unfold readPower at h
  split at h
  · obtain ⟨e, spelled, value⟩ := exponent_of_readExponent (.inl rfl) h
    exact ⟨some e, spelled, value⟩
  · obtain ⟨e, spelled, value⟩ := exponent_of_readExponent (.inr rfl) h
    exact ⟨some e, spelled, value⟩
  · have same := joined_eq negative significand base s
    rw [h] at same
    obtain ⟨w, value, pair⟩ := Option.map_eq_some_iff.mp same.symm
    cases pair
    exact ⟨none, rfl, value⟩

theorem readFraction_point (s : Bytes) : readFraction negative significand dropped (0x2E :: s) =
    if (s.takeWhile isDigit).isEmpty then .error ⟨.malformed, (s.dropWhile isDigit).length⟩
    else readPower negative (gather significand (s.takeWhile isDigit)).1
      (dropped - (((s.takeWhile isDigit).length -
        (gather significand (s.takeWhile isDigit)).2.length : Nat) : Int)) (s.dropWhile isDigit) :=
  rfl

theorem readFraction_mark {letter : UInt8} (is_mark : letter = 0x65 ∨ letter = 0x45) :
    readFraction negative significand dropped (letter :: s) =
      readExponent negative significand dropped s := by
  rcases is_mark with rfl | rfl <;> rfl

theorem readFraction_whole (ends : ∀ b ∈ s.head?, b ≠ 0x2E ∧ b ≠ 0x65 ∧ b ≠ 0x45) :
    (readFraction negative significand dropped s).toOption =
      (whole? negative significand dropped).map (·, s) := by
  unfold readFraction whole?
  split
  · simp at ends
  · simp at ends
  · simp at ends
  · split
    · exact joined_eq _ _ _ _
    · split
      · rfl
      · split
        · exact joined_eq _ _ _ _
        · rfl

/-- An exponent or the end of a number is no digit. -/
theorem exponent_stops {e : Option Exponent} (delimited : Delimited rest) :
    ∀ b ∈ (Literal.exponentBytes e ++ rest).head?, isDigit b = false := by
  cases e with
  | none => exact fun b first => (delimited b first).1
  | some e =>
    rintro b ⟨⟩
    rcases e.is_mark with mark | mark <;> rw [mark] <;> rfl

theorem readFraction_tail {fraction : Bytes} {e : Option Exponent}
    (all_fraction : fraction.all isDigit = true) (delimited : Delimited rest) :
    (readFraction negative significand dropped
        (Literal.fractionBytes fraction ++ (Literal.exponentBytes e ++ rest))).toOption =
      (Literal.tail? negative significand dropped fraction e).map (·, rest) := by
  cases fraction with
  | nil =>
    cases e with
    | none => exact readFraction_whole fun b first => (delimited b first).2
    | some e =>
      rw [Literal.fractionBytes, if_pos rfl, List.nil_append, Literal.exponentBytes,
        List.cons_append, List.append_assoc, readFraction_mark e.is_mark]
      exact readExponent_digits e fun b first => (delimited b first).1
  | cons b more =>
    obtain ⟨taken, left⟩ := takeWhile_digits all_fraction (exponent_stops (e := e) delimited)
    rw [Literal.fractionBytes, if_neg (by simp), List.cons_append, readFraction_point, taken, left,
      if_neg (by simp)]
    exact readPower_exponent delimited

theorem tail_of_readFraction (h : readFraction negative significand dropped s = .ok (v, rest)) :
    ∃ fraction e, fraction.all isDigit = true ∧
      s = Literal.fractionBytes fraction ++ (Literal.exponentBytes e ++ rest) ∧
      Literal.tail? negative significand dropped fraction e = some v := by
  by_cases point : s.head? = some 0x2E
  · obtain ⟨t, rfl⟩ := List.head?_eq_some_iff.mp point
    rw [readFraction_point] at h
    split at h
    · cases h
    · rename_i some_digits
      obtain ⟨e, left, value⟩ := exponent_of_readPower h
      refine ⟨t.takeWhile isDigit, e, List.all_takeWhile, ?_, ?_⟩
      · rw [← left, Literal.fractionBytes, if_neg (by simpa using some_digits), List.cons_append,
          List.takeWhile_append_dropWhile]
      · cases shape : t.takeWhile isDigit with
        | nil => simp [shape] at some_digits
        | cons b more =>
          rw [shape] at value
          exact value
  · by_cases mark : ∃ b, s.head? = some b ∧ (b = 0x65 ∨ b = 0x45)
    · obtain ⟨b, first, is_mark⟩ := mark
      obtain ⟨t, rfl⟩ := List.head?_eq_some_iff.mp first
      rw [readFraction_mark is_mark] at h
      obtain ⟨e, spelled, value⟩ := exponent_of_readExponent is_mark h
      exact ⟨[], some e, rfl, spelled, value⟩
    · have same : (readFraction negative significand dropped s).toOption =
          (whole? negative significand dropped).map (·, s) := by
        refine readFraction_whole fun b first => ⟨?_, ?_, ?_⟩
        · rintro rfl
          exact point first
        · rintro rfl
          exact mark ⟨_, first, .inl rfl⟩
        · rintro rfl
          exact mark ⟨_, first, .inr rfl⟩
      rw [h] at same
      obtain ⟨w, value, pair⟩ := Option.map_eq_some_iff.mp same.symm
      cases pair
      exact ⟨[], none, rfl, rfl, value⟩

theorem readUnsigned_zero : readUnsigned negative (0x30 :: s) = readFraction negative 0 0 s := rfl

theorem readUnsigned_other (other : s.head? ≠ some 0x30) : readUnsigned negative s =
    if (s.takeWhile isDigit).isEmpty then .error ⟨.malformed, s.length⟩
    else readFraction negative (gather 0 (s.takeWhile isDigit)).1
      (gather 0 (s.takeWhile isDigit)).2.length (s.dropWhile isDigit) := by
  unfold readUnsigned
  split
  · simp at other
  · rfl

/-- What follows the integer digits of a number is no digit. -/
theorem fraction_stops {fraction : Bytes} {e : Option Exponent} (delimited : Delimited rest) :
    ∀ b ∈ (Literal.fractionBytes fraction ++ (Literal.exponentBytes e ++ rest)).head?,
      isDigit b = false := by
  cases fraction with
  | nil => exact exponent_stops delimited
  | cons b more =>
    rintro b ⟨⟩
    rfl

theorem readUnsigned_literal (l : Literal) (delimited : Delimited rest) :
    (readUnsigned l.negative (l.whole ++ (Literal.fractionBytes l.fraction ++
        (Literal.exponentBytes l.exponent ++ rest)))).toOption = l.value?.map (·, rest) := by
  by_cases zero : l.whole.head? = some 0x30
  · have whole := l.no_leading_zero zero
    rw [whole, List.singleton_append, readUnsigned_zero,
      readFraction_tail l.all_fraction delimited, Literal.value?, whole]
    rfl
  · have stops : ∀ b ∈ (Literal.fractionBytes l.fraction ++
        (Literal.exponentBytes l.exponent ++ rest)).head?, isDigit b = false :=
      fraction_stops delimited
    obtain ⟨taken, left⟩ := takeWhile_digits l.all_whole stops
    have other : (l.whole ++ (Literal.fractionBytes l.fraction ++
        (Literal.exponentBytes l.exponent ++ rest))).head? ≠ some 0x30 := by
      cases shape : l.whole with
      | nil => exact absurd shape l.some_whole
      | cons b more =>
        rw [shape] at zero
        exact zero
    rw [readUnsigned_other other, taken, left, if_neg (by simpa using l.some_whole)]
    exact readFraction_tail l.all_fraction delimited

theorem literal_of_readUnsigned (h : readUnsigned negative s = .ok (v, rest)) :
    ∃ l : Literal, l.negative = negative ∧ l.value? = some v ∧
      s = l.whole ++ (Literal.fractionBytes l.fraction ++
        (Literal.exponentBytes l.exponent ++ rest)) := by
  by_cases zero : s.head? = some 0x30
  · obtain ⟨t, rfl⟩ := List.head?_eq_some_iff.mp zero
    obtain ⟨fraction, e, all_fraction, rfl, value⟩ := tail_of_readFraction h
    exact ⟨⟨negative, [0x30], fraction, e, by simp, rfl, fun _ => rfl, all_fraction⟩, rfl, value,
      rfl⟩
  · rw [readUnsigned_other zero] at h
    split at h
    · cases h
    · rename_i some_digits
      obtain ⟨fraction, e, all_fraction, left, value⟩ := tail_of_readFraction h
      have some_whole : s.takeWhile isDigit ≠ [] := by simpa using some_digits
      have no_leading_zero : (s.takeWhile isDigit).head? = some 0x30 →
          s.takeWhile isDigit = [0x30] := by
        intro first
        cases s with
        | nil => cases first
        | cons b t =>
          rw [List.takeWhile_cons] at first
          split at first
          · exact absurd first zero
          · cases first
      refine ⟨⟨negative, s.takeWhile isDigit, fraction, e, some_whole, List.all_takeWhile,
        no_leading_zero, all_fraction⟩, rfl, value, ?_⟩
      rw [← left, List.takeWhile_append_dropWhile]

/-- Reading a number takes its own bytes, unless the number is too large. -/
theorem read_literal (l : Literal) (delimited : Delimited rest) :
    (Number.read (l.bytes ++ rest)).toOption = l.value?.map (·, rest) := by
  have unsigned := readUnsigned_literal l delimited
  simp only [Literal.bytes, List.append_assoc]
  cases sign : l.negative with
  | true =>
    rw [sign] at unsigned
    exact unsigned
  | false =>
    rw [sign] at unsigned
    rw [← unsigned, Literal.signBytes, if_neg (by simp), List.nil_append]
    obtain ⟨b, first, digit⟩ := head_digit (Literal.fractionBytes l.fraction ++
      (Literal.exponentBytes l.exponent ++ rest)) l.all_whole l.some_whole
    unfold Number.read
    split
    · rename_i shape
      rw [shape] at first
      cases first
      cases digit
    · rfl

/-- What is read as a number is a number of the grammar. -/
theorem literal_of_read (h : Number.read s = .ok (v, rest)) :
    ∃ l : Literal, l.value? = some v ∧ s = l.bytes ++ rest := by
  unfold Number.read at h
  split at h
  · obtain ⟨l, negative, value, rfl⟩ := literal_of_readUnsigned h
    refine ⟨l, value, ?_⟩
    simp [Literal.bytes, Literal.signBytes, negative]
  · obtain ⟨l, negative, value, rfl⟩ := literal_of_readUnsigned h
    refine ⟨l, value, ?_⟩
    simp [Literal.bytes, Literal.signBytes, negative]

end Number
end TopicReader.Json
