import Mathlib.Tactic.Common
import TopicReader.Json.Pretty
import TopicReader.Proofs.Json.NumberReading
import TopicReader.Proofs.Text.Decimals
import TopicReader.Proofs.Text.Utf8

/-! Numbers as they are written. Every number is written as a number of the grammar: a whole one as
the integer that it is, and any other with a fraction or an exponent. An integer of a document is kept
as a whole number if and only if 64 bits hold it, with its sign. -/
namespace TopicReader.Json

variable {l : Literal} {n : Nat} {k : Int} {cs : List Char} {digits : Bytes}

/-- The number that digits spell after a number that has been read. -/
def spelled (n : Nat) (digits : Bytes) : Nat :=
  digits.foldl (fun n b => n * 10 + Number.digitValue b) n

namespace Literal

/-- Neither a fraction nor an exponent is written. -/
def IsInteger (l : Literal) : Prop := l.fraction = [] ∧ l.exponent = none

/-- The integer that is denoted, of an integer. -/
def integer (l : Literal) : Int :=
  if l.negative then -(spelled 0 l.whole : Int) else spelled 0 l.whole

/-- Integers that 64 bits hold, signed or unsigned. Minus zero is not among them. -/
structure Exact (l : Literal) : Prop where
  is_integer : l.IsInteger
  least : -(pow2 63 : Int) ≤ l.integer
  greatest : l.integer < (pow2 64 : Int)
  sign : l.negative = true → l.integer ≠ 0

end Literal

namespace Number

theorem le_spelled : n ≤ spelled n digits := by
  induction digits generalizing n with
  | nil => exact Nat.le_refl n
  | cons b rest ih =>
    have next : n * 10 + digitValue b ≤ spelled n (b :: rest) := ih
    omega

theorem gather_small (fits : spelled n digits < significandLimit) :
    gather n digits = (spelled n digits, []) := by
  induction digits generalizing n with
  | nil => rfl
  | cons b rest ih =>
    have next : n * 10 + digitValue b < significandLimit := Nat.lt_of_le_of_lt le_spelled fits
    rw [gather, if_pos next]
    exact ih fits

theorem gather_large (small : n < significandLimit) (large : significandLimit ≤ spelled n digits) :
    (gather n digits).2 ≠ [] := by
  induction digits generalizing n with
  | nil => exact absurd large (Nat.not_le.mpr small)
  | cons b rest ih =>
    rw [gather]
    split
    · rename_i next
      exact ih next large
    · simp

theorem joined?_ne_whole {negative : Bool} {exponent : Int} :
    joined? negative n exponent ≠ some (.whole k) := by
  intro same
  obtain ⟨_, _, ⟨⟩⟩ := Option.map_eq_some_iff.mp same

/-- A whole number is kept if no digit was too many, and with a minus sign only if it is not zero and
not past what a signed number of 64 bits holds. -/
theorem whole?_eq_whole {negative : Bool} {dropped : Nat} :
    whole? negative n dropped = some (.whole k) ↔ dropped = 0 ∧
      if negative then (0 < n ∧ n ≤ pow2 63) ∧ k = -(n : Int) else k = n := by
  rw [whole?]
  by_cases lost : dropped = 0
  · cases negative with
    | false => simp [lost, eq_comm]
    | true =>
      rw [if_neg (by simp [lost]), if_neg (by simp), if_pos rfl]
      split
      · rename_i outside
        refine iff_of_false joined?_ne_whole ?_
        rintro ⟨_, inside, _⟩
        omega
      · rename_i inside
        simp [lost, eq_comm, Nat.pos_iff_ne_zero.mpr (not_or.mp inside).1,
          Nat.not_lt.mp (not_or.mp inside).2]
  · rw [if_pos lost]
    exact iff_of_false joined?_ne_whole fun kept => lost kept.1

end Number

namespace Literal

/-- The bounds on an integer, by its sign. -/
theorem exact_iff (h : l.IsInteger) : l.Exact ↔
    if l.negative then 0 < spelled 0 l.whole ∧ spelled 0 l.whole ≤ pow2 63
    else spelled 0 l.whole < pow2 64 := by
  have wide : pow2 64 = 2 * pow2 63 := rfl
  cases sign : l.negative with
  | false =>
    have integer : l.integer = spelled 0 l.whole := by simp [Literal.integer, sign]
    rw [if_neg (by simp)]
    constructor
    · rintro ⟨_, _, greatest, _⟩
      omega
    · intro inside
      exact ⟨h, by omega, by omega, by simp [sign]⟩
  | true =>
    have integer : l.integer = -(spelled 0 l.whole : Int) := by simp [Literal.integer, sign]
    rw [if_pos rfl]
    constructor
    · rintro ⟨_, least, _, nonzero⟩
      have other := nonzero sign
      omega
    · intro inside
      exact ⟨h, by omega, by omega, fun _ => by omega⟩

theorem value?_of_isInteger (h : l.IsInteger) : l.value? =
    Number.whole? l.negative (Number.gather 0 l.whole).1 (Number.gather 0 l.whole).2.length := by
  rw [value?, h.1, h.2]
  rfl

/-- An integer is kept as a whole number if and only if it is exact, and then as the one that it
denotes. -/
theorem value?_eq_whole (h : l.IsInteger) :
    l.value? = some (.whole k) ↔ l.Exact ∧ k = l.integer := by
  rw [value?_of_isInteger h, Number.whole?_eq_whole, exact_iff h, integer]
  by_cases fits : spelled 0 l.whole < Number.significandLimit
  · have bounded : spelled 0 l.whole < pow2 64 := fits
    rw [Number.gather_small fits]
    cases l.negative with
    | false => simp [bounded]
    | true => simp
  · have dropped : (Number.gather 0 l.whole).2.length ≠ 0 := by
      simpa using Number.gather_large (by decide) (Nat.not_lt.mp fits)
    have unbounded : ¬ spelled 0 l.whole < pow2 64 := fits
    have wide : pow2 64 = 2 * pow2 63 := rfl
    refine iff_of_false (fun kept => dropped kept.1) ?_
    rintro ⟨inside, _⟩
    split at inside <;> omega

theorem Exact.value? (h : l.Exact) : l.value? = some (.whole l.integer) :=
  (value?_eq_whole h.is_integer).mpr ⟨h, rfl⟩

end Literal

section

open Utf8

theorem encodeChar_digit {c : Char} (digit : Decimal.isDigit c = true) :
    String.utf8EncodeChar c = [.ofNat c.toNat] ∧ 48 ≤ c.toNat ∧ c.toNat ≤ 57 := by
  simp only [Decimal.isDigit, Bool.and_eq_true, decide_eq_true_eq, Char.le_def,
    UInt32.le_iff_toNat_le] at digit
  refine ⟨if_pos (Nat.le_trans digit.2 (by decide)), digit⟩

theorem isDigit_ofNat (low : 48 ≤ n) (high : n ≤ 57) : isDigit (.ofNat n) = true := by
  have code : (UInt8.ofNat n).toNat = n := by
    rw [UInt8.toNat_ofNat', Nat.mod_eq_of_lt (by omega)]
  simp [isDigit, UInt8.le_iff_toNat_le, code, low, high]

theorem all_bytes (all : ∀ c ∈ cs, Decimal.isDigit c = true) : (bytes cs).all isDigit = true := by
  induction cs with
  | nil => rfl
  | cons c rest ih =>
    obtain ⟨first, more⟩ := List.forall_mem_cons.mp all
    obtain ⟨byte, low, high⟩ := encodeChar_digit first
    rw [bytes, List.flatMap_cons, byte, List.singleton_append, List.all_cons,
      isDigit_ofNat low high, ← bytes, ih more]
    rfl

theorem bytes_ne_nil (some_char : cs ≠ []) (all : ∀ c ∈ cs, Decimal.isDigit c = true) :
    bytes cs ≠ [] := by
  cases cs with
  | nil => exact absurd rfl some_char
  | cons c rest =>
    rw [bytes, List.flatMap_cons, (encodeChar_digit (all c List.mem_cons_self)).1]
    simp

/-- A zero stands in front if and only if it does so among the characters. -/
theorem head_bytes (all : ∀ c ∈ cs, Decimal.isDigit c = true)
    (zero : (bytes cs).head? = some 0x30) : cs.head? = some '0' := by
  cases cs with
  | nil => cases zero
  | cons c rest =>
    obtain ⟨byte, low, high⟩ := encodeChar_digit (all c List.mem_cons_self)
    rw [bytes, List.flatMap_cons, byte] at zero
    have code : c.toNat % 256 = 48 := congrArg UInt8.toNat (Option.some.inj zero)
    have same : c.toNat = '0'.toNat := by
      rw [show '0'.toNat = 48 from rfl]
      omega
    exact congrArg some (Char.toNat_inj.mp same)

theorem spelled_bytes (all : ∀ c ∈ cs, Decimal.isDigit c = true) :
    spelled n (bytes cs) = Nat.ofDigitChars 10 cs n := by
  induction cs generalizing n with
  | nil => rfl
  | cons c rest ih =>
    obtain ⟨first, more⟩ := List.forall_mem_cons.mp all
    obtain ⟨byte, low, high⟩ := encodeChar_digit first
    have value : Number.digitValue (.ofNat c.toNat) = c.toNat - '0'.toNat := by
      rw [Number.digitValue, UInt8.toNat_ofNat', Nat.mod_eq_of_lt (by omega)]
      rfl
    rw [bytes, List.flatMap_cons, byte, List.singleton_append, ← bytes, Nat.ofDigitChars_cons,
      ← ih more, ← value, Nat.mul_comm 10]
    rfl

end

namespace Literal

open Utf8

variable {negative : Bool} {c : Char} {whole fraction power : List Char}

/-- A number that is given by its characters. -/
def ofChars (negative : Bool) (whole fraction : List Char) (exponent : Option Exponent)
    (some_whole : whole ≠ []) (all_whole : ∀ c ∈ whole, Decimal.isDigit c = true)
    (no_zero : whole.head? = some '0' → whole = ['0'])
    (all_fraction : ∀ c ∈ fraction, Decimal.isDigit c = true) : Literal where
  negative := negative
  whole := Utf8.bytes whole
  fraction := Utf8.bytes fraction
  exponent := exponent
  some_whole := bytes_ne_nil some_whole all_whole
  all_whole := all_bytes all_whole
  no_leading_zero zero := by
    rw [no_zero (head_bytes all_whole zero)]
    decide
  all_fraction := all_bytes all_fraction

theorem exists_point (whole fraction : List Char) (some_whole : whole ≠ [])
    (all_whole : ∀ c ∈ whole, Decimal.isDigit c = true)
    (no_zero : whole.head? = some '0' → whole = ['0']) (some_fraction : fraction ≠ [])
    (all_fraction : ∀ c ∈ fraction, Decimal.isDigit c = true) :
    ∃ l : Literal, l.bytes = signBytes negative ++ Utf8.bytes (whole ++ '.' :: fraction) ∧
      ¬ l.IsInteger := by
  have written := bytes_ne_nil some_fraction all_fraction
  refine ⟨ofChars negative whole fraction none some_whole all_whole no_zero all_fraction, ?_,
    fun integer => written integer.1⟩
  rw [Literal.bytes, ofChars, fractionBytes, if_neg written, exponentBytes, List.append_nil,
    bytes_append]
  rfl

theorem exists_mark (down : Prop) [Decidable down] (digit : Decimal.isDigit c = true)
    (all_fraction : ∀ c ∈ fraction, Decimal.isDigit c = true) (some_power : power ≠ [])
    (all_power : ∀ c ∈ power, Decimal.isDigit c = true) :
    ∃ l : Literal, l.bytes = signBytes negative ++ Utf8.bytes
      ([c] ++ (if fraction.isEmpty then [] else '.' :: fraction) ++
        'e' :: (if down then '-' else '+') :: power) ∧ ¬ l.IsInteger := by
  obtain ⟨b, is_sign, byte⟩ : ∃ b : UInt8, (b = 0x2B ∨ b = 0x2D) ∧
      String.utf8EncodeChar (if down then '-' else '+') = [b] := by
    split
    · exact ⟨0x2D, .inr rfl, rfl⟩
    · exact ⟨0x2B, .inl rfl, rfl⟩
  let e : Exponent := ⟨0x65, some b, Utf8.bytes power, .inl rfl, by simpa using is_sign,
    bytes_ne_nil some_power all_power, all_bytes all_power⟩
  refine ⟨ofChars negative [c] fraction (some e) (by simp) (by simpa using digit) ?_ all_fraction,
    ?_, ?_⟩
  · rintro ⟨⟩
    rfl
  · have letter : String.utf8EncodeChar 'e' = [0x65] := rfl
    have point : String.utf8EncodeChar '.' = [0x2E] := rfl
    cases fraction with
    | nil =>
      simp [Literal.bytes, ofChars, fractionBytes, exponentBytes, e, Utf8.bytes, letter, byte]
    | cons f more =>
      have written := bytes_ne_nil (List.cons_ne_nil f more) all_fraction
      rw [Literal.bytes, ofChars, fractionBytes, if_neg written]
      simp [exponentBytes, e, Utf8.bytes, letter, byte, point]
  · rintro ⟨_, ⟨⟩⟩

end Literal

variable {negative : Bool}

/-- What a layout makes of digits is a number with a fraction or an exponent. -/
theorem exists_layout (d : Shortest.Decimal) (proper : d.digits = 0 → d.exponent = 0) :
    ∃ l : Literal, l.bytes = Literal.signBytes negative ++ Utf8.bytes (layout d) ∧
      ¬ l.IsInteger := by
  have zeros {n : Nat} : ∀ c ∈ List.replicate n '0', Decimal.isDigit c = true := fun c member =>
    List.eq_of_mem_replicate member ▸ rfl
  have lone_zero : (Decimal.digits d.digits).head? = some '0' →
      Decimal.digits d.digits = ['0'] ∧ d.exponent = 0 := by
    intro zero
    have none := Decimal.eq_zero_of_head zero
    exact ⟨by rw [none]; rfl, proper none⟩
  have mine : ∀ c ∈ Decimal.digits d.digits, Decimal.isDigit c = true :=
    fun _ => Decimal.isDigit_digits
  have positive : 0 < (Decimal.digits d.digits).length := Nat.length_toDigits_pos
  simp only [layout]
  generalize Decimal.digits d.digits = digits at lone_zero mine positive ⊢
  obtain ⟨first, tail, rfl⟩ := List.exists_cons_of_length_pos positive
  obtain ⟨first_digit, tail_digits⟩ := List.forall_mem_cons.mp mine
  split
  · exact Literal.exists_mark _ first_digit tail_digits Nat.toDigits_ne_nil
      fun _ => Decimal.isDigit_digits
  · split
    · exact Literal.exists_point ['0'] _ (by simp) (by simp; rfl) (fun _ => rfl) (by simp)
        (List.forall_mem_append.mpr ⟨zeros, mine⟩)
    · rename_i leading
      split
      · refine Literal.exists_point _ ['0'] (by simp)
          (List.forall_mem_append.mpr ⟨mine, zeros⟩) ?_ (by simp) (by simp; rfl)
        intro zero
        obtain ⟨lone, none⟩ := lone_zero zero
        rw [lone, none]
        rfl
      · rename_i negative_exponent
        -- the point stands within the digits
        have inside : ((d.exponent + (first :: tail).length - 1).toNat + 1 : Nat) <
            (first :: tail).length := by omega
        refine Literal.exists_point _ _ (by simp)
          (fun c member => mine c (List.mem_of_mem_take member)) ?_ ?_
          (fun c member => mine c (List.mem_of_mem_drop member))
        · intro zero
          obtain ⟨_, none⟩ := lone_zero zero
          omega
        · intro none
          have length := congrArg List.length none
          rw [List.length_drop, List.length_nil] at length
          omega

section

open Shortest

variable {x : Binary64} {i : Interval} {e leading : Int} {fuel count : Nat} {d : Decimal}

theorem interval_not_contains_zero (nonzero : x.mantissa ≠ 0) :
    (interval x).contains ⟨0, e⟩ = false := by
  have low : 0 < (interval x).low * pow10 (-e).toNat := by
    apply Nat.mul_pos
    · have unit : 0 < pow2 x.exponent.toNat := Nat.pow_pos (by decide)
      simp only [interval]
      apply Nat.mul_pos _ unit
      split <;> omega
    · exact Nat.pow_pos (by decide)
  simp only [Interval.contains, Nat.zero_mul]
  split <;> simp [Nat.ne_of_gt low]

/-- The search gives up with a plain zero and finds no other one. -/
theorem search_proper (no_zero : ∀ e, i.contains ⟨0, e⟩ = false) :
    (search i leading fuel count).digits = 0 → (search i leading fuel count).exponent = 0 := by
  induction fuel generalizing count with
  | zero =>
    intro _
    rfl
  | succ fuel ih =>
    rw [search]
    split
    · rename_i d found
      intro zero
      have contained := List.find?_some found
      obtain ⟨digits, exponent⟩ := d
      subst zero
      rw [no_zero exponent] at contained
      cases contained
    · exact ih

theorem strip_proper (proper : d.digits = 0 → d.exponent = 0) :
    (strip fuel d).digits = 0 → (strip fuel d).exponent = 0 := by
  induction fuel generalizing d with
  | zero => exact proper
  | succ fuel ih =>
    rw [strip]
    split
    · rename_i more
      apply ih
      intro zero
      exact absurd zero (show d.digits / 10 ≠ 0 by omega)
    · exact proper

theorem ofBinary64_proper (x : Binary64) :
    (ofBinary64 x).digits = 0 → (ofBinary64 x).exponent = 0 := by
  unfold ofBinary64
  split
  · intro _
    rfl
  · rename_i nonzero
    have positive : x.mantissa ≠ 0 := by simpa [Binary64.isZero] using nonzero
    exact strip_proper (search_proper fun e => interval_not_contains_zero positive)

end

/-- An integer with as few digits as there are. -/
def Literal.ofInt (k : Int) : Literal :=
  .ofChars (decide (k < 0)) (Decimal.digits k.natAbs) [] none Nat.toDigits_ne_nil
    (fun _ => Decimal.isDigit_digits)
    (fun zero => by rw [Decimal.eq_zero_of_head zero]; rfl) (by simp)

theorem Literal.ofInt_isInteger : (ofInt k).IsInteger := ⟨rfl, rfl⟩

theorem Literal.ofInt_integer : (ofInt k).integer = k := by
  have digits : spelled 0 (Utf8.bytes (Decimal.digits k.natAbs)) = k.natAbs := by
    rw [spelled_bytes fun _ => Decimal.isDigit_digits]
    exact Nat.ofDigitChars_ten_toDigits
  simp only [integer, ofInt, ofChars, digits, decide_eq_true_eq]
  split <;> omega

theorem Literal.ofInt_exact (least : -(pow2 63 : Int) ≤ k) (greatest : k < (pow2 64 : Int)) :
    (ofInt k).Exact where
  is_integer := ofInt_isInteger
  least := by rwa [ofInt_integer]
  greatest := by rwa [ofInt_integer]
  sign negative := by
    rw [ofInt_integer]
    have below : k < 0 := of_decide_eq_true negative
    omega

namespace Number

/-- Whole numbers that 64 bits hold, signed or unsigned. -/
def InRange (n : Number) : Prop := ∃ k, n = .whole k ∧ -(pow2 63 : Int) ≤ k ∧ k < (pow2 64 : Int)

theorem inRange_of_exact {n : Number} (exact : l.Exact) (value : l.value? = some n) : n.InRange := by
  obtain rfl := Option.some.inj (exact.value?.symm.trans value)
  exact ⟨_, rfl, exact.least, exact.greatest⟩

theorem exists_real (negative : Bool) (x : Binary64) :
    ∃ l : Literal, l.bytes = Utf8.bytes (real negative x).chars ∧ ¬ l.IsInteger := by
  have sign : Utf8.bytes (if negative then ['-'] else []) = Literal.signBytes negative := by
    cases negative <;> rfl
  simp only [chars, Utf8.bytes_append, sign]
  split
  · exact Literal.exists_point ['0'] ['0'] (by simp) (by simp; rfl)
      (fun _ => rfl) (by simp) (by simp; rfl)
  · exact exists_layout _ (ofBinary64_proper x)

/-- The number of the grammar that a number is written as. -/
noncomputable def literal : Number → Literal
  | .whole k => .ofInt k
  | .real negative x => (exists_real negative x).choose

theorem literal_bytes (n : Number) : n.literal.bytes = Utf8.bytes n.chars := by
  cases n with
  | whole k =>
    have unsigned : (literal (.whole k)).bytes =
        Literal.signBytes (decide (k < 0)) ++ Utf8.bytes (Decimal.digits k.natAbs) := by
      simp [literal, Literal.bytes, Literal.ofInt, Literal.ofChars, Literal.fractionBytes,
        Literal.exponentBytes, Utf8.bytes]
    rw [unsigned, chars, Decimal.chars]
    by_cases negative : k < 0
    · rw [if_pos negative, decide_eq_true negative]
      rfl
    · rw [if_neg negative, decide_eq_false negative]
      rfl
  | real negative x => exact (exists_real negative x).choose_spec.1

/-- Only whole numbers are written as integers. -/
theorem literal_isInteger {n : Number} : n.literal.IsInteger ↔ ∃ k, n = .whole k := by
  cases n with
  | whole k => exact iff_of_true Literal.ofInt_isInteger ⟨k, rfl⟩
  | real negative x =>
    refine iff_of_false (exists_real negative x).choose_spec.2 ?_
    rintro ⟨_, ⟨⟩⟩

/-- A whole number in range is read again as it was written. -/
theorem InRange.literal_value? {n : Number} (inside : n.InRange) : n.literal.value? = some n := by
  obtain ⟨k, rfl, least, greatest⟩ := inside
  rw [literal, (Literal.ofInt_exact least greatest).value?, Literal.ofInt_integer]

end Number
end TopicReader.Json
