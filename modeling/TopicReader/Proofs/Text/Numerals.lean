import Mathlib.Algebra.Group.Int.Defs
import TopicReader.Proofs.Text.Decimals

/-! Whole numbers as they may be written. A numeral is read as the number that it denotes, leading
zeros and a sign in front of zero included, and nothing but a numeral is read. -/
namespace TopicReader.Decimal

variable {s ds : List Char} {n : Nat} {k : Int} {width : Nat}

/-- One or more digits. -/
def IsDigits (s : List Char) : Prop := s ≠ [] ∧ ∀ c ∈ s, isDigit c = true

/-- Digits with or without a sign in front, and the number that they denote. -/
inductive Numeral : List Char → Int → Prop where
  | bare {ds : List Char} (digits : IsDigits ds) : Numeral ds (spelled ds)
  | plus {ds : List Char} (digits : IsDigits ds) : Numeral ('+' :: ds) (spelled ds)
  | minus {ds : List Char} (digits : IsDigits ds) : Numeral ('-' :: ds) (-(spelled ds : Int))

theorem natural?_eq_some_iff : natural? s = some n ↔ IsDigits s ∧ n = spelled s := by
  have value : s.foldl (fun n c => n * 10 + digitValue c) 0 = spelled s := by
    rw [spelled, Nat.ofDigitChars_eq_foldl]
    simp only [Nat.mul_comm 10]
    rfl
  unfold natural?
  rw [value]
  constructor
  · intro read
    split at read
    · rename_i digits
      exact ⟨⟨digits.1, List.all_eq_true.mp digits.2⟩, (Option.some.inj read).symm⟩
    · cases read
  · rintro ⟨digits, rfl⟩
    exact if_pos ⟨digits.1, List.all_eq_true.mpr digits.2⟩

/-- What follows a sign is no sign. -/
theorem IsDigits.no_sign {c : Char} (digits : IsDigits (c :: ds)) : c ≠ '-' ∧ c ≠ '+' := by
  have digit := digits.2 c List.mem_cons_self
  constructor
  · rintro rfl
    cases digit
  · rintro rfl
    cases digit

theorem integer?_eq_some_iff : integer? s = some k ↔ Numeral s k := by
  constructor
  · intro read
    unfold integer? at read
    split at read
    · obtain ⟨_, coerced, rfl⟩ := Option.map_eq_some_iff.mp read
      obtain ⟨n, natural, same⟩ := Option.bind_eq_some_iff.mp coerced
      obtain ⟨digits, rfl⟩ := natural?_eq_some_iff.mp natural
      cases same
      exact .minus digits
    · obtain ⟨n, natural, rfl⟩ := Option.map_eq_some_iff.mp read
      obtain ⟨digits, rfl⟩ := natural?_eq_some_iff.mp natural
      exact .plus digits
    · obtain ⟨n, natural, rfl⟩ := Option.map_eq_some_iff.mp read
      obtain ⟨digits, rfl⟩ := natural?_eq_some_iff.mp natural
      exact .bare digits
  · intro numeral
    cases numeral with
    | plus digits => simp [integer?, natural?_eq_some_iff.mpr ⟨digits, rfl⟩]
    | minus digits => simp [integer?, natural?_eq_some_iff.mpr ⟨digits, rfl⟩]
    | bare digits =>
      cases s with
      | nil => exact absurd rfl digits.1
      | cons c rest =>
        obtain ⟨minus, plus⟩ := digits.no_sign
        have read := natural?_eq_some_iff.mpr ⟨digits, rfl⟩
        unfold integer?
        split
        · rename_i same
          exact absurd (List.cons.inj same).1 minus
        · rename_i same
          exact absurd (List.cons.inj same).1 plus
        · rw [read]
          rfl

/-- A numeral is read if what it denotes has the width. -/
theorem signed?_eq_some_iff : signed? width s = some k ↔
    Numeral s k ∧ -(2 ^ (width - 1) : Int) ≤ k ∧ k < 2 ^ (width - 1) := by
  have power : ((pow2 (width - 1) : Nat) : Int) = 2 ^ (width - 1) := by simp [pow2]
  unfold signed?
  rw [Option.filter_eq_some_iff, integer?_eq_some_iff, power]
  simp

/-- Each character of a numeral is a digit or a sign. -/
theorem Numeral.mem {c : Char} (numeral : Numeral s k) (member : c ∈ s) :
    isDigit c = true ∨ c = '+' ∨ c = '-' := by
  cases numeral with
  | bare digits => exact .inl (digits.2 c member)
  | plus digits =>
    rcases List.mem_cons.mp member with rfl | inside
    · exact .inr (.inl rfl)
    · exact .inl (digits.2 c inside)
  | minus digits =>
    rcases List.mem_cons.mp member with rfl | inside
    · exact .inr (.inr rfl)
    · exact .inl (digits.2 c inside)

/-- A number that is not negative is written as a numeral of its own. -/
theorem numeral_chars (natural : 0 ≤ k) : Numeral (chars k) k := by
  have digits : IsDigits (digits k.natAbs) := by
    rw [← padded_zero]
    exact ⟨padded_ne_nil, fun _ => isDigit_padded⟩
  have value : (spelled (Decimal.digits k.natAbs) : Int) = k := by
    rw [← padded_zero, spelled_padded]
    omega
  rw [chars, if_neg (by omega)]
  have numeral := Numeral.bare digits
  rwa [value] at numeral

end TopicReader.Decimal
