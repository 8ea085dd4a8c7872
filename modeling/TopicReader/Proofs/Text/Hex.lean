import TopicReader.Proofs.Text.Bits
import TopicReader.Text.Hex

/-! Bytes in hexadecimal. The text of bytes is the one text of lower-case digits that is read as these
bytes, and the one whose digits stand for their bits, four each. -/
namespace TopicReader.Hex

variable {s : Bytes} {t u : List Char} {c : Char} {n : Nat}

/-- A decimal digit or one of the first six small letters. -/
def IsLower (c : Char) : Prop := ('0' ≤ c ∧ c ≤ '9') ∨ ('a' ≤ c ∧ c ≤ 'f')

/-- Text whose digits stand for the bits of bytes. -/
def Written (t : List Char) (s : Bytes) : Prop :=
  ∃ values, t = values.map digit ∧ Carries 4 values s

theorem value?_digit (small : n < 16) : value? (digit n) = some n := by
  have all : ∀ n < 16, value? (digit n) = some n := by decide
  exact all n small

theorem isLower_digit (small : n < 16) : IsLower (digit n) := by
  have all : ∀ n < 16, ('0' ≤ digit n ∧ digit n ≤ '9') ∨ ('a' ≤ digit n ∧ digit n ≤ 'f') := by
    decide
  exact all n small

/-- A digit in lower case is the digit of its value. -/
theorem digit_of_value? (lower : IsLower c) (value : value? c = some n) :
    n < 16 ∧ digit n = c := by
  rcases lower with decimal | letter
  · have low : 48 ≤ c.toNat := UInt32.le_iff_toNat_le.mp decimal.1
    have high : c.toNat ≤ 57 := UInt32.le_iff_toNat_le.mp decimal.2
    rw [value?, if_pos decimal] at value
    cases value
    refine ⟨by omega, ?_⟩
    rw [digit, if_pos (by omega), Nat.add_sub_cancel' low, Char.ofNat_toNat]
  · have low : 97 ≤ c.toNat := UInt32.le_iff_toNat_le.mp letter.1
    have high : c.toNat ≤ 102 := UInt32.le_iff_toNat_le.mp letter.2
    have other : ¬ ('0' ≤ c ∧ c ≤ '9') := by
      rintro ⟨_, small⟩
      have below : c.toNat ≤ 57 := UInt32.le_iff_toNat_le.mp small
      omega
    rw [value?, if_neg other, if_pos letter] at value
    cases value
    refine ⟨by omega, ?_⟩
    rw [digit, if_neg (by omega), Nat.add_sub_cancel' (by omega), Char.ofNat_toNat]

theorem encode_cons (b : UInt8) (s : Bytes) :
    encode (b :: s) = digit (b.toNat / 16) :: digit (b.toNat % 16) :: encode s := rfl

theorem decode?_encode (s : Bytes) : decode? (encode s) = some s := by
  induction s with
  | nil => rfl
  | cons b rest ih =>
    have byte := b.toNat_lt
    have whole : UInt8.ofNat (b.toNat / 16 * 16 + b.toNat % 16) = b := by
      rw [Nat.div_add_mod', UInt8.ofNat_toNat]
    rw [encode_cons, decode?, value?_digit (by omega), value?_digit (by omega), ih]
    exact congrArg (some <| · :: rest) whole

theorem isLower_of_mem_encode (member : c ∈ encode s) : IsLower c := by
  obtain ⟨b, _, digits⟩ := List.mem_flatMap.mp member
  have byte := b.toNat_lt
  simp only [List.mem_cons, List.not_mem_nil, or_false] at digits
  rcases digits with rfl | rfl
  · exact isLower_digit (by omega)
  · exact isLower_digit (by omega)

theorem encode_of_decode? (lower : ∀ c ∈ t, IsLower c) (read : decode? t = some s) :
    encode s = t := by
  fun_induction decode? t generalizing s with
  | case1 =>
    cases read
    rfl
  | case2 a b rest ih =>
    simp only [Option.bind_eq_bind, Option.bind_eq_some_iff, Option.pure_def] at read
    obtain ⟨high, first, low, second, tail, later, same⟩ := read
    cases same
    obtain ⟨_, rfl⟩ := digit_of_value? (lower _ (by simp)) first
    obtain ⟨_, rfl⟩ := digit_of_value? (lower _ (by simp)) second
    have byte := UInt8.toNat_ofNat_of_lt' (show high * 16 + low < 256 by omega)
    have upper : (high * 16 + low) / 16 = high := by omega
    have under : (high * 16 + low) % 16 = low := by omega
    rw [encode_cons, byte, upper, under, ih (fun c member => lower c (by simp [member])) later]
  | case3 => cases read

theorem eq_encode_iff : t = encode s ↔ (∀ c ∈ t, IsLower c) ∧ decode? t = some s := by
  constructor
  · rintro rfl
    exact ⟨fun _ => isLower_of_mem_encode, decode?_encode s⟩
  · rintro ⟨lower, read⟩
    exact (encode_of_decode? lower read).symm

theorem written_encode (s : Bytes) : Written (encode s) s := by
  induction s with
  | nil => exact ⟨[], rfl, .nil (by decide)⟩
  | cons b rest ih =>
    obtain ⟨values, shape, carries⟩ := ih
    have byte := b.toNat_lt
    have halves : bits 8 b.toNat = bits 4 (b.toNat / 16) ++ bits 4 b.toNat :=
      bits_add (v := 4) (w := 4)
    have low : bits 4 (b.toNat % 16) = bits 4 b.toNat := bits_mod (w := 4)
    have pair : [b.toNat / 16, b.toNat % 16].flatMap (bits 4) = Bytes.bits [b] := by
      rw [List.flatMap_cons, List.flatMap_singleton, low, ← halves, Bytes.bits,
        List.flatMap_singleton]
    refine ⟨[b.toNat / 16, b.toNat % 16] ++ values, ?_, carries.append ?_ pair⟩
    · rw [encode_cons, shape]
      rfl
    · simp only [List.mem_cons, List.not_mem_nil, or_false]
      omega

theorem Written.unique (first : Written t s) (second : Written u s) : t = u := by
  obtain ⟨_, rfl, carries⟩ := first
  obtain ⟨_, rfl, same⟩ := second
  rw [carries.unique same]

theorem eq_encode_iff_written : t = encode s ↔ Written t s := by
  constructor
  · rintro rfl
    exact written_encode s
  · intro written
    exact written.unique (written_encode s)

end TopicReader.Hex
