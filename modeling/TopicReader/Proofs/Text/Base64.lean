import Mathlib.Tactic.SplitIfs
import TopicReader.Proofs.Text.Bits
import TopicReader.Text.Base64

/-! Bytes in base 64. The text of bytes is the one text that is read as these bytes, and the one whose
digits stand for their bits, six each, with as little padding as makes whole groups of four. -/
namespace TopicReader.Base64

variable {s : Bytes} {t u : List Char} {c : Char} {n : Nat}

/-- Text whose digits stand for the bits of bytes, filled up to groups of four characters. -/
inductive Written (t : List Char) (s : Bytes) : Prop where
  | padded (values : List Nat) (padding : Nat) (carries : Carries 6 values s)
      (text : t = values.map digit ++ List.replicate padding '=') (few : padding < 4)
      (whole : 4 ∣ values.length + padding)

/-- The digits in the order of their values. -/
theorem alphabet : (List.range 64).map digit =
    "ABCDEFGHIJKLMNOPQRSTUVWXYZabcdefghijklmnopqrstuvwxyz0123456789+/".toList := by
  decide +kernel

theorem value?_digit (small : n < 64) : value? (digit n) = some n := by
  have all : ∀ n < 64, value? (digit n) = some n := by decide
  exact all n small

theorem digit_ne_padding (small : n < 64) : digit n ≠ '=' := by
  have all : ∀ n < 64, digit n ≠ '=' := by decide
  exact all n small

theorem digit_of_value? (value : value? c = some n) : n < 64 ∧ digit n = c := by
  unfold value? at value
  split_ifs at value with upper lower decimal plus slash
  all_goals cases value
  · have low : 65 ≤ c.toNat := UInt32.le_iff_toNat_le.mp upper.1
    have high : c.toNat ≤ 90 := UInt32.le_iff_toNat_le.mp upper.2
    refine ⟨by omega, ?_⟩
    rw [digit, if_pos (by omega), Nat.add_sub_cancel' low, Char.ofNat_toNat]
  · have low : 97 ≤ c.toNat := UInt32.le_iff_toNat_le.mp lower.1
    have high : c.toNat ≤ 122 := UInt32.le_iff_toNat_le.mp lower.2
    refine ⟨by omega, ?_⟩
    rw [digit, if_neg (by omega), if_pos (by omega), Nat.add_sub_cancel' (by omega),
      Char.ofNat_toNat]
  · have low : 48 ≤ c.toNat := UInt32.le_iff_toNat_le.mp decimal.1
    have high : c.toNat ≤ 57 := UInt32.le_iff_toNat_le.mp decimal.2
    refine ⟨by omega, ?_⟩
    rw [digit, if_neg (by omega), if_neg (by omega), if_pos (by omega), Nat.add_sub_cancel,
      Char.ofNat_toNat]
  · exact ⟨by decide, plus.symm⟩
  · exact ⟨by decide, slash.symm⟩

theorem ofNat_eq {b : UInt8} (value : n = b.toNat) : UInt8.ofNat n = b := by
  rw [value, UInt8.ofNat_toNat]

theorem decode?_encode (s : Bytes) : decode? (encode s) = some s := by
  fun_induction encode s with
  | case1 => rfl
  | case2 a =>
    have first := a.toNat_lt
    rw [decode?, value?_digit (by omega), value?_digit (by omega)]
    refine (if_pos (by omega)).trans ?_
    rw [ofNat_eq (b := a) (by omega)]
    rfl
  | case3 a b =>
    have first := a.toNat_lt
    have second := b.toNat_lt
    have last : digit (b.toNat % 16 * 4) ≠ '=' := digit_ne_padding (by omega)
    rw [decode?, value?_digit (by omega), value?_digit (by omega), value?_digit (by omega)]
    · refine (if_pos (by omega)).trans ?_
      rw [ofNat_eq (b := a) (by omega), ofNat_eq (b := b) (by omega)]
      rfl
    · exact last
  | case4 a b c rest ih =>
    have first := a.toNat_lt
    have second := b.toNat_lt
    have third := c.toNat_lt
    have last : digit (c.toNat % 64) ≠ '=' := digit_ne_padding (by omega)
    rw [decode?, value?_digit (by omega), value?_digit (by omega), value?_digit (by omega),
      value?_digit (by omega), ih]
    · simp only [Option.bind_eq_bind, Option.bind_some]
      rw [ofNat_eq (b := a) (by omega), ofNat_eq (b := b) (by omega), ofNat_eq (b := c) (by omega)]
      rfl
    · exact fun _ padding _ => last padding
    · exact fun padding _ => last padding

theorem encode_of_decode? (read : decode? t = some s) : encode s = t := by
  fun_induction decode? t generalizing s with
  | case1 =>
    cases read
    rfl
  | case2 a b =>
    simp only [Option.bind_eq_bind, Option.bind_eq_some_iff, Option.pure_def,
      Option.ite_none_right_eq_some] at read
    obtain ⟨x, first, y, second, cut, same⟩ := read
    obtain ⟨_, rfl⟩ := digit_of_value? first
    obtain ⟨_, rfl⟩ := digit_of_value? second
    cases same
    have x' : (x * 4 + y / 16) / 4 = x := by omega
    have y' : (x * 4 + y / 16) % 4 * 16 = y := by omega
    rw [encode, UInt8.toNat_ofNat_of_lt' (show x * 4 + y / 16 < 256 by omega), x', y']
  | case3 a b c other =>
    simp only [Option.bind_eq_bind, Option.bind_eq_some_iff, Option.pure_def,
      Option.ite_none_right_eq_some] at read
    obtain ⟨x, first, y, second, z, third, cut, same⟩ := read
    obtain ⟨_, rfl⟩ := digit_of_value? first
    obtain ⟨_, rfl⟩ := digit_of_value? second
    obtain ⟨_, rfl⟩ := digit_of_value? third
    cases same
    have x' : (x * 4 + y / 16) / 4 = x := by omega
    have y' : (x * 4 + y / 16) % 4 * 16 + (y % 16 * 16 + z / 4) / 16 = y := by omega
    have z' : (y % 16 * 16 + z / 4) % 16 * 4 = z := by omega
    rw [encode, UInt8.toNat_ofNat_of_lt' (show x * 4 + y / 16 < 256 by omega),
      UInt8.toNat_ofNat_of_lt' (show y % 16 * 16 + z / 4 < 256 by omega), x', y', z']
  | case4 a b c d rest _ _ ih =>
    simp only [Option.bind_eq_bind, Option.bind_eq_some_iff, Option.pure_def] at read
    obtain ⟨x, first, y, second, z, third, w, fourth, tail, later, same⟩ := read
    obtain ⟨_, rfl⟩ := digit_of_value? first
    obtain ⟨_, rfl⟩ := digit_of_value? second
    obtain ⟨_, rfl⟩ := digit_of_value? third
    obtain ⟨_, rfl⟩ := digit_of_value? fourth
    cases same
    have x' : (x * 4 + y / 16) / 4 = x := by omega
    have y' : (x * 4 + y / 16) % 4 * 16 + (y % 16 * 16 + z / 4) / 16 = y := by omega
    have z' : (y % 16 * 16 + z / 4) % 16 * 4 + (z % 4 * 64 + w) / 64 = z := by omega
    have w' : (z % 4 * 64 + w) % 64 = w := by omega
    rw [encode, UInt8.toNat_ofNat_of_lt' (show x * 4 + y / 16 < 256 by omega),
      UInt8.toNat_ofNat_of_lt' (show y % 16 * 16 + z / 4 < 256 by omega),
      UInt8.toNat_ofNat_of_lt' (show z % 4 * 64 + w < 256 by omega), x', y', z', w', ih later]
  | case5 => cases read

/-- No other text is read. -/
theorem eq_encode_iff : t = encode s ↔ decode? t = some s := by
  constructor
  · rintro rfl
    exact decode?_encode s
  · intro read
    exact (encode_of_decode? read).symm

section
variable {m a b : Nat}

theorem bits_first : bits 8 m = bits 6 (m / 4) ++ bits 2 m := bits_add (v := 6) (w := 2)

theorem bits_second : bits 8 m = bits 4 (m / 16) ++ bits 4 m := bits_add (v := 4) (w := 4)

theorem bits_third : bits 8 m = bits 2 (m / 64) ++ bits 6 m := bits_add (v := 2) (w := 6)

/-- The digit between the first two bytes of a group. -/
theorem bits_two_four (small : n < 16) : bits 6 (m % 4 * 16 + n) = bits 2 m ++ bits 4 n :=
  bits_shared (v := 2) (w := 4) small

/-- The digit between the last two bytes of a group. -/
theorem bits_four_two (small : n < 4) : bits 6 (m % 16 * 4 + n) = bits 4 m ++ bits 2 n :=
  bits_shared (v := 4) (w := 2) small

theorem bits_one : [a / 4, a % 4 * 16].flatMap (bits 6) = bits 8 a ++ List.replicate 4 false := by
  have last : bits 6 (a % 4 * 16) = bits 2 a ++ List.replicate 4 false :=
    bits_two_four (m := a) (n := 0) (by decide)
  rw [List.flatMap_cons, List.flatMap_singleton, last, bits_first, List.append_assoc]

theorem bits_two (second : b < 256) :
    [a / 4, a % 4 * 16 + b / 16, b % 16 * 4].flatMap (bits 6) =
      bits 8 a ++ bits 8 b ++ List.replicate 2 false := by
  have last : bits 6 (b % 16 * 4) = bits 4 b ++ List.replicate 2 false :=
    bits_four_two (m := b) (n := 0) (by decide)
  rw [List.flatMap_cons, List.flatMap_cons, List.flatMap_singleton, bits_two_four (by omega), last,
    bits_first (m := a), bits_second (m := b)]
  simp only [List.append_assoc]

theorem bits_three {c : Nat} (second : b < 256) (third : c < 256) :
    [a / 4, a % 4 * 16 + b / 16, b % 16 * 4 + c / 64, c % 64].flatMap (bits 6) =
      bits 8 a ++ bits 8 b ++ bits 8 c := by
  have last : bits 6 (c % 64) = bits 6 c := bits_mod (w := 6)
  rw [List.flatMap_cons, List.flatMap_cons, List.flatMap_cons, List.flatMap_singleton,
    bits_two_four (by omega), bits_four_two (by omega), last, bits_first (m := a),
    bits_second (m := b), bits_third (m := c)]
  simp only [List.append_assoc]

end

theorem written_encode (s : Bytes) : Written (encode s) s := by
  fun_induction encode s with
  | case1 => exact .padded [] 0 (.nil (by decide)) rfl (by decide) (by decide)
  | case2 a =>
    have first := a.toNat_lt
    have carries : Carries 6 [a.toNat / 4, a.toNat % 4 * 16] [a] := by
      refine ⟨?_, 4, by decide, ?_⟩
      · simp only [List.mem_cons, List.not_mem_nil, or_false]
        omega
      · rw [bits_one, Bytes.bits, List.flatMap_singleton]
    exact .padded _ 2 carries rfl (by decide) ⟨1, rfl⟩
  | case3 a b =>
    have first := a.toNat_lt
    have second := b.toNat_lt
    have carries : Carries 6 [a.toNat / 4, a.toNat % 4 * 16 + b.toNat / 16, b.toNat % 16 * 4]
        [a, b] := by
      refine ⟨?_, 2, by decide, ?_⟩
      · simp only [List.mem_cons, List.not_mem_nil, or_false]
        omega
      · rw [bits_two second, Bytes.bits, List.flatMap_cons, List.flatMap_singleton]
    exact .padded _ 1 carries rfl (by decide) ⟨1, rfl⟩
  | case4 a b c rest ih =>
    obtain ⟨values, padding, carries, text, few, whole⟩ := ih
    have first := a.toNat_lt
    have second := b.toNat_lt
    have third := c.toNat_lt
    have group := bits_three (a := a.toNat) second third
    have bytes : Bytes.bits [a, b, c] = bits 8 a.toNat ++ bits 8 b.toNat ++ bits 8 c.toNat := by
      rw [Bytes.bits, List.flatMap_cons, List.flatMap_cons, List.flatMap_singleton,
        List.append_assoc]
    refine .padded _ padding (carries.append ?_ (group.trans bytes.symm)) ?_ few ?_
    · simp only [List.mem_cons, List.not_mem_nil, or_false]
      omega
    · rw [text]
      rfl
    · rw [List.length_append, Nat.add_assoc]
      exact (Nat.dvd_add_right (Nat.dvd_refl 4)).mpr whole

theorem Written.unique (first : Written t s) (second : Written u s) : t = u := by
  obtain ⟨values, padding, carries, text, few, whole⟩ := first
  obtain ⟨values', padding', carries', text', few', whole'⟩ := second
  obtain rfl := carries.unique carries'
  obtain rfl : padding = padding' := by omega
  rw [text, text']

theorem eq_encode_iff_written : t = encode s ↔ Written t s := by
  constructor
  · rintro rfl
    exact written_encode s
  · intro written
    exact written.unique (written_encode s)

end TopicReader.Base64
