import Mathlib.Algebra.Group.Nat.Defs
import TopicReader.Text.Utf8

/-! Bytes as a row of bits. Digits of some width carry bytes if their bits are those of the bytes, with
zeros behind to fill the last digit, and there is one row of digits that does so. -/
namespace TopicReader

/-- The lowest bits of a number, the highest of them first. -/
def bits : Nat → Nat → List Bool
  | 0, _ => []
  | width + 1, n => bits width (n / 2) ++ [decide (n % 2 = 1)]

/-- The bits of bytes, one byte after the other. -/
def Bytes.bits (s : Bytes) : List Bool := s.flatMap fun b => TopicReader.bits 8 b.toNat

/-- The values of digits that stand for bytes, bit by bit. -/
structure Carries (width : Nat) (values : List Nat) (s : Bytes) : Prop where
  small : ∀ v ∈ values, v < 2 ^ width
  bits : ∃ zeros < width, values.flatMap (bits width) = s.bits ++ List.replicate zeros false

variable {v w m n : Nat} {xs ys : List Nat} {s : Bytes}

theorem length_bits : (bits w n).length = w := by
  induction w generalizing n with
  | zero => rfl
  | succ w ih => rw [bits, List.length_append, ih, List.length_singleton]

theorem length_flatMap_bits : (xs.flatMap (bits w)).length = xs.length * w := by
  simp [List.length_flatMap, length_bits, List.map_const']

theorem Bytes.length_bits : s.bits.length = s.length * 8 := by
  simp [Bytes.bits, List.length_flatMap, TopicReader.length_bits, List.map_const']

/-- The bits of a number in two parts. -/
theorem bits_add : bits (v + w) n = bits v (n / 2 ^ w) ++ bits w n := by
  induction w generalizing n with
  | zero => rw [Nat.add_zero, Nat.pow_zero, Nat.div_one, bits, List.append_nil]
  | succ w ih =>
    rw [← Nat.add_assoc, bits, ih, bits, List.append_assoc, Nat.div_div_eq_div_mul, Nat.pow_succ']

/-- Higher bits are not looked at. -/
theorem bits_mod : bits w (n % 2 ^ w) = bits w n := by
  induction w generalizing n with
  | zero => rfl
  | succ w ih =>
    have half : n % 2 ^ (w + 1) / 2 = n / 2 % 2 ^ w := by
      rw [Nat.pow_succ', Nat.mod_mul_right_div_self]
    have last : n % 2 ^ (w + 1) % 2 = n % 2 := Nat.mod_mod_of_dvd n ⟨2 ^ w, Nat.pow_succ'⟩
    rw [bits, bits, half, last, ih]

/-- Two numbers side by side in the bits of one. -/
theorem bits_shared {v w m n : Nat} (small : n < 2 ^ w) :
    bits (v + w) (m % 2 ^ v * 2 ^ w + n) = bits v m ++ bits w n := by
  have high : (m % 2 ^ v * 2 ^ w + n) / 2 ^ w = m % 2 ^ v := by
    rw [Nat.mul_comm, Nat.mul_add_div (Nat.two_pow_pos w), Nat.div_eq_of_lt small, Nat.add_zero]
  have low : (m % 2 ^ v * 2 ^ w + n) % 2 ^ w = n := by
    rw [Nat.mul_comm, Nat.mul_add_mod, Nat.mod_eq_of_lt small]
  rw [bits_add, high, bits_mod, ← bits_mod (n := m % 2 ^ v * 2 ^ w + n), low]

theorem bits_injective (left : m < 2 ^ w) (right : n < 2 ^ w) (same : bits w m = bits w n) :
    m = n := by
  induction w generalizing m n with
  | zero => omega
  | succ w ih =>
    rw [bits, bits] at same
    obtain ⟨high, low⟩ := List.append_inj' same rfl
    have halves : m / 2 = n / 2 := ih (by omega) (by omega) high
    have parity : m % 2 = 1 ↔ n % 2 = 1 := by simpa using low
    omega

theorem flatMap_bits_injective (left : ∀ x ∈ xs, x < 2 ^ w) (right : ∀ y ∈ ys, y < 2 ^ w)
    (long : xs.length = ys.length) (same : xs.flatMap (bits w) = ys.flatMap (bits w)) :
    xs = ys := by
  induction xs generalizing ys with
  | nil => exact (List.length_eq_zero_iff.mp long.symm).symm
  | cons x xs ih =>
    cases ys with
    | nil => cases long
    | cons y ys =>
      rw [List.flatMap_cons, List.flatMap_cons] at same
      obtain ⟨first, later⟩ := List.append_inj same (length_bits.trans length_bits.symm)
      rw [bits_injective (left x List.mem_cons_self) (right y List.mem_cons_self) first,
        ih (fun x member => left x (List.mem_cons_of_mem _ member))
          (fun y member => right y (List.mem_cons_of_mem _ member)) (Nat.succ.inj long) later]

namespace Carries

theorem nil (wide : 0 < w) : Carries w [] [] := ⟨by simp, 0, wide, rfl⟩

/-- Bytes that fill their digits may stand in front. -/
theorem append {values : List Nat} {group : Bytes} (carries : Carries w xs s)
    (small : ∀ v ∈ values, v < 2 ^ w) (filled : values.flatMap (TopicReader.bits w) = group.bits) :
    Carries w (values ++ xs) (group ++ s) := by
  obtain ⟨below, zeros, few, same⟩ := carries
  refine ⟨?_, zeros, few, ?_⟩
  · intro v member
    exact (List.mem_append.mp member).elim (small v) (below v)
  · rw [List.flatMap_append, filled, same, Bytes.bits, Bytes.bits, Bytes.bits, List.flatMap_append,
      List.append_assoc]

theorem unique (left : Carries w xs s) (right : Carries w ys s) : xs = ys := by
  obtain ⟨smallLeft, zeros, few, same⟩ := left
  obtain ⟨smallRight, zeros', few', same'⟩ := right
  have long : xs.length * w = s.length * 8 + zeros := by
    rw [← length_flatMap_bits, same, List.length_append, Bytes.length_bits, List.length_replicate]
  have long' : ys.length * w = s.length * 8 + zeros' := by
    rw [← length_flatMap_bits, same', List.length_append, Bytes.length_bits,
      List.length_replicate]
  -- the zeros do not fill a digit, so there are as many digits as it takes
  have count : xs.length = ys.length := by
    rcases Nat.lt_trichotomy xs.length ys.length with less | equal | more
    · have step : (xs.length + 1) * w ≤ ys.length * w := Nat.mul_le_mul_right w less
      rw [Nat.succ_mul] at step
      omega
    · exact equal
    · have step : (ys.length + 1) * w ≤ xs.length * w := Nat.mul_le_mul_right w more
      rw [Nat.succ_mul] at step
      omega
  obtain rfl : zeros = zeros' := by
    rw [count] at long
    omega
  exact flatMap_bits_injective smallLeft smallRight count (same.trans same'.symm)

end Carries
end TopicReader
