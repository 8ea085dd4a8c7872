import Mathlib.Algebra.Group.Nat.Defs
import TopicReader.Text.Decimal

/-! Numbers as they stand in longer texts. Their digits can be read back, and a number ends where a
character comes that is no digit, so it can be told from what follows it. -/
namespace TopicReader.Decimal

variable {m n v w : Nat} {x y : List Char}

/-- The number that digits spell. -/
def spelled (digits : List Char) : Nat := Nat.ofDigitChars 10 digits 0

/-- Whether a text begins with no digit. -/
def Breaks (s : List Char) : Prop := s.takeWhile isDigit = []

@[simp] theorem breaks_cons {c : Char} {s : List Char} : Breaks (c :: s) ↔ isDigit c = false := by
  simp [Breaks, List.takeWhile_cons]

theorem isDigit_eq (c : Char) : isDigit c = c.isDigit := by
  simp [isDigit, Char.isDigit, Char.le_def, UInt32.le_iff_toNat_le]

theorem isDigit_padded {c : Char} (member : c ∈ padded w n) : isDigit c = true := by
  rcases List.mem_append.mp member with zero | digit
  · obtain rfl := List.eq_of_mem_replicate zero
    rfl
  · rw [isDigit_eq]
    exact Nat.isDigit_of_mem_toDigits (by decide) (by decide) digit

@[simp] theorem padded_zero : padded 0 n = digits n := by simp [padded]

theorem isDigit_digits {c : Char} (member : c ∈ digits n) : isDigit c = true :=
  isDigit_padded (w := 0) (padded_zero ▸ member)

theorem padded_ne_nil : padded w n ≠ [] := by simp [padded, digits]

@[simp] theorem spelled_padded : spelled (padded w n) = n := by
  simp [spelled, padded, digits, Nat.ofDigitChars_append]

theorem length_padded (fits : n < 10 ^ w) (wide : 0 < w) : (padded w n).length = w := by
  have short : (digits n).length ≤ w := (Nat.length_toDigits_le_iff (by decide) wide).mpr fits
  simp only [padded, List.length_append, List.length_replicate]
  omega

/-- The digits at the beginning of a text, and what follows them. -/
theorem append_inj_of_breaks {d e : List Char} (first : ∀ c ∈ d, isDigit c = true)
    (second : ∀ c ∈ e, isDigit c = true) (ends : Breaks x) (stops : Breaks y)
    (same : d ++ x = e ++ y) : d = e ∧ x = y := by
  have front := congrArg (List.takeWhile isDigit) same
  rw [List.takeWhile_append_of_pos first, List.takeWhile_append_of_pos second,
    show x.takeWhile isDigit = [] from ends, show y.takeWhile isDigit = [] from stops,
    List.append_nil, List.append_nil] at front
  subst front
  exact ⟨rfl, List.append_cancel_left same⟩

theorem padded_append_inj (ends : Breaks x) (stops : Breaks y)
    (same : padded v m ++ x = padded w n ++ y) : m = n ∧ x = y := by
  obtain ⟨digits, rest⟩ := append_inj_of_breaks (fun _ => isDigit_padded) (fun _ => isDigit_padded)
    ends stops same
  have number := congrArg spelled digits
  rw [spelled_padded, spelled_padded] at number
  exact ⟨number, rest⟩

/-- A number without a sign begins with a digit. -/
theorem padded_append_ne {c : Char} (other : isDigit c = false) : padded w n ++ x ≠ c :: y := by
  intro same
  obtain ⟨d, rest, shape⟩ := List.exists_cons_of_ne_nil (padded_ne_nil (w := w) (n := n))
  have digit : isDigit d = true := isDigit_padded (w := w) (n := n) (by simp [shape])
  rw [shape] at same
  obtain rfl := (List.cons.inj same).1
  rw [other] at digit
  cases digit

theorem chars_append_inj {m n : Int} (ends : Breaks x) (stops : Breaks y)
    (same : chars m ++ x = chars n ++ y) : m = n ∧ x = y := by
  unfold chars at same
  rw [← padded_zero, ← padded_zero] at same
  by_cases first : m < 0 <;> by_cases second : n < 0
  · rw [if_pos first, if_pos second] at same
    obtain ⟨number, rest⟩ := padded_append_inj ends stops (List.cons.inj same).2
    exact ⟨by omega, rest⟩
  · rw [if_pos first, if_neg second] at same
    exact absurd same.symm (padded_append_ne rfl)
  · rw [if_neg first, if_pos second] at same
    exact absurd same (padded_append_ne rfl)
  · rw [if_neg first, if_neg second] at same
    obtain ⟨number, rest⟩ := padded_append_inj ends stops same
    exact ⟨by omega, rest⟩

/-- Whole numbers are written with digits and a minus sign. -/
theorem mem_chars {n : Int} {c : Char} (member : c ∈ chars n) : c = '-' ∨ isDigit c = true := by
  unfold chars at member
  rw [← padded_zero] at member
  split at member
  · exact (List.mem_cons.mp member).imp_right isDigit_padded
  · exact .inr (isDigit_padded member)

/-- Zero alone is written with a zero in front. -/
theorem eq_zero_of_head (zero : (digits n).head? = some '0') : n = 0 := by
  induction n using Nat.strongRecOn with
  | ind n ih =>
    by_cases small : n < 10
    · have digit : ∀ n < 10, some n.digitChar = some '0' → n = 0 := by decide
      rw [digits, Nat.toDigits_of_lt_base small] at zero
      exact digit n small zero
    · rw [digits, Nat.toDigits_of_base_le (by decide) (Nat.not_lt.mp small),
        List.head?_append, List.head?_eq_some_head Nat.toDigits_ne_nil, Option.some_or,
        ← List.head?_eq_some_head Nat.toDigits_ne_nil] at zero
      have quotient := ih (n / 10) (by omega) zero
      omega

end TopicReader.Decimal
