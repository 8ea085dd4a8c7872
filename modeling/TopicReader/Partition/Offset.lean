/-! Offsets are signed words of 64 bits. The word after the greatest one is the least one. -/
namespace TopicReader

def greatestOffset : Int := 9223372036854775807
def leastOffset : Int := -9223372036854775808

def offsetAfter (n : Int) : Int := if n = greatestOffset then leastOffset else n + 1

def offsetBefore (n : Int) : Int := if n = leastOffset then greatestOffset else n - 1

/-- On words of 64 bits this is the successor. -/
theorem offsetAfter_toInt (n : Int64) : offsetAfter n.toInt = (n + 1).toInt := by
  have least := n.le_toInt
  have greatest := n.toInt_lt
  rw [Int64.toInt_add, Int64.toInt_one]
  by_cases last : n.toInt = greatestOffset
  · rw [offsetAfter, if_pos last, last]
    rfl
  · rw [offsetAfter, if_neg last]
    simp only [greatestOffset] at last
    exact (Int.bmod_eq_of_le (by omega) (by omega)).symm

/-- On words of 64 bits this is the predecessor. -/
theorem offsetBefore_toInt (n : Int64) : offsetBefore n.toInt = (n - 1).toInt := by
  have least := n.le_toInt
  have greatest := n.toInt_lt
  rw [Int64.toInt_sub, Int64.toInt_one]
  by_cases first : n.toInt = leastOffset
  · rw [offsetBefore, if_pos first, first]
    rfl
  · rw [offsetBefore, if_neg first]
    simp only [leastOffset] at first
    exact (Int.bmod_eq_of_le (by omega) (by omega)).symm

theorem offsetAfter_of_lt {n : Int} (inside : n < greatestOffset) : offsetAfter n = n + 1 :=
  if_neg (Int.ne_of_lt inside)

theorem offsetBefore_of_lt {n : Int} (inside : leastOffset < n) : offsetBefore n = n - 1 :=
  if_neg (Int.ne_of_gt inside)

theorem offsetBefore_of_nonneg {n : Int} (natural : 0 ≤ n) : offsetBefore n = n - 1 :=
  offsetBefore_of_lt (Int.lt_of_lt_of_le (by decide) natural)

end TopicReader
