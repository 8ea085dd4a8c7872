import TopicReader.Time.Calendar

/-! Dates and counts of days. Every day has one date, from which the day is found again. -/
namespace TopicReader.Date

/-- The date that comes some days after the first of March of a year. -/
def afterMarch (year dayOfYear : Int) : Date :=
  let month := (5 * dayOfYear + 2) / 153
  ⟨year + (if month < 10 then 0 else 1), (if month < 10 then month + 3 else month - 9).toNat,
    (dayOfYear - (153 * month + 2) / 5 + 1).toNat⟩

/-- The years of an era that are divisible by a hundred are counted once each. Only the last day of
an era belongs to the year that ends it. -/
theorem centuries {day century last year : Int} (first : 0 ≤ day) (bound : day < 146097)
    (hundreds : century = day / 36524) (ending : last = day / 146096)
    (count : year = (day - day / 1460 + century - last) / 365) : year / 100 = century - last := by
  -- the quotients are linear only within one century
  have inside : century = 0 ∨ century = 1 ∨ century = 2 ∨ century = 3 ∨ century = 4 := by omega
  rcases inside with same | same | same | same | same <;> rw [same] at hundreds count ⊢ <;> omega

/-- The year that is found for a day of an era is one of the era, and the day lies in it. -/
theorem year_of_era {day year : Int} (first : 0 ≤ day) (bound : day < 146097)
    (count : year = (day - day / 1460 + day / 36524 - day / 146096) / 365) :
    0 ≤ year ∧ year < 400 ∧ 0 ≤ day - (365 * year + year / 4 - year / 100) ∧
      day - (365 * year + year / 4 - year / 100) ≤ 365 := by
  have hundreds := centuries first bound rfl rfl count
  have leaps : year / 4 = day / 1460 ∨ year / 4 = day / 1460 - 1 := by omega
  constructor
  · omega
  constructor
  · omega
  rw [hundreds]
  rcases leaps with same | same <;> rw [same] <;> omega

/-- A day is taken apart into an era, a year of the era and a day of the year. -/
theorem ofDays_eq (days : Int) : ∃ era year dayOfYear : Int, 0 ≤ year ∧ year < 400 ∧
    0 ≤ dayOfYear ∧ dayOfYear ≤ 365 ∧ ofDays days = afterMarch (year + era * 400) dayOfYear ∧
    days = era * 146097 + (365 * year + year / 4 - year / 100 + dayOfYear) - 719468 := by
  simp (disch := decide) only [ofDays, eraDays, epochDays, Int.fdiv_eq_ediv_of_nonneg,
    Int.fmod_eq_emod_of_nonneg]
  have first : 0 ≤ (days + 719468) % 146097 := Int.emod_nonneg _ (by decide)
  have bound : (days + 719468) % 146097 < 146097 := Int.emod_lt_of_pos _ (by decide)
  have split := Int.mul_ediv_add_emod (days + 719468) 146097
  generalize (days + 719468) % 146097 = day at first bound split ⊢
  generalize (days + 719468) / 146097 = era at split ⊢
  have inside := year_of_era first bound rfl
  generalize (day - day / 1460 + day / 36524 - day / 146096) / 365 = year at inside ⊢
  obtain ⟨old, young, begun, fits⟩ := inside
  refine ⟨era, year, _, old, young, begun, fits, ?_, by omega⟩
  unfold afterMarch
  split <;> simp <;> omega

theorem toDays_afterMarch {era year dayOfYear : Int} (old : 0 ≤ year) (young : year < 400)
    (begun : 0 ≤ dayOfYear) (fits : dayOfYear ≤ 365) :
    (afterMarch (year + era * 400) dayOfYear).toDays =
      era * 146097 + (365 * year + year / 4 - year / 100 + dayOfYear) - 719468 := by
  have months : 0 ≤ (5 * dayOfYear + 2) / 153 ∧ (5 * dayOfYear + 2) / 153 ≤ 11 := by omega
  have day : 0 ≤ dayOfYear - (153 * ((5 * dayOfYear + 2) / 153) + 2) / 5 := by omega
  have eras : (year + era * 400) / 400 = era ∧ (year + era * 400) % 400 = year := by omega
  unfold afterMarch toDays
  simp (disch := decide) only [eraDays, epochDays, Int.fdiv_eq_ediv_of_nonneg,
    Int.fmod_eq_emod_of_nonneg]
  generalize (5 * dayOfYear + 2) / 153 = month at months day ⊢
  by_cases early : month < 10
  · have civil : ¬ (month + 3).toNat ≤ 2 := by omega
    have back : (((month + 3).toNat : Int) + 9) % 12 = month := by omega
    rw [if_pos early, if_pos early, if_neg civil, back, Int.add_zero, eras.1, eras.2]
    omega
  · have civil : (month - 9).toNat ≤ 2 := by omega
    have back : (((month - 9).toNat : Int) + 9) % 12 = month := by omega
    rw [if_neg early, if_neg early, if_pos civil, back, Int.add_sub_cancel, eras.1, eras.2]
    omega

/-- The day of a date is the one that the date was made from. -/
theorem toDays_ofDays (days : Int) : (ofDays days).toDays = days := by
  obtain ⟨era, year, dayOfYear, old, young, begun, fits, date, whole⟩ := ofDays_eq days
  rw [date, toDays_afterMarch old young begun fits, ← whole]

theorem ofDays_injective : Function.Injective ofDays :=
  Function.LeftInverse.injective toDays_ofDays

end TopicReader.Date
