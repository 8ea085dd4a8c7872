import TopicReader.Proofs.Text.Decimals
import TopicReader.Proofs.Time.Calendar
import TopicReader.Time.Rfc3339

/-! How instants are written, whatever their year. The nanoseconds of a leap second are told from the
second after it at the end of a minute only; any other two instants are told apart. -/
namespace TopicReader

namespace Instant

/-- An instant as it can be asked for: its nanoseconds make a leap second only at the end of a
minute. -/
def Proper (t : Instant) : Prop :=
  t.nanos < 1000000000 ∨ t.nanos < 2000000000 ∧ t.seconds.fmod 60 = 59

/-- An instant of the calendar. Once it is there any second can be given the nanoseconds of a leap
second. -/
def Representable (t : Instant) : Prop :=
  firstSecond ≤ t.seconds ∧ t.seconds ≤ lastSecond ∧ t.nanos < 2000000000

instance (t : Instant) : Decidable t.Representable := inferInstanceAs (Decidable (_ ∧ _))

/-- The instant with the nanoseconds of a leap second carried over into the next second, unless the
minute ends with it. -/
def carried (t : Instant) : Instant :=
  if 1000000000 ≤ t.nanos ∧ t.seconds.fmod 60 ≠ 59 then ⟨t.seconds + 1, t.nanos - 1000000000⟩ else t

variable {t : Instant}

theorem proper_of_ofSeconds? {seconds : Int} {nanos : Nat} (h : ofSeconds? seconds nanos = some t) :
    t.Proper := by
  unfold ofSeconds? at h
  split at h
  · rename_i named
    cases h
    exact named.2.2
  · cases h

theorem Proper.carried_eq (h : t.Proper) : t.carried = t := by
  refine if_neg ?_
  rintro ⟨leap, inside⟩
  rcases h with calm | ⟨_, ends⟩
  · omega
  · exact inside ends

theorem Representable.proper_carried (h : t.Representable) : t.carried.Proper := by
  obtain ⟨_, _, bound⟩ := h
  unfold carried Proper
  split
  · exact .inl (by simp only; omega)
  · omega

end Instant

namespace Rfc3339

open Decimal (Breaks breaks_cons padded_append_inj padded_append_ne)

variable {x w : List Char}

theorem year_append_inj {y z : Int} (ends : Breaks x) (stops : Breaks w)
    (same : year y ++ x = year z ++ w) : y = z ∧ x = w := by
  unfold year at same
  by_cases first : 0 ≤ y ∧ y ≤ 9999 <;> by_cases second : 0 ≤ z ∧ z ≤ 9999
  · rw [if_pos first, if_pos second] at same
    obtain ⟨number, rest⟩ := padded_append_inj ends stops same
    exact ⟨by omega, rest⟩
  · rw [if_pos first, if_neg second] at same
    refine absurd same (padded_append_ne ?_)
    split <;> rfl
  · rw [if_neg first, if_pos second] at same
    refine absurd same.symm (padded_append_ne ?_)
    split <;> rfl
  · rw [if_neg first, if_neg second] at same
    obtain ⟨sign, digits⟩ := List.cons.inj same
    obtain ⟨number, rest⟩ := padded_append_inj ends stops digits
    by_cases before : y < 0 <;> by_cases past : z < 0 <;> simp [before, past] at sign
    · exact ⟨by omega, rest⟩
    · exact ⟨by omega, rest⟩

theorem date_append_inj {d e : Date} (same : date d ++ 'T' :: x = date e ++ 'T' :: w) :
    d = e ∧ x = w := by
  have dash {s : List Char} : Breaks ('-' :: s) := breaks_cons.mpr rfl
  have clock {s : List Char} : Breaks ('T' :: s) := breaks_cons.mpr rfl
  simp only [date, List.append_assoc, List.cons_append] at same
  obtain ⟨year, same⟩ := year_append_inj dash dash same
  obtain ⟨month, same⟩ := padded_append_inj dash dash (List.cons.inj same).2
  obtain ⟨day, same⟩ := padded_append_inj clock clock (List.cons.inj same).2
  cases d
  cases e
  simp_all

/-- The nanoseconds that decimals spell, the point included. -/
def nanosOf (decimals : List Char) : Nat :=
  Decimal.spelled decimals.tail * 10 ^ (10 - decimals.length)

theorem nanosOf_padded {width n : Nat} (fits : n < 10 ^ width) (wide : 0 < width) :
    nanosOf ('.' :: Decimal.padded width n) = n * 10 ^ (9 - width) := by
  have scale : 10 - (width + 1) = 9 - width := by omega
  rw [nanosOf, List.tail_cons, Decimal.spelled_padded, List.length_cons,
    Decimal.length_padded fits wide, scale]

theorem nanosOf_fraction {nanos : Nat} (bound : nanos < 1000000000) :
    nanosOf (fraction nanos) = nanos := by
  unfold fraction
  split
  · rename_i whole
    rw [whole]
    rfl
  split
  · rw [nanosOf_padded (by omega) (by decide)]
    omega
  split
  · rw [nanosOf_padded (by omega) (by decide)]
    omega
  · rw [nanosOf_padded (by omega) (by decide)]
    omega

theorem fraction_inj {m n : Nat} (first : m < 1000000000) (second : n < 1000000000)
    (same : fraction m = fraction n) : m = n := by
  have spelled := congrArg nanosOf same
  rwa [nanosOf_fraction first, nanosOf_fraction second] at spelled

theorem breaks_fraction (nanos : Nat) : Breaks (fraction nanos ++ ['Z']) := by
  unfold fraction
  split
  · rfl
  split
  · exact breaks_cons.mpr rfl
  split <;> exact breaks_cons.mpr rfl

/-- An instant is given by its day, the hour, minute and second of the day, and its nanoseconds. Only a
leap second has the number sixty. -/
theorem eq_of_fields {s t : Instant} (first : s.Proper) (second : t.Proper)
    (day : s.seconds.fdiv 86400 = t.seconds.fdiv 86400)
    (hour : (s.seconds.fmod 86400).toNat / 3600 = (t.seconds.fmod 86400).toNat / 3600)
    (minute : (s.seconds.fmod 86400).toNat / 60 % 60 = (t.seconds.fmod 86400).toNat / 60 % 60)
    (number : (s.seconds.fmod 86400).toNat % 60 + s.nanos / 1000000000 =
      (t.seconds.fmod 86400).toNat % 60 + t.nanos / 1000000000)
    (nanos : s.nanos % 1000000000 = t.nanos % 1000000000) : s = t := by
  obtain ⟨seconds, fine⟩ := s
  obtain ⟨seconds', fine'⟩ := t
  simp (disch := decide) only [Instant.Proper, Int.fdiv_eq_ediv_of_nonneg,
    Int.fmod_eq_emod_of_nonneg] at *
  have leap : fine / 1000000000 = fine' / 1000000000 := by
    rcases first with calm | ⟨_, ends⟩ <;> rcases second with calm' | ⟨_, ends'⟩ <;> omega
  have same_fine : fine = fine' := by omega
  have same_seconds : seconds = seconds' := by omega
  rw [same_fine, same_seconds]

/-- What is carried over shows in the number of the second just the same. -/
theorem exact_carried (t : Instant) : exact t.carried = exact t := by
  unfold Instant.carried
  split
  · rename_i leap
    obtain ⟨fine, inside⟩ := leap
    simp (disch := decide) only [Int.fmod_eq_emod_of_nonneg] at inside
    have day : (t.seconds + 1) / 86400 = t.seconds / 86400 := by omega
    have hour : ((t.seconds + 1) % 86400).toNat / 3600 = (t.seconds % 86400).toNat / 3600 := by omega
    have minute : ((t.seconds + 1) % 86400).toNat / 60 = (t.seconds % 86400).toNat / 60 := by omega
    have number : ((t.seconds + 1) % 86400).toNat % 60 + (t.nanos - 1000000000) / 1000000000 =
        (t.seconds % 86400).toNat % 60 + t.nanos / 1000000000 := by omega
    have nanos : (t.nanos - 1000000000) % 1000000000 = t.nanos % 1000000000 := by omega
    simp (disch := decide) only [exact, dateTime, time, Int.fdiv_eq_ediv_of_nonneg,
      Int.fmod_eq_emod_of_nonneg, day, hour, minute, number, nanos]
  · rfl

/-- No two instants that can be asked for are written alike. -/
theorem exact_inj {s t : Instant} (first : s.Proper) (second : t.Proper)
    (same : exact s = exact t) : s = t := by
  have same := String.ofList_injective same
  simp only [dateTime, time, List.append_assoc, List.cons_append] at same
  obtain ⟨day, same⟩ := date_append_inj same
  obtain ⟨hour, same⟩ :=
    padded_append_inj (breaks_cons.mpr rfl) (breaks_cons.mpr rfl) same
  obtain ⟨minute, same⟩ :=
    padded_append_inj (breaks_cons.mpr rfl) (breaks_cons.mpr rfl) (List.cons.inj same).2
  obtain ⟨number, same⟩ :=
    padded_append_inj (breaks_fraction _) (breaks_fraction _) (List.cons.inj same).2
  have nanos := fraction_inj (Nat.mod_lt _ (by decide)) (Nat.mod_lt _ (by decide))
    (List.append_cancel_right same)
  exact eq_of_fields first second (Date.ofDays_injective day) hour minute number nanos

theorem exact_eq_iff {s t : Instant} (first : s.Representable) (second : t.Representable) :
    exact s = exact t ↔ s.carried = t.carried := by
  rw [← exact_carried s, ← exact_carried t]
  exact ⟨exact_inj first.proper_carried second.proper_carried, congrArg exact⟩

end Rfc3339
end TopicReader
