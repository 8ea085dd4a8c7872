/-! Dates of the Gregorian calendar, extended to all years, and the count of days since 1970-01-01.
The year is counted from March, so that the leap day is its last day. -/
namespace TopicReader

structure Date where
  year : Int
  month : Nat
  day : Nat
  deriving DecidableEq, Repr

namespace Date

/-- Days from 1970-01-01 back to 0000-03-01. -/
def epochDays : Int := 719468

/-- Days in 400 years. -/
def eraDays : Int := 146097

def toDays (d : Date) : Int :=
  let year := if d.month ≤ 2 then d.year - 1 else d.year
  let era := year.fdiv 400
  let yearOfEra := year.fmod 400
  let month : Int := (d.month + 9) % 12
  let dayOfYear := (153 * month + 2).fdiv 5 + d.day - 1
  era * eraDays + (yearOfEra * 365 + yearOfEra.fdiv 4 - yearOfEra.fdiv 100 + dayOfYear) - epochDays

def ofDays (days : Int) : Date :=
  let shifted := days + epochDays
  let era := shifted.fdiv eraDays
  let dayOfEra := shifted.fmod eraDays
  let yearOfEra :=
    (dayOfEra - dayOfEra.fdiv 1460 + dayOfEra.fdiv 36524 - dayOfEra.fdiv 146096).fdiv 365
  let dayOfYear := dayOfEra - (365 * yearOfEra + yearOfEra.fdiv 4 - yearOfEra.fdiv 100)
  let month := (5 * dayOfYear + 2).fdiv 153
  let day := dayOfYear - (153 * month + 2).fdiv 5 + 1
  let civil := if month < 10 then month + 3 else month - 9
  ⟨yearOfEra + era * 400 + (if civil ≤ 2 then 1 else 0), civil.toNat, day.toNat⟩

end Date
end TopicReader
