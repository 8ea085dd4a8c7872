import TopicReader.Text.Decimal
import TopicReader.Time.Instant

/-! Instants written as RFC 3339 has them, in UTC. Years that do not fit four digits carry a
sign. -/
namespace TopicReader.Rfc3339

def year (y : Int) : List Char :=
  if 0 ≤ y ∧ y ≤ 9999 then Decimal.padded 4 y.toNat
  else (if y < 0 then '-' else '+') :: Decimal.padded 4 y.natAbs

def date (d : Date) : List Char :=
  year d.year ++ '-' :: Decimal.padded 2 d.month ++ '-' :: Decimal.padded 2 d.day

/-- The second of a minute, which is 60 in a leap second. -/
def time (t : Instant) : List Char :=
  let second := (t.seconds.fmod 86400).toNat
  Decimal.padded 2 (second / 3600) ++ ':' :: Decimal.padded 2 (second / 60 % 60) ++
    ':' :: Decimal.padded 2 (second % 60 + t.nanos / 1000000000)

/-- The fewest of 0, 3, 6 or 9 decimals that are exact. -/
def fraction (nanos : Nat) : List Char :=
  if nanos = 0 then []
  else if nanos % 1000000 = 0 then '.' :: Decimal.padded 3 (nanos / 1000000)
  else if nanos % 1000 = 0 then '.' :: Decimal.padded 6 (nanos / 1000)
  else '.' :: Decimal.padded 9 nanos

def dateTime (t : Instant) : List Char :=
  date (Date.ofDays (t.seconds.fdiv 86400)) ++ 'T' :: time t

def exact (t : Instant) : String :=
  String.ofList (dateTime t ++ fraction (t.nanos % 1000000000) ++ ['Z'])

/-- Exactly three decimals; what is finer is cut off. -/
def millis (t : Instant) : String :=
  String.ofList
    (dateTime t ++ '.' :: Decimal.padded 3 (t.nanos % 1000000000 / 1000000) ++ ['Z'])

end TopicReader.Rfc3339
