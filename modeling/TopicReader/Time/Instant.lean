import TopicReader.Time.Calendar

/-! Points in time: seconds since 1970 in UTC and nanoseconds. A leap second is the second before it
with a nanosecond count of a thousand million or more. -/
namespace TopicReader

structure Instant where
  seconds : Int
  nanos : Nat
  deriving DecidableEq, Repr

namespace Instant

def firstYear : Int := -262143
def lastYear : Int := 262142

/-- The first and the last second that an instant can name. -/
def firstSecond : Int := (Date.mk firstYear 1 1).toDays * 86400
def lastSecond : Int := (Date.mk lastYear 12 31).toDays * 86400 + 86399

/-- Nanoseconds from a thousand million on are allowed in the last second of a minute only. -/
def ofSeconds? (seconds : Int) (nanos : Nat) : Option Instant :=
  if firstSecond ≤ seconds ∧ seconds ≤ lastSecond ∧
      (nanos < 1000000000 ∨ (nanos < 2000000000 ∧ seconds.fmod 60 = 59))
  then some ⟨seconds, nanos⟩ else none

def ofMillis? (millis : Int) : Option Instant :=
  ofSeconds? (millis.fdiv 1000) ((millis.fmod 1000).toNat * 1000000)

def toMillis (t : Instant) : Int := t.seconds * 1000 + t.nanos / 1000000

def before (s t : Instant) : Bool :=
  s.seconds < t.seconds || (s.seconds == t.seconds && s.nanos < t.nanos)

/-- The order of timestamps, in which a missing one comes first. -/
def missingOrBefore : Option Instant → Option Instant → Bool
  | _, none => false
  | none, some _ => true
  | some s, some t => s.before t

end Instant
end TopicReader
