/-! Magnitudes of binary64 numbers, with exact rounding. A magnitude is a whole number of at most 53
bits times a power of two; a quotient of natural numbers rounds to the nearest one, and to the even
one of two that are equally near. -/
namespace TopicReader

def pow2 (n : Nat) : Nat := Nat.pow 2 n

def pow10 (n : Nat) : Nat := Nat.pow 10 n

structure Binary64 where
  mantissa : Nat
  exponent : Int
  deriving DecidableEq, Repr

namespace Binary64

def leastExponent : Int := -1074
def greatestExponent : Int := 971

def zero : Binary64 := ⟨0, leastExponent⟩

/-- The value is `numerator / denominator`. -/
def numerator (x : Binary64) : Nat := x.mantissa * pow2 x.exponent.toNat
def denominator (x : Binary64) : Nat := pow2 (-x.exponent).toNat

/-- Rounds `num / den` to a natural number, ties to even. -/
def roundQuotient (num den : Nat) : Nat :=
  let floor := num / den
  let twice := 2 * (num % den)
  if twice < den then floor
  else if twice = den then floor + floor % 2
  else floor + 1

/-- The quotient `num / den` in units of `2 ^ exponent`, rounded. -/
def roundAt (num den : Nat) (exponent : Int) : Nat :=
  roundQuotient (num * pow2 (-exponent).toNat) (den * pow2 exponent.toNat)

/-- The unit in which `num / den` has 53 bits, or the least unit there is. -/
def unitOf (num den : Nat) : Int :=
  let guess := max ((num.log2 : Int) - den.log2 - 53) leastExponent
  if num * pow2 (-guess).toNat / (den * pow2 guess.toNat) < pow2 53 then guess else guess + 1

/-- The magnitude nearest to `num / den`, unless that is too large to be finite. -/
def ofQuotient? (num den : Nat) : Option Binary64 :=
  if num = 0 then some zero
  else
    let unit := unitOf num den
    let rounded := roundAt num den unit
    let result := if rounded = pow2 53 then ⟨pow2 52, unit + 1⟩ else ⟨rounded, unit⟩
    if result.exponent ≤ greatestExponent then some result else none

def mul? (x y : Binary64) : Option Binary64 :=
  ofQuotient? (x.numerator * y.numerator) (x.denominator * y.denominator)

def div? (x y : Binary64) : Option Binary64 :=
  ofQuotient? (x.numerator * y.denominator) (x.denominator * y.numerator)

def isZero (x : Binary64) : Bool := x.mantissa = 0

end Binary64
end TopicReader
