import TopicReader.Number.Binary64

/-! The fewest decimal digits that read back to a magnitude, and among those the ones nearest to it.
All comparisons are exact. -/
namespace TopicReader.Shortest

/-- A decimal: `digits * 10 ^ exponent`. -/
structure Decimal where
  digits : Nat
  exponent : Int
  deriving DecidableEq, Repr

/-- The reals that round to a magnitude: all between `low / scale` and `high / scale`, the ends
included if `closed`. The value itself is `value / scale`. -/
structure Interval where
  low : Nat
  value : Nat
  high : Nat
  scale : Nat
  closed : Bool

/-- Below a power of two the neighbours are twice as close. -/
def interval (x : Binary64) : Interval :=
  let unit := pow2 x.exponent.toNat
  let scale := 4 * pow2 (-x.exponent).toNat
  let below := if x.mantissa = pow2 52 ∧ x.exponent ≠ Binary64.leastExponent then 1 else 2
  ⟨(4 * x.mantissa - below) * unit, 4 * x.mantissa * unit, (4 * x.mantissa + 2) * unit, scale,
    x.mantissa % 2 = 0⟩

/-- Whether `d` reads back to the magnitude. -/
def Interval.contains (i : Interval) (d : Decimal) : Bool :=
  let left := d.digits * pow10 d.exponent.toNat * i.scale
  let right := pow10 (-d.exponent).toNat
  if i.closed then i.low * right ≤ left && left ≤ i.high * right
  else i.low * right < left && left < i.high * right

/-- The distance from `d` to the magnitude, in units that all decimals of one exponent share. -/
def Interval.distance (i : Interval) (d : Decimal) : Nat :=
  let left := d.digits * pow10 d.exponent.toNat * i.scale
  let right := i.value * pow10 (-d.exponent).toNat
  (left - right) + (right - left)

/-- The exponent of the leading decimal digit of `value / scale`. -/
def Interval.leading (i : Interval) : Int :=
  let guess := (((i.value.log2 : Int) - i.scale.log2) * 30103).fdiv 100000
  let reaches (e : Int) := decide (i.scale * pow10 e.toNat ≤ i.value * pow10 (-e).toNat)
  if reaches (guess + 1) then guess + 1 else if reaches guess then guess else guess - 1

/-- The neighbours of the magnitude among the decimals of `exponent`, the nearer one first; of two
equally near ones the even one. -/
def Interval.neighbours (i : Interval) (exponent : Int) : List Decimal :=
  let floor := i.value * pow10 (-exponent).toNat / (i.scale * pow10 exponent.toNat)
  let low : Decimal := ⟨floor, exponent⟩
  let high : Decimal := ⟨floor + 1, exponent⟩
  if i.distance low < i.distance high ∨ (i.distance low = i.distance high ∧ floor % 2 = 0)
  then [low, high] else [high, low]

/-- Seventeen digits tell all magnitudes apart, so the search ends there. -/
def search (i : Interval) (leading : Int) : Nat → Nat → Decimal
  | 0, _ => ⟨0, 0⟩
  | fuel + 1, count =>
    match (i.neighbours (leading - count + 1)).find? i.contains with
    | some d => d
    | none => search i leading fuel (count + 1)

/-- Drops trailing zeros. -/
def strip : Nat → Decimal → Decimal
  | 0, d => d
  | fuel + 1, d =>
    if d.digits ≠ 0 ∧ d.digits % 10 = 0 then strip fuel ⟨d.digits / 10, d.exponent + 1⟩ else d

def ofBinary64 (x : Binary64) : Decimal :=
  if x.isZero then ⟨0, 0⟩ else let i := interval x; strip 20 (search i i.leading 17 1)

end TopicReader.Shortest
