import TopicReader.Json.Failure
import TopicReader.Json.Scan
import TopicReader.Json.Value

/-! Numbers of JSON documents. The digits of a number are gathered into a whole number of 64 bits
and a decimal exponent, and the two are joined in binary64 by one multiplication or division, or by
several divisions when the exponent is very small. -/
namespace TopicReader.Json.Number

def significandLimit : Nat := pow2 64
def exponentLimit : Nat := pow2 31

def digitValue (b : UInt8) : Nat := b.toNat - 0x30

/-- Appends digits until one would overflow, and returns the ones that were not appended. -/
def gather (significand : Nat) : Bytes → Nat × Bytes
  | [] => (significand, [])
  | b :: rest =>
    if significand * 10 + digitValue b < significandLimit
    then gather (significand * 10 + digitValue b) rest
    else (significand, b :: rest)

def power (n : Nat) : Binary64 := (Binary64.ofQuotient? (pow10 n) 1).getD Binary64.zero

/-- Joins a magnitude and a decimal exponent; `none` is a number too large to be finite. -/
def scale (f : Binary64) (exponent : Int) : Option Binary64 :=
  if 308 < exponent then if f.isZero then some f else none
  else if 0 ≤ exponent then f.mul? (power exponent.toNat)
  else if -308 ≤ exponent then f.div? (power (-exponent).toNat)
  else if f.isZero then some f
  else do scale (← f.div? (power 308)) (exponent + 308)
termination_by (-exponent).toNat

/-- A written exponent, or the digits after the one with which it grew too large. -/
def exponent (value : Nat) : Bytes → Except Bytes Nat
  | [] => .ok value
  | b :: rest =>
    if value * 10 + digitValue b < exponentLimit then exponent (value * 10 + digitValue b) rest
    else .error rest

/-- The number of a significand and a decimal exponent. -/
def joined (negative : Bool) (significand : Nat) (exponent : Int) (rest : Bytes) :
    Except Failure (Number × Bytes) :=
  match (Binary64.ofQuotient? significand 1).bind (scale · exponent) with
  | some magnitude => .ok (.real negative magnitude, rest)
  | none => .error ⟨.numberOutOfRange, rest.length⟩

/-- The rest of a number after the letter that marks its exponent. -/
def readExponent (negative : Bool) (significand : Nat) (base : Int) (s : Bytes) :
    Except Failure (Number × Bytes) :=
  let (down, s) : Bool × Bytes :=
    match s with
    | 0x2D :: s => (true, s)
    | 0x2B :: s => (false, s)
    | s => (false, s)
  let digits := s.takeWhile isDigit
  let rest := s.dropWhile isDigit
  if digits.isEmpty then .error ⟨.malformed, rest.length⟩
  else match exponent 0 digits with
    | .ok e => joined negative significand (if down then base - e else base + e) rest
    | .error unread =>
      if significand ≠ 0 ∧ !down then .error ⟨.numberOutOfRange, unread.length + rest.length⟩
      else .ok (.real negative Binary64.zero, rest)

/-- The rest of a number after its integer digits. -/
def readFraction (negative : Bool) (significand : Nat) (dropped : Nat) (s : Bytes) :
    Except Failure (Number × Bytes) :=
  match s with
  | 0x2E :: s =>
    let digits := s.takeWhile isDigit
    let rest := s.dropWhile isDigit
    if digits.isEmpty then .error ⟨.malformed, rest.length⟩
    else
      let (significand, ignored) := gather significand digits
      let base : Int := dropped - ((digits.length - ignored.length : Nat) : Int)
      match rest with
      | 0x65 :: rest | 0x45 :: rest => readExponent negative significand base rest
      | rest => joined negative significand base rest
  | 0x65 :: s | 0x45 :: s => readExponent negative significand dropped s
  | s =>
    if dropped ≠ 0 then joined negative significand dropped s
    else if !negative then .ok (.whole significand, s)
    else if significand = 0 ∨ pow2 63 < significand then joined true significand 0 s
    else .ok (.whole (-(significand : Int)), s)

/-- A number without its sign. -/
def readUnsigned (negative : Bool) (s : Bytes) : Except Failure (Number × Bytes) :=
  match s with
  | 0x30 :: rest => readFraction negative 0 0 rest
  | _ =>
    let digits := s.takeWhile isDigit
    if digits.isEmpty then .error ⟨.malformed, s.length⟩
    else
      let (significand, dropped) := gather 0 digits
      readFraction negative significand dropped.length (s.dropWhile isDigit)

def read : Bytes → Except Failure (Number × Bytes)
  | 0x2D :: s => readUnsigned true s
  | s => readUnsigned false s

end TopicReader.Json.Number
