import TopicReader.Number.Binary64

/-! Whole numbers in decimal: an optional sign and at least one ASCII digit, with the limits of the
widths in which partitions, offsets and counts are held. -/
namespace TopicReader.Decimal

def isDigit (c : Char) : Bool := '0' ≤ c && c ≤ '9'

def digitValue (c : Char) : Nat := c.toNat - 48

/-- The number that a run of digits spells; the empty run spells nothing. -/
def natural? (s : List Char) : Option Nat :=
  if s ≠ [] ∧ s.all isDigit then some (s.foldl (fun n c => n * 10 + digitValue c) 0) else none

def integer? : List Char → Option Int
  | '-' :: s => (natural? s).map fun n => -(n : Int)
  | '+' :: s => (natural? s).map Int.ofNat
  | s => (natural? s).map Int.ofNat

/-- A count takes a plus sign and no minus sign. -/
def count? : List Char → Option Nat
  | '+' :: s => natural? s
  | s => natural? s

/-- A signed number of `width` bits. -/
def signed? (width : Nat) (s : List Char) : Option Int :=
  (integer? s).filter fun n => -(pow2 (width - 1) : Int) ≤ n && n < (pow2 (width - 1) : Int)

/-- A count of `width` bits. -/
def unsigned? (width : Nat) (s : List Char) : Option Nat := (count? s).filter (· < pow2 width)

def digits (n : Nat) : List Char := Nat.toDigits 10 n

def chars (n : Int) : List Char := if n < 0 then '-' :: digits n.natAbs else digits n.natAbs

/-- A number as it is written: digits without leading zeros, after a minus sign if it is
negative. -/
def text (n : Int) : String := String.ofList (chars n)

/-- The digits of `n`, with zeros in front up to `width` digits. -/
def padded (width n : Nat) : List Char :=
  List.replicate (width - (digits n).length) '0' ++ digits n

end TopicReader.Decimal
