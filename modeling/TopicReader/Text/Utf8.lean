/-! Bytes read as UTF-8. A byte string is cut into pieces: a well-formed piece is one character, and
an ill-formed one is the longest beginning of a character that the next byte breaks off. -/
namespace TopicReader

abbrev Bytes := List UInt8

namespace Utf8

/-- How many bytes follow a lead byte, and the bits of the character that it carries. -/
def lead (b : UInt8) : Option (Nat × Nat) :=
  if 0xC2 ≤ b ∧ b ≤ 0xDF then some (1, b.toNat % 32)
  else if 0xE0 ≤ b ∧ b ≤ 0xEF then some (2, b.toNat % 16)
  else if 0xF0 ≤ b ∧ b ≤ 0xF4 then some (3, b.toNat % 8)
  else none

def isTail (b : UInt8) : Bool := 0x80 ≤ b && b ≤ 0xBF

/-- The byte after a lead byte is narrowed where a wider one would spell a surrogate, a character
past the last one, or a character that has a shorter form. -/
def mayFollow (lead b : UInt8) : Bool :=
  if lead = 0xE0 then 0xA0 ≤ b && b ≤ 0xBF
  else if lead = 0xED then 0x80 ≤ b && b ≤ 0x9F
  else if lead = 0xF0 then 0x90 ≤ b && b ≤ 0xBF
  else if lead = 0xF4 then 0x80 ≤ b && b ≤ 0x8F
  else isTail b

/-- Reads the last `n` bytes of a character whose earlier bits are `bits`. -/
def tails : Nat → Nat → Bytes → Option Char × Bytes
  | 0, bits, rest => (some (Char.ofNat bits), rest)
  | _ + 1, _, [] => (none, [])
  | n + 1, bits, b :: rest =>
    if isTail b then tails n (bits * 64 + b.toNat % 64) rest else (none, b :: rest)

/-- The piece that starts with `b`, and what follows it. An ill-formed piece reads as `none`. -/
def piece (b : UInt8) (rest : Bytes) : Option Char × Bytes :=
  if b < 0x80 then (some (Char.ofNat b.toNat), rest)
  else match lead b, rest with
    | none, _ => (none, rest)
    | some _, [] => (none, [])
    | some (n, bits), c :: rest' =>
      if mayFollow b c then tails (n - 1) (bits * 64 + c.toNat % 64) rest' else (none, rest)

theorem length_tails (n bits : Nat) (s : Bytes) : (tails n bits s).2.length ≤ s.length := by
  induction n generalizing bits s with
  | zero => exact Nat.le_refl _
  | succ n ih =>
    cases s with
    | nil => exact Nat.le_refl _
    | cons b rest =>
      simp only [tails]
      split
      · exact Nat.le_trans (ih _ rest) (Nat.le_succ _)
      · exact Nat.le_refl _

theorem length_piece (b : UInt8) (rest : Bytes) : (piece b rest).2.length ≤ rest.length := by
  unfold piece
  split
  · exact Nat.le_refl _
  · split
    · exact Nat.le_refl _
    · exact Nat.le_refl _
    · split
      · exact Nat.le_trans (length_tails _ _ _) (Nat.le_succ _)
      · exact Nat.le_refl _

/-- All pieces of a byte string, in order. -/
def pieces : Bytes → List (Option Char)
  | [] => []
  | b :: rest => (piece b rest).1 :: pieces (piece b rest).2
termination_by s => s.length
decreasing_by exact Nat.lt_succ_of_le (length_piece b rest)

/-- Text for any byte string: an ill-formed piece becomes one replacement character. -/
def lossy (s : Bytes) : String := String.ofList ((pieces s).map (·.getD '\uFFFD'))

def isValid (s : Bytes) : Bool := (pieces s).all (·.isSome)

def decode? (s : Bytes) : Option String := ((pieces s).mapM id).map String.ofList

/-- How many bytes stand before the first ill-formed piece. -/
def validLength : Bytes → Nat
  | [] => 0
  | b :: rest =>
    match (piece b rest).1 with
    | none => 0
    | some _ => (rest.length + 1 - (piece b rest).2.length) + validLength (piece b rest).2
termination_by s => s.length
decreasing_by exact Nat.lt_succ_of_le (length_piece b rest)

/-- Splits text behind its first `n` bytes, unless that is inside a character. -/
def split? : Nat → List Char → Option (List Char × List Char)
  | 0, s => some ([], s)
  | _ + 1, [] => none
  | n + 1, c :: s =>
    if c.utf8Size ≤ n + 1 then (split? (n + 1 - c.utf8Size) s).map fun (a, b) => (c :: a, b)
    else none

def encode (s : String) : Bytes := s.toList.flatMap String.utf8EncodeChar

end Utf8
end TopicReader
