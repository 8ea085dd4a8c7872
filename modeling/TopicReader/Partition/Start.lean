import TopicReader.Text.Decimal
import TopicReader.Text.Letter
import TopicReader.Text.LetterCase

/-! Where a partition is read from, as a user asks for it: `PARTITION=OFFSET`. -/
namespace TopicReader

inductive Position where
  | exactly (offset : Int)
  | oldest
  | newest
  deriving DecidableEq, Repr

def Position.text : Position → String
  | .exactly offset => Decimal.text offset
  | .oldest => "oldest"
  | .newest => "newest"

/-- The start asked for one partition. -/
structure Start where
  partition : Int
  position : Position
  deriving DecidableEq, Repr

inductive StartError where
  | noSeparator (given : String)
  | badPartition (given : String)
  | badOffset (given : String)
  deriving DecidableEq, Repr

def StartError.message : StartError → String
  | .noSeparator given => s!"expected PARTITION=OFFSET, got '{given}'"
  | .badPartition given => s!"invalid partition '{given}'"
  | .badOffset given => s!"invalid offset '{given}'"

namespace Start

def text (s : Start) : String := Decimal.text s.partition ++ "=" ++ s.position.text

/-- A number that is not negative; a negative one is reported as the number it is. -/
def readPartition (s : List Char) : Except StartError Int :=
  let trimmed := Text.trim s
  match Decimal.signed? 32 trimmed with
  | none => .error (.badPartition (String.ofList trimmed))
  | some n => if n < 0 then .error (.badPartition (Decimal.text n)) else .ok n

/-- A keyword in any letter case, or a number that is not negative. -/
def readPosition (s : List Char) : Except StartError Position :=
  let trimmed := Text.trim s
  let lowered := trimmed.flatMap Text.lowerCase
  if lowered = "oldest".toList then .ok .oldest
  else if lowered = "newest".toList then .ok .newest
  else match (Decimal.signed? 64 lowered).filter (0 ≤ ·) with
    | some n => .ok (.exactly n)
    | none => .error (.badOffset (String.ofList trimmed))

/-- The first equals sign separates the two parts, and white space around each is ignored. -/
def read (s : String) : Except StartError Start := do
  let chars := s.toList
  match chars.dropWhile (· ≠ '=') with
  | [] => .error (.noSeparator s)
  | _ :: offset =>
    let partition ← readPartition (chars.takeWhile (· ≠ '='))
    let position ← readPosition offset
    return ⟨partition, position⟩

end Start
end TopicReader
