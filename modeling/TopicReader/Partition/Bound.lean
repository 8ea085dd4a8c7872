import TopicReader.Text.Decimal

/-! The offsets of one partition that are to be read, from a first one to a last one or without
end. -/
namespace TopicReader

structure Bound where
  partition : Int
  start : Int
  last : Option Int
  deriving DecidableEq, Repr

namespace Bound

/-- Whether there is nothing to read, so that the partition is never opened. -/
def isEmpty (b : Bound) : Bool := b.last.any fun last => last < 0 || b.start > last

/-- Whether `offset` is the last one to read, or lies past it. -/
def reachedBy (b : Bound) (offset : Int) : Bool := b.last.any (· ≤ offset)

def text (b : Bound) : String :=
  let range := match b.last with
    | some last => Decimal.text b.start ++ "..=" ++ Decimal.text last
    | none => Decimal.text b.start ++ ".."
  "partition " ++ Decimal.text b.partition ++ " [" ++ range ++ "]"

end Bound
end TopicReader
