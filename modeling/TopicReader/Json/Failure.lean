import TopicReader.Text.Utf8

/-! Why a document could not be read, and the place in the text where that showed. -/
namespace TopicReader.Json

inductive Cause where
  | numberOutOfRange
  | loneLeadingSurrogate
  | unexpectedEndOfHexEscape
  | invalidUnicode
  | recursionLimit
  | malformed
  deriving DecidableEq, Repr

def Cause.message : Cause → String
  | .numberOutOfRange => "number out of range"
  | .loneLeadingSurrogate => "lone leading surrogate in hex escape"
  | .unexpectedEndOfHexEscape => "unexpected end of hex escape"
  | .invalidUnicode => "invalid unicode code point"
  | .recursionLimit => "recursion limit exceeded"
  | .malformed => "expected value"

/-- A cause, and how many bytes were not yet consumed when it showed. -/
structure Failure where
  cause : Cause
  left : Nat
  deriving DecidableEq, Repr

/-- Lines count from 1; the column is the number of bytes consumed on the line. -/
def position (consumed : Bytes) : Nat × Nat :=
  (consumed.count 0x0A + 1, (consumed.reverse.takeWhile (· ≠ 0x0A)).length)

def Failure.message (f : Failure) (document : Bytes) : String :=
  let (line, column) := position (document.take (document.length - f.left))
  s!"{f.cause.message} at line {line} column {column}"

end TopicReader.Json
