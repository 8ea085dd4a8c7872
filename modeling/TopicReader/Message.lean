import TopicReader.Text.Utf8
import TopicReader.Time.Instant

/-! Messages as a partition holds them, and records, which are messages rendered as text. -/
namespace TopicReader

structure Message where
  partition : Int
  offset : Int
  key : Option Bytes := none
  value : Option Bytes := none
  timestamp : Option Instant := none
  headers : List (String × Bytes) := []
  deriving DecidableEq, Repr

structure Record where
  partition : Int
  offset : Int
  timestamp : Option Instant := none
  key : Option String := none
  value : Option String := none
  headers : List (String × String) := []
  deriving DecidableEq, Repr

end TopicReader
