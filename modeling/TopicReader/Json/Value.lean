import TopicReader.Number.Binary64

/-! Values of JSON documents. Members of an object are kept in ascending order of their names, one
for each name. -/
namespace TopicReader.Json

/-- Whole numbers that fit 64 bits are kept exactly; all others are binary64. -/
inductive Number where
  | whole (n : Int)
  | real (negative : Bool) (magnitude : Binary64)
  deriving DecidableEq, Repr

inductive Value where
  | null
  | bool (b : Bool)
  | number (n : Number)
  | text (s : String)
  | array (items : List Value)
  | object (members : List (String × Value))
  deriving Repr

/-- The order of names is that of their code points, which is also that of their UTF-8 bytes. A
later value replaces an earlier one of the same name. -/
def insertMember (name : String) (v : Value) : List (String × Value) → List (String × Value)
  | [] => [(name, v)]
  | (other, w) :: rest =>
    if name < other then (name, v) :: (other, w) :: rest
    else if name = other then (name, v) :: rest
    else (other, w) :: insertMember name v rest

end TopicReader.Json
