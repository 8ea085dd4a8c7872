import TopicReader.Partition.Start
import TopicReader.RunError

/-! What is to be read from a topic, and when to stop. -/
namespace TopicReader

/-- An empty list of partitions stands for all of them. Times are in milliseconds. -/
structure Request where
  topic : String
  partitions : List Int := []
  fromBeginning : Bool := false
  starts : List Start := []
  tail : Option Nat := none
  exit : Bool := false
  idle : Nat := 5000
  deriving DecidableEq, Repr

namespace Request

/-- The first of the rules that the request breaks, if any. -/
def fault? (r : Request) : Option String :=
  if r.exit ∧ ¬ r.fromBeginning ∧ r.starts = [] then
    some "--exit requires --from-beginning or --offset"
  else if r.tail = some 0 then some "--tail must be greater than 0"
  else if r.tail.isSome ∧ r.starts ≠ [] then some "--tail and --offset cannot be used together"
  else if r.topic = "" then some "topic cannot be empty"
  else none

def validate (r : Request) : Except RunError Unit :=
  match r.fault? with
  | some message => .error (.config message)
  | none => .ok ()

/-- Whether every partition has an end. -/
def isBounded (r : Request) : Bool := r.exit || r.tail.isSome

/-- The start asked for a partition; the last entry for it wins. -/
def position? (r : Request) (partition : Int) : Option Position :=
  (r.starts.reverse.find? (·.partition = partition)).map (·.position)

end Request
end TopicReader
