import TopicReader.RunError

/-! What all parts of a run share: whether it is closing, and the first error. Both are set once. -/
namespace TopicReader

/-- What a run reports while it goes on. -/
inductive Warning where
  | discarded (error : RunError)
  | notStarted (partition : Int) (error : RunError)
  | quiet (partition : Int)
  | undecodable (partition offset : Int) (error : DecodeError)
  deriving DecidableEq, Repr

namespace Warning

def message : Warning → String
  | .discarded _ => "Discarding error after the first failure"
  | .notStarted _ _ => "Failed to start partition reader"
  | .quiet _ => "No messages within the idle timeout, assuming partition is caught up"
  | .undecodable _ _ _ => "Failed to decode message in tail window"

/-- The facts that go with the message, in order. -/
def fields : Warning → List (String × String)
  | .discarded error => [("error", error.message)]
  | .notStarted partition error =>
    [("partition", Decimal.text partition), ("error", error.message)]
  | .quiet partition => [("partition", Decimal.text partition)]
  | .undecodable partition offset error =>
    [("partition", Decimal.text partition), ("offset", Decimal.text offset), ("error", error.text)]

end Warning

structure Coordination where
  closing : Bool := false
  firstError : Option RunError := none
  deriving DecidableEq, Repr

namespace Coordination

def shutdown (c : Coordination) : Coordination := { c with closing := true }

/-- Whether the next error to be recorded will be the first. -/
def isFree (c : Coordination) : Bool := c.firstError.isNone

/-- Keeps an error unless there is one already. -/
def record (c : Coordination) (e : RunError) : Coordination :=
  if c.isFree then { c with firstError := some e } else c

@[simp] theorem closing_record (c : Coordination) (e : RunError) :
    (c.record e).closing = c.closing := by
  unfold record
  split <;> rfl

@[simp] theorem firstError_record (c : Coordination) (e : RunError) :
    (c.record e).firstError = some (c.firstError.getD e) := by
  cases slot : c.firstError <;> simp [record, isFree, slot]

/-- Takes the error out, so that the next one counts as first again. -/
def take (c : Coordination) : Option RunError × Coordination :=
  (c.firstError, { c with firstError := none })

/-- An error that is not kept is reported. -/
def recordWarnings (c : Coordination) (e : RunError) : List Warning :=
  if c.isFree then [] else [.discarded e]

end Coordination
end TopicReader
