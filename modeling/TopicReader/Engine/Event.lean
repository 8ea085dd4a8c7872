import TopicReader.Engine.Coordination
import TopicReader.Message

/-! What a step of a run lets the outside see. -/
namespace TopicReader

/-- Why a worker stopped by itself. -/
inductive StopReason where
  | boundaryReached
  | idle
  | shutdown
  | exhausted
  | readerFailed
  | funnelClosed
  deriving DecidableEq, Repr

def StopReason.name : StopReason → String
  | .boundaryReached => "BoundaryReached"
  | .idle => "Idle"
  | .shutdown => "Shutdown"
  | .exhausted => "Exhausted"
  | .readerFailed => "ReaderFailed"
  | .funnelClosed => "FunnelClosed"

inductive Event where
  /-- A partition was asked to open at an offset. -/
  | opening (partition start : Int)
  /-- A reader delivered a message to its worker. -/
  | received (partition : Int) (m : Message)
  /-- A worker's message entered the funnel. -/
  | forwarded (partition : Int) (m : Message)
  /-- A worker stopped and closed its reader. -/
  | stopped (partition : Int) (reason : StopReason)
  /-- A worker crashed; its reader stays open. -/
  | crashed (partition : Int)
  /-- The output took a message out of the funnel. -/
  | taken (m : Message)
  /-- The sink took a record. -/
  | emitted (r : Record)
  /-- The sink failed. -/
  | refused (error : OutputError)
  /-- An error was recorded, as the first one or not. -/
  | recorded (error : RunError) (first : Bool)
  | warned (w : Warning)
  /-- Shutdown was requested. -/
  | closing
  deriving DecidableEq, Repr

namespace Event

def warning? : Event → Option Warning
  | .warned w => some w
  | _ => none

def taken? : Event → Option Message
  | .taken m => some m
  | _ => none

end Event

/-- The events of recording an error. -/
def Coordination.recordEvents (c : Coordination) (e : RunError) : List Event :=
  .recorded e c.isFree :: (c.recordWarnings e).map .warned

end TopicReader
