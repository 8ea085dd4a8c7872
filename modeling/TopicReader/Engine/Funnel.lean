import TopicReader.Message

/-! The queue between the workers and the output. It is closed for the output when it is empty and
nobody holds a sending end any more. -/
namespace TopicReader

structure Funnel where
  capacity : Nat := 1
  queue : List Message := []
  senders : Nat := 1
  receiving : Bool := true
  deriving Repr

namespace Funnel

def hasRoom (f : Funnel) : Bool := f.queue.length < f.capacity

def push (f : Funnel) (m : Message) : Funnel := { f with queue := f.queue ++ [m] }

def take? (f : Funnel) : Option (Message × Funnel) :=
  match f.queue with
  | [] => none
  | m :: rest => some (m, { f with queue := rest })

def isClosed (f : Funnel) : Bool := f.queue.isEmpty && f.senders = 0

/-- One more sending end. -/
def addSender (f : Funnel) : Funnel := { f with senders := f.senders + 1 }

/-- One sending end less. -/
def dropSender (f : Funnel) : Funnel := { f with senders := f.senders - 1 }

/-- The output takes no more; what is still queued is lost. -/
def dropReceiver (f : Funnel) : Funnel := { f with receiving := false, queue := [] }

end Funnel
end TopicReader
