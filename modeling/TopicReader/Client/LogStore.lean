import TopicReader.Client.Basic
import TopicReader.Partition.Offset

/-! Topics held in memory, as one log of messages for each partition. A reader that has seen its
whole log waits for more. Failures can be planted, and the store keeps account of what was asked of
it. -/
namespace TopicReader

structure Log where
  oldest : Int := 0
  messages : List Message := []
  deriving DecidableEq, Repr

namespace Log

/-- The offset that the next message gets. -/
def newest (log : Log) : Int :=
  (log.messages.getLast?.map (offsetAfter ·.offset)).getD log.oldest

/-- The oldest offset of a log is that of its first message, or 0. -/
def ofMessages (messages : List Message) : Log :=
  ⟨(messages.head?.map (·.offset)).getD 0, messages⟩

/-- The time 2024-01-01T00:00:00Z. -/
def baseMillis : Int := 1704067200000

/-- Message `n` of a generated log, `n` seconds after the base time. -/
def generated (partition : Int) (n : Nat) : Message where
  partition := partition
  offset := n
  key := some (Utf8.encode s!"key-{n}")
  value := some (Utf8.encode s!"message-{n}")
  timestamp := Instant.ofMillis? (baseMillis + n * 1000)

def generate (partition : Int) (count : Nat) : Log :=
  ofMessages ((List.range count).map (generated partition))

/-- The log gives the message its place. -/
def append (log : Log) (partition : Int) (m : Message) : Log :=
  { log with messages := log.messages ++ [{ m with partition, offset := log.newest }] }

/-- The first message that a reader at `next` has not seen. -/
def from? (log : Log) (next : Int) : Option Message := log.messages.find? (next ≤ ·.offset)

end Log

/-- The version grows with every append, after the message is in place. -/
structure LogStore where
  logs : List ((String × Int) × Log) := []
  openFailures : List Int := []
  offsetFailures : List Int := []
  fetches : Nat := 0
  opened : List (Int × Int) := []
  closed : List Int := []
  version : Nat := 0

structure LogReader where
  topic : String
  partition : Int
  next : Int
  seen : Nat

namespace LogStore

def log? (s : LogStore) (topic : String) (partition : Int) : Option Log :=
  s.logs.lookup (topic, partition)

/-- Sets the log of a partition, in place of the one it had. -/
def put (s : LogStore) (topic : String) (partition : Int) (log : Log) : LogStore :=
  { s with logs := ((topic, partition), log) :: s.logs.filter (·.1 ≠ (topic, partition)) }

/-- The first half of an append: the message is in its log, but nobody has been told. -/
def push (s : LogStore) (topic : String) (partition : Int) (m : Message) : LogStore :=
  s.put topic partition (((s.log? topic partition).getD {}).append partition m)

/-- The second half of an append, which wakes the readers that wait. -/
def bump (s : LogStore) : LogStore := { s with version := s.version + 1 }

def append (s : LogStore) (topic : String) (partition : Int) (m : Message) : LogStore :=
  (s.push topic partition m).bump

/-- The ids of a topic's partitions, ascending. -/
def ids (s : LogStore) (topic : String) : List Int :=
  ((s.logs.filter (·.1.1 = topic)).map (·.1.2)).mergeSort (· ≤ ·)

def partitions (topic : String) : Query LogStore (List Int) := do
  match (← get).ids topic with
  | [] => throw (.listing topic "unknown topic")
  | ids => return ids

/-- One question for both ends of a log; it is counted also when it fails. -/
def watermarks (topic : String) (partition : Int) : Query LogStore (Int × Int) := do
  modify fun s => { s with fetches := s.fetches + 1 }
  let s ← get
  if s.offsetFailures.contains partition then
    throw (.offsets partition "injected offset failure")
  match s.log? topic partition with
  | some log => return (log.oldest, log.newest)
  | none => throw (.offsets partition
      ("unknown partition " ++ Decimal.text partition ++ " of topic " ++ topic))

def openReader (topic : String) (partition start : Int) (s : LogStore) :
    Opening LogReader × LogStore :=
  if s.openFailures.contains partition then
    (.failed (.opening partition "injected open failure"), s)
  else
    (.opened ⟨topic, partition, start, s.version⟩,
      { s with opened := s.opened ++ [(partition, start)] })

/-- A reader notes the version before it looks into its log, so that an append in between wakes
it. -/
def mark (s : LogStore) (r : LogReader) : LogReader := { r with seen := s.version }

/-- A look into the log, which moves the reader past the message it finds. -/
def scan (s : LogStore) (r : LogReader) : Option (Message × LogReader) := do
  let log ← s.log? r.topic r.partition
  let m ← log.from? r.next
  return (m, { r with next := offsetAfter m.offset })

def respond (s : LogStore) (r : LogReader) : Option (Response LogReader) :=
  (s.scan (s.mark r)).map fun (m, r) => ⟨0, .message m, r⟩

instance : Client LogStore LogReader where
  partitions := partitions
  oldest topic partition := Prod.fst <$> watermarks topic partition
  newest topic partition := Prod.snd <$> watermarks topic partition
  watermarks := watermarks
  openReader := openReader
  respond := respond
  closeReader partition s := { s with closed := s.closed ++ [partition] }

/-- How many messages the store holds. -/
def volume (s : LogStore) : Nat := (s.logs.map (·.2.messages.length)).foldl (· + ·) 0

end LogStore
end TopicReader
