import TopicReader.Message

/-! The most recent messages seen so far, newest first. Of messages with one timestamp the earlier
arrival stands before the later one, and a message without a timestamp counts as older than any
other. -/
namespace TopicReader

structure TailWindow where
  capacity : Nat
  arrivals : Nat := 0
  /-- The messages with their arrival numbers. -/
  entries : List (Nat × Message) := []

namespace TailWindow

def isOlder (m n : Message) : Bool := Instant.missingOrBefore m.timestamp n.timestamp

/-- Puts a message behind all that are not older, and drops what is then too much. -/
def insert (w : TailWindow) (m : Message) : TailWindow :=
  let newer := w.entries.takeWhile fun e => !isOlder e.2 m
  let older := w.entries.dropWhile fun e => !isOlder e.2 m
  { w with
    arrivals := w.arrivals + 1
    entries := (newer ++ (w.arrivals, m) :: older).take w.capacity }

def messages (w : TailWindow) : List Message := w.entries.map (·.2)

def size (w : TailWindow) : Nat := w.entries.length

/-- Older before newer, and earlier arrivals before later ones. -/
def precedes (a b : Nat × Message) : Bool :=
  isOlder a.2 b.2 || (!isOlder b.2 a.2 && a.1 ≤ b.1)

def ascending (w : TailWindow) : List Message := (w.entries.mergeSort precedes).map (·.2)

end TailWindow
end TopicReader
