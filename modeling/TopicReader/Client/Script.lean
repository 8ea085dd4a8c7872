import TopicReader.Client.Basic

/-! A client that plays a script: what it answers to each question, and what each reader does step
by step. After its last step a reader stays silent. -/
namespace TopicReader.Script

inductive Step where
  | wait (millis : Nat)
  | deliver (delivery : Delivery)
  deriving DecidableEq, Repr

/-- What comes of opening a reader of one partition. -/
inductive Opens where
  | normally
  | failing (error : RunError)
  | crashing
  deriving DecidableEq, Repr

structure Partition where
  id : Int
  oldest : Option Int := none
  newest : Option Int := none
  opens : Opens := .normally
  steps : List Step := []

/-- A question that the client was asked. -/
inductive Question where
  | list (topic : String)
  | oldest (partition : Int)
  | newest (partition : Int)
  deriving DecidableEq, Repr

def Question.text : Question → String
  | .list topic => s!"list {topic}"
  | .oldest partition => "oldest " ++ Decimal.text partition
  | .newest partition => "newest " ++ Decimal.text partition

end Script

/-- Without a listing the client lists the partitions that it plays. -/
structure Script where
  listing : Option (Except RunError (List Int)) := none
  parts : List Script.Partition := []
  questions : List Script.Question := []
  opened : List (Int × Int) := []
  closed : List Int := []

namespace Script

def part? (s : Script) (partition : Int) : Option Partition :=
  s.parts.find? (·.id = partition)

def ask (q : Question) : Query Script Unit :=
  modify fun s => { s with questions := s.questions ++ [q] }

def partitions (topic : String) : Query Script (List Int) := do
  ask (.list topic)
  let s ← get
  match s.listing with
  | none => return (s.parts.map (·.id)).mergeSort (· ≤ ·)
  | some (.ok ids) => return ids
  | some (.error e) => throw e

def oldest (_topic : String) (partition : Int) : Query Script Int := do
  ask (.oldest partition)
  match ((← get).part? partition).bind (·.oldest) with
  | some n => return n
  | none => throw (.offsets partition "no oldest")

def newest (_topic : String) (partition : Int) : Query Script Int := do
  ask (.newest partition)
  match ((← get).part? partition).bind (·.newest) with
  | some n => return n
  | none => throw (.offsets partition "no newest")

/-- Two questions, the oldest offset first. -/
def watermarks (topic : String) (partition : Int) : Query Script (Int × Int) := do
  let oldest ← oldest topic partition
  let newest ← newest topic partition
  return (oldest, newest)

def openReader (_topic : String) (partition start : Int) (s : Script) :
    Opening (List Step) × Script :=
  let part := (s.part? partition).getD { id := partition }
  match part.opens with
  | .normally => (.opened part.steps, { s with opened := s.opened ++ [(partition, start)] })
  | .failing e => (.failed e, s)
  | .crashing => (.crashed, s)

/-- Waits in front of an answer add up. -/
def respond (waited : Nat) : List Step → Option (Response (List Step))
  | [] => none
  | .wait millis :: rest => respond (waited + millis) rest
  | .deliver delivery :: rest => some ⟨waited, delivery, rest⟩

instance : Client Script (List Step) where
  partitions := partitions
  oldest := oldest
  newest := newest
  watermarks := watermarks
  openReader := openReader
  respond _ steps := respond 0 steps
  closeReader partition s := { s with closed := s.closed ++ [partition] }

/-- How many steps the readers have. -/
def volume (s : Script) : Nat := (s.parts.map (·.steps.length)).foldl (· + ·) 0

end Script
end TopicReader
