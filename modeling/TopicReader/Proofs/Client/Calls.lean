import TopicReader.Client.Basic

/-! A client that takes down every call that it gets. It answers as the client inside does, so
whatever is said of its calls holds of the calls to any client. -/
namespace TopicReader

deriving instance DecidableEq for Opening

/-- What came of opening a reader, without the reader. -/
def Opening.outcome {ρ : Type} : Opening ρ → Opening Unit
  | .opened _ => .opened ()
  | .failed e => .failed e
  | .crashed => .crashed

/-- A call to a client. Waiting for a message is none, since it changes nothing in the client. -/
inductive Call where
  | partitions (topic : String)
  | oldest (topic : String) (partition : Int)
  | newest (topic : String) (partition : Int)
  | watermarks (topic : String) (partition : Int)
  | openReader (topic : String) (partition start : Int) (outcome : Opening Unit)
  | closeReader (partition : Int)
  deriving DecidableEq

def Call.partition? : Call → Option Int
  | .partitions _ => none
  | .oldest _ p | .newest _ p | .watermarks _ p | .openReader _ p _ _ | .closeReader p => some p

/-- The calls that are about one partition, in order. -/
def callsOn (p : Int) (calls : List Call) : List Call := calls.filter (·.partition? = some p)

section
variable {p : Int} {calls more : List Call}

@[simp] theorem callsOn_append : callsOn p (calls ++ more) = callsOn p calls ++ callsOn p more :=
  List.filter_append _ _

theorem callsOn_self (own : ∀ c ∈ calls, c.partition? = some p) : callsOn p calls = calls :=
  List.filter_eq_self.mpr fun c member => decide_eq_true (own c member)

theorem callsOn_other {q : Int} (own : ∀ c ∈ calls, c.partition? = some q) (other : p ≠ q) :
    callsOn p calls = [] := by
  refine List.filter_eq_nil_iff.mpr fun c member same => other ?_
  exact (Option.some.inj ((own c member).symm.trans (of_decide_eq_true same))).symm

end

/-- A client together with the calls that it got. -/
structure Noted (σ : Type) where
  client : σ
  calls : List Call := []

namespace Noted

variable {σ ρ α : Type}

/-- The client as it is after a call. -/
def note (s : Noted σ) (call : Call) (client : σ) : Noted σ := ⟨client, s.calls ++ [call]⟩

def ask (call : Call) (question : Query σ α) : Query (Noted σ) α :=
  ExceptT.mk fun s =>
    let (answer, client) := question.run s.client
    (answer, s.note call client)

def openReader [Client σ ρ] (topic : String) (partition start : Int) (s : Noted σ) :
    Opening ρ × Noted σ :=
  let (opening, client) := Client.openReader topic partition start s.client
  (opening, s.note (.openReader topic partition start opening.outcome) client)

instance [Client σ ρ] : Client (Noted σ) ρ where
  partitions topic := ask (.partitions topic) (Client.partitions topic)
  oldest topic p := ask (.oldest topic p) (Client.oldest topic p)
  newest topic p := ask (.newest topic p) (Client.newest topic p)
  watermarks topic p := ask (.watermarks topic p) (Client.watermarks topic p)
  openReader := openReader
  respond s := Client.respond s.client
  closeReader p s := s.note (.closeReader p) (Client.closeReader p s.client)

variable [Client σ ρ] {s t : Noted σ}

/-- A listing is taken down, and answered by the client inside. -/
theorem partitions_run (topic : String) :
    (Client.partitions topic : Query (Noted σ) (List Int)).run s =
      (((Client.partitions topic : Query σ (List Int)).run s.client).1,
        s.note (.partitions topic) ((Client.partitions topic : Query σ (List Int)).run s.client).2) :=
  rfl

/-- An opening is taken down with what came of it. -/
theorem calls_openReader {topic : String} {p start : Int} {opening : Opening ρ}
    (answer : Client.openReader topic p start s = (opening, t)) :
    t.calls = s.calls ++ [.openReader topic p start opening.outcome] := by
  cases answer
  rfl

end Noted
end TopicReader
