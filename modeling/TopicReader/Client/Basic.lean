import TopicReader.Message
import TopicReader.RunError

/-! What a source of topics offers: the partitions of a topic, the offsets that a partition holds,
and readers of one partition. A client is a value; every question may change it. -/
namespace TopicReader

/-- A question to a client of type `σ`, which answers or fails. -/
abbrev Query (σ α : Type) := ExceptT RunError (StateM σ) α

/-- What comes of opening a reader. -/
inductive Opening (ρ : Type) where
  | opened (reader : ρ)
  | failed (error : RunError)
  | crashed

/-- What a reader answers to one request for a message. -/
inductive Delivery where
  | message (m : Message)
  | ended
  | failed (error : RunError)
  | crashed
  deriving DecidableEq, Repr

/-- An answer, how long after the request it comes, and the reader from then on. -/
structure Response (ρ : Type) where
  delay : Nat
  delivery : Delivery
  reader : ρ

/-- Clients of type `σ` with readers of type `ρ`. A reader without a response stays silent until the
client changes. -/
class Client (σ : Type) (ρ : outParam Type) where
  partitions (topic : String) : Query σ (List Int)
  oldest (topic : String) (partition : Int) : Query σ Int
  newest (topic : String) (partition : Int) : Query σ Int
  watermarks (topic : String) (partition : Int) : Query σ (Int × Int)
  openReader (topic : String) (partition start : Int) (client : σ) : Opening ρ × σ
  respond (client : σ) (reader : ρ) : Option (Response ρ)
  /-- Closing is assumed to return: a client that crashes here is not described. -/
  closeReader (partition : Int) (client : σ) : σ

end TopicReader
