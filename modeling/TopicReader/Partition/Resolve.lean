import TopicReader.Client.Basic
import TopicReader.Partition.Bound
import TopicReader.Partition.Offset
import TopicReader.Request

/-! The bound of a partition, found from a request and from the offsets that the partition holds. A
question is asked only where a rule needs its answer, and both ends of a partition come from one
question. -/
namespace TopicReader

/-- The last `count` offsets, or as many as there are. The subtraction stops at the least offset. -/
def Bound.tail (partition oldest newest : Int) (count : Nat) : Bound :=
  let start := max oldest (max leastOffset (newest - min (count : Int) greatestOffset))
  ⟨partition, start, some (offsetBefore newest)⟩

variable {σ ρ : Type} [Client σ ρ]

/-- The start of a partition that is not read by its tail. Watermarks that are known are not asked
for again. -/
def Request.findStart (r : Request) (partition : Int) (known : Option (Int × Int)) : Query σ Int :=
  let oldest := match known with
    | some (oldest, _) => pure oldest
    | none => Client.oldest r.topic partition
  let newest := match known with
    | some (_, newest) => pure newest
    | none => Client.newest r.topic partition
  match r.position? partition with
  | some (.exactly offset) => pure offset
  | some .oldest => oldest
  | some .newest => newest
  | none => if r.fromBeginning then oldest else newest

def Request.resolve (r : Request) (partition : Int) : Query σ Bound := do
  match r.validate with
  | .error e => throw e
  | .ok () =>
    match r.tail with
    | some count =>
      let (oldest, newest) ← Client.watermarks r.topic partition
      return Bound.tail partition oldest newest count
    | none =>
      if r.exit then
        let known ← Client.watermarks r.topic partition
        let start ← r.findStart partition (some known)
        return ⟨partition, start, some (offsetBefore known.2)⟩
      else
        let start ← r.findStart partition none
        return ⟨partition, start, none⟩

end TopicReader
