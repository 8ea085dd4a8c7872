import TopicReader.Engine.Event

/-! What the events of a run tell: the messages that readers delivered and those that entered the
funnel, each with the partition whose reader it came from, the workers that crashed, and the records
that were written. -/
namespace TopicReader

namespace Event

@[simp] def received? : Event → Option (Int × Message)
  | .received partition m => some (partition, m)
  | _ => none

@[simp] def forwarded? : Event → Option (Int × Message)
  | .forwarded partition m => some (partition, m)
  | _ => none

@[simp] def crashed? : Event → Option Int
  | .crashed partition => some partition
  | _ => none

@[simp] def emitted? : Event → Option Record
  | .emitted r => some r
  | _ => none

end Event

/-- The messages that readers delivered to their workers, with the partitions of the readers. -/
def received (events : List Event) : List (Int × Message) := events.filterMap Event.received?

/-- The messages that entered the funnel, with the partitions whose workers sent them. -/
def forwarded (events : List Event) : List (Int × Message) := events.filterMap Event.forwarded?

/-- The partitions whose workers crashed. -/
def crashes (events : List Event) : List Int := events.filterMap Event.crashed?

/-- The records that the sink took. -/
def emitted (events : List Event) : List Record := events.filterMap Event.emitted?

/-- The messages that came from one partition. -/
def ofPartition (partition : Int) (messages : List (Int × Message)) : List Message :=
  (messages.filter (·.1 = partition)).map (·.2)

variable {e : Event} {es fs : List Event} {p q : Int} {m : Message}

theorem filterMap_cons_toList {α β : Type} {f : α → Option β} {x : α} {xs : List α} :
    (x :: xs).filterMap f = (f x).toList ++ xs.filterMap f := by
  cases h : f x with
  | none => exact List.filterMap_cons_none h
  | some y => exact List.filterMap_cons_some h

@[simp] theorem received_nil : received [] = [] := rfl

@[simp] theorem forwarded_nil : forwarded [] = [] := rfl

@[simp] theorem crashes_nil : crashes [] = [] := rfl

@[simp] theorem emitted_nil : emitted [] = [] := rfl

@[simp] theorem received_cons : received (e :: es) = e.received?.toList ++ received es :=
  filterMap_cons_toList

@[simp] theorem forwarded_cons : forwarded (e :: es) = e.forwarded?.toList ++ forwarded es :=
  filterMap_cons_toList

@[simp] theorem crashes_cons : crashes (e :: es) = e.crashed?.toList ++ crashes es :=
  filterMap_cons_toList

@[simp] theorem emitted_cons : emitted (e :: es) = e.emitted?.toList ++ emitted es :=
  filterMap_cons_toList

@[simp] theorem received_append : received (es ++ fs) = received es ++ received fs :=
  List.filterMap_append

@[simp] theorem forwarded_append : forwarded (es ++ fs) = forwarded es ++ forwarded fs :=
  List.filterMap_append

@[simp] theorem crashes_append : crashes (es ++ fs) = crashes es ++ crashes fs :=
  List.filterMap_append

@[simp] theorem emitted_append : emitted (es ++ fs) = emitted es ++ emitted fs :=
  List.filterMap_append

@[simp] theorem ofPartition_append {xs ys : List (Int × Message)} :
    ofPartition p (xs ++ ys) = ofPartition p xs ++ ofPartition p ys := by
  simp [ofPartition]

@[simp] theorem ofPartition_nil : ofPartition p [] = [] := rfl

@[simp] theorem ofPartition_self : ofPartition p [(p, m)] = [m] := by simp [ofPartition]

theorem ofPartition_other (h : q ≠ p) : ofPartition p [(q, m)] = [] := by simp [ofPartition, h]

theorem ofPartition_map_self {ms : List Message} :
    ofPartition p (ms.map fun m => (p, m)) = ms := by
  simp [ofPartition, List.filter_map, Function.comp_def]

theorem ofPartition_map_other {ms : List Message} (h : q ≠ p) :
    ofPartition p (ms.map fun m => (q, m)) = [] := by
  simp [ofPartition, h]

theorem mem_ofPartition {xs : List (Int × Message)} : m ∈ ofPartition p xs ↔ (p, m) ∈ xs := by
  simp [ofPartition]

theorem ofPartition_mono {xs ys : List (Int × Message)} (h : xs <+: ys) :
    ofPartition p xs <+: ofPartition p ys := by
  obtain ⟨rest, rfl⟩ := h
  exact ⟨ofPartition p rest, ofPartition_append.symm⟩

/-- Recording an error moves no message. -/
@[simp] theorem received_recordEvents (c : Coordination) (e : RunError) :
    received (c.recordEvents e) = [] := by
  by_cases free : c.isFree <;>
    simp [Coordination.recordEvents, Coordination.recordWarnings, free]

@[simp] theorem forwarded_recordEvents (c : Coordination) (e : RunError) :
    forwarded (c.recordEvents e) = [] := by
  by_cases free : c.isFree <;>
    simp [Coordination.recordEvents, Coordination.recordWarnings, free]

@[simp] theorem crashes_recordEvents (c : Coordination) (e : RunError) :
    crashes (c.recordEvents e) = [] := by
  by_cases free : c.isFree <;>
    simp [Coordination.recordEvents, Coordination.recordWarnings, free]

@[simp] theorem emitted_recordEvents (c : Coordination) (e : RunError) :
    emitted (c.recordEvents e) = [] := by
  by_cases free : c.isFree <;>
    simp [Coordination.recordEvents, Coordination.recordWarnings, free]

end TopicReader
