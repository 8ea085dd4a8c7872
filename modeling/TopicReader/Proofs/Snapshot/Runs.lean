import TopicReader.Proofs.Engine.Integrity
import TopicReader.Proofs.Snapshot.Output
import TopicReader.Proofs.Snapshot.Progress

/-! Runs that nothing hinders. Nobody outside does more than append messages to partitions whose ends
are known by then, and each step of the run itself brings it nearer to its end. -/
namespace TopicReader

/-- Whether a request reads a partition of a store. -/
def LogStore.Selects (init : LogStore) (request : Request) (p : Int) : Prop :=
  (init.log? request.topic p).isSome = true ∧ (request.partitions = [] ∨ p ∈ request.partitions)

/-- The partitions that a request reads, as a run finds them. -/
def LogStore.selection (init : LogStore) (request : Request) : List Int :=
  Run.distinct (if request.partitions = [] then init.ids request.topic else request.partitions)

/-- The messages of a partition that a request with an end reads: those that the store has, from the
start of the partition on. -/
def LogStore.demanded (init : LogStore) (request : Request) (p : Int) : List Message :=
  if request.partitions = [] ∨ p ∈ request.partitions then
    (init.logOf request.topic p).onward ((init.logOf request.topic p).start request p)
  else []

namespace Run

/-- What a run does by itself, as opposed to what comes from outside. -/
def Action.isOwn {σ : Type} : Action σ → Bool
  | .supervise a => a.isOwn
  | _ => true

/-- The partitions whose watermarks have not been queried yet. -/
def Stage.waiting : Stage → List Int
  | .resolving waiting _ => waiting
  | _ => []

section
variable {κ : Type}

/-- What may happen beside a run: time passes, and messages are appended, in two halves, to
partitions that the run does not read or whose watermarks it has queried. -/
inductive Beside (r : Run LogStore LogReader κ) : Supervision.Action LogStore → Prop where
  | advance (clock : Nat) : Beside r (.advance clock)
  | push {topic p} (m : Message) (queried : topic = r.request.topic → p ∉ r.stage.waiting) :
      Beside r (.change (·.push topic p m))
  | bump : Beside r (.change LogStore.bump)

/-- A step of the run itself, or one beside it. -/
def Proceeds [Sink κ] (r : Run LogStore LogReader κ) (a : Action LogStore) (events : List Event)
    (t : Run LogStore LogReader κ) : Prop :=
  Moves r a events t ∧ (a.isOwn = true ∨ ∃ b, a = .supervise b ∧ Beside r b)

/-- A valid request with an end and without a tail, for partitions that the topic has. Nothing stands
in the way of reading them: their logs ascend, no failure has been planted, their messages can be
decoded, and the sink takes all records. -/
structure Unhindered [Sink κ] (init : LogStore) (request : Request) (chain : Chain) (sink : κ) :
    Prop where
  ending : request.exit = true
  direct : request.tail = none
  begins : request.fromBeginning = true ∨ request.starts ≠ []
  named : request.topic ≠ ""
  held : ∃ p, (init.log? request.topic p).isSome = true
  known : ∀ p ∈ request.partitions, (init.log? request.topic p).isSome = true
  regular : ∀ p log, init.log? request.topic p = some log → log.Regular
  openings : init.openFailures = []
  offsets : init.offsetFailures = []
  decodes : ∀ p log, init.log? request.topic p = some log → ∀ m ∈ log.messages,
    ∃ r, chain.record m = .ok r
  accepts : Sink.Accepts sink

/-- A run that is under way, with everything in its place. -/
structure Intact [Sink κ] (init : LogStore) (request : Request) (chain : Chain)
    (r : Run LogStore LogReader κ) (events : List Event) : Prop where
  asked : r.request = request
  accounts : r.Accounts events
  flows : r.Flows chain events
  tracks : r.supervision.Tracks init request r.stage.waiting events
  writes : r.drain.Writes
  going : ∀ result, r.stage ≠ .returned result
  resolving : ∀ waiting bounds, r.stage = .resolving waiting bounds → waiting ≠ [] ∧
    (∀ b ∈ bounds, b = init.boundOf request b.partition) ∧
      ∀ p, p ∈ waiting ∨ p ∈ bounds.map (·.partition) ↔ init.Selects request p
  covered : r.isActive = true → ∀ p, p ∈ r.supervision.partitions ↔
    init.Selects request p ∧ (init.boundOf request p).isEmpty = false

/-- A run that has ended well, with all that was demanded written. -/
def Fulfilled (init : LogStore) (request : Request) (chain : Chain)
    (r : Run LogStore LogReader κ) (events : List Event) : Prop :=
  r.stage = .returned (.ok ()) ∧ ∃ written,
    written.map (fun x => chain.record x.2) = (emitted events).map .ok ∧
      ∀ p, ofPartition p written = init.demanded request p

end

section
variable {κ : Type} {init : LogStore} {request : Request} {chain : Chain} {sink : κ}

theorem mem_selection (known : ∀ p ∈ request.partitions, (init.log? request.topic p).isSome = true)
    (p : Int) : p ∈ init.selection request ↔ init.Selects request p := by
  unfold LogStore.selection LogStore.Selects
  rw [mem_distinct]
  split
  · rename_i all
    simp [all, LogStore.mem_ids]
  · rename_i named
    constructor
    · intro member
      exact ⟨known p member, .inr member⟩
    · intro selected
      exact selected.2.resolve_left named

theorem selection_ne_nil (held : ∃ p, (init.log? request.topic p).isSome = true) :
    init.selection request ≠ [] := by
  unfold LogStore.selection
  split
  · obtain ⟨p, held⟩ := held
    exact List.ne_nil_of_mem (mem_distinct.mpr (LogStore.mem_ids.mpr held))
  · rename_i named
    obtain ⟨q, rest, shape⟩ := List.exists_cons_of_ne_nil named
    exact List.ne_nil_of_mem (mem_distinct.mpr (shape ▸ List.mem_cons_self))

/-- A valid run begins with the partitions that the request reads. -/
theorem begin_eq (valid : request.validate = .ok ())
    (held : ∃ p, (init.log? request.topic p).isSome = true) :
    (begin request chain init sink : Run LogStore LogReader κ) =
      ⟨request, .ofBounds init request.topic (if request.isBounded then .some request.idle else none)
        [], .ofTail chain sink request.tail, .resolving (init.selection request) []⟩ := by
  have answer : (partitions request : Query LogStore (List Int)).run init =
      (.ok (init.selection request), init) := by
    unfold partitions LogStore.selection
    split
    · obtain ⟨p, held⟩ := held
      rw [map_eq_pure_bind, Query.run_bind,
        LogStore.partitions_run (List.ne_nil_of_mem (LogStore.mem_ids.mpr held))]
      rfl
    · rfl
  have some := selection_ne_nil held
  unfold begin
  rw [valid, answer]
  cases listed : init.selection request with
  | nil => exact absurd listed some
  | cons p rest => rfl

end

namespace Unhindered

variable {κ : Type} [Sink κ] {init : LogStore} {request : Request} {chain : Chain} {sink : κ}

theorem valid (h : Unhindered init request chain sink) : request.validate = .ok () := by
  have fault : request.fault? = none := by
    unfold Request.fault?
    rcases h.begins with beginning | starts
    · simp [h.direct, h.named, beginning]
    · simp [h.direct, h.named, starts]
  simp [Request.validate, fault]

theorem logOf_regular (h : Unhindered init request chain sink) (p : Int) :
    (init.logOf request.topic p).Regular :=
  LogStore.logOf_induction (Log.regular_ofMessages .nil (by simp) (by simp)) (h.regular p)

theorem decodes_logOf (h : Unhindered init request chain sink) {p : Int} {m : Message}
    (member : m ∈ (init.logOf request.topic p).messages) : ∃ r, chain.record m = .ok r :=
  LogStore.logOf_induction (motive := fun log => ∀ m ∈ log.messages, ∃ r, chain.record m = .ok r)
    (by simp) (h.decodes p) m member

end Unhindered
end Run
end TopicReader
