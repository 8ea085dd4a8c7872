import TopicReader.Engine.Drain
import TopicReader.Engine.Supervision
import TopicReader.Partition.Resolve

/-! A whole run: the bounds of all partitions are found, the workers and the output do their parts,
and the outcome is settled. Nothing is opened before all bounds are known. -/
namespace TopicReader

inductive Run.Stage where
  /-- Partitions whose bounds are not known yet, and the bounds found so far. -/
  | resolving (waiting : List Int) (bounds : List Bound)
  | draining
  /-- The output has ended; the workers are waited for. -/
  | joining (drained : Except RunError Nat)
  | returned (result : Except RunError Unit)

structure Run (σ ρ κ : Type) where
  request : Request
  supervision : Supervision σ ρ
  drain : Drain κ
  stage : Run.Stage

inductive Run.Action (σ : Type) where
  /-- The bound of one of the partitions that wait is found. -/
  | resolve (i : Nat)
  | supervise (a : Supervision.Action σ)
  | drain
  /-- The run itself goes on, once what it waits for is done. -/
  | settle

namespace Run

variable {σ ρ κ : Type}

/-- The partitions that a request names or that the topic has, ascending and without repetition. -/
def distinct (partitions : List Int) : List Int := (partitions.mergeSort (· ≤ ·)).eraseDups

def partitions [Client σ ρ] (r : Request) : Query σ (List Int) :=
  if r.partitions = [] then distinct <$> Client.partitions r.topic
  else pure (distinct r.partitions)

/-- An invalid request is refused before the client is asked for anything. A topic without
partitions is read at once. -/
def begin [Client σ ρ] (r : Request) (chain : Chain) (client : σ) (sink : κ) : Run σ ρ κ :=
  let idle := if r.isBounded then some r.idle else none
  let ready (client : σ) (stage : Stage) : Run σ ρ κ :=
    ⟨r, .ofBounds client r.topic idle [], .ofTail chain sink r.tail, stage⟩
  match r.validate with
  | .error e => ready client (.returned (.error e))
  | .ok () =>
    match (partitions r : Query σ (List Int)).run client with
    | (.error e, client) => ready client (.returned (.error e))
    | (.ok [], client) => ready client (.returned (.ok ()))
    | (.ok partitions, client) => ready client (.resolving partitions [])

def boundsInOrder (bounds : List Bound) : List Bound :=
  bounds.mergeSort fun a b => a.partition ≤ b.partition

/-- The first bound that cannot be found ends the run. After the last one the workers begin. -/
def resolve [Client σ ρ] (r : Run σ ρ κ) (waiting : List Int) (bounds : List Bound)
    (partition : Int) : Run σ ρ κ :=
  let (answer, client) := (r.request.resolve partition : Query σ Bound).run r.supervision.client
  let r := { r with supervision := { r.supervision with client } }
  match answer with
  | .error e => { r with stage := .returned (.error e) }
  | .ok b =>
    match waiting with
    | [] =>
      let waiting := (boundsInOrder (bounds ++ [b])).filter fun b => !b.isEmpty
      { r with
        supervision := { r.supervision with stage := .after waiting [] }
        stage := .draining }
    | waiting => { r with stage := .resolving waiting (bounds ++ [b]) }

/-- The first sink error is the outcome of a run that had one, else the first error recorded. -/
def outcome (drained : Except RunError Nat) (c : Coordination) : Except RunError Unit :=
  match drained, c.firstError with
  | .error e, _ => .error e
  | .ok _, some e => .error e
  | .ok _, none => .ok ()

def shutdown (r : Run σ ρ κ) : Run σ ρ κ :=
  { r with supervision.coordination := r.supervision.coordination.shutdown }

/-- Output that failed closes the run at once; in any case the run is closing when it returns. -/
def settle (r : Run σ ρ κ) : Option (Run σ ρ κ × List Event) :=
  match r.stage with
  | .draining =>
    match r.drain.result? with
    | some (.ok n) => some ({ r with stage := .joining (.ok n) }, [])
    | some (.error e) => some ({ r.shutdown with stage := .joining (.error e) }, [.closing])
    | none => none
  | .joining drained =>
    if r.supervision.isFinished then
      let result := outcome drained r.supervision.coordination
      some ({ r.shutdown with stage := .returned result }, [.closing])
    else none
  | _ => none

/-- Whether workers and output are at work. -/
def isActive (r : Run σ ρ κ) : Bool :=
  match r.stage with
  | .draining | .joining _ => true
  | _ => false

/-- Messages leave the funnel only through the output. What comes from outside may come at any time
before the run returns. -/
def allows (r : Run σ ρ κ) : Supervision.Action σ → Bool
  | .take | .dropReceiver => false
  | .shutdown | .change _ | .advance _ =>
    match r.stage with
    | .returned _ => false
    | _ => true
  | _ => r.isActive

def step [Client σ ρ] [Sink κ] (r : Run σ ρ κ) : Action σ → Option (Run σ ρ κ × List Event)
  | .resolve i =>
    match r.stage with
    | .resolving waiting bounds =>
      waiting[i]?.map fun p => (r.resolve (waiting.eraseIdx i) bounds p, [])
    | _ => none
  | .supervise a =>
    if r.allows a then
      (r.supervision.step a).map fun (supervision, events) => ({ r with supervision }, events)
    else none
  | .drain =>
    if r.isActive then
      (r.drain.step r.supervision.coordination r.supervision.funnel).map fun o =>
        ({ r with
            drain := o.drain
            supervision.coordination := o.coordination
            supervision.funnel := o.funnel }, o.events)
    else none
  | .settle => r.settle

def result? (r : Run σ ρ κ) : Option (Except RunError Unit) :=
  match r.stage with
  | .returned result => some result
  | _ => none

end Run
end TopicReader
