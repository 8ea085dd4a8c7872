import TopicReader.Client.Basic
import TopicReader.Engine.Event
import TopicReader.Engine.Funnel
import TopicReader.Partition.Bound

/-! One worker for each partition that has something to read. First all readers are opened, then the
workers are started, and each reads its partition until it stops. A step is what one part does
between two points at which it may wait; which part takes the next step is left open. -/
namespace TopicReader

inductive Worker.Phase (ρ : Type) where
  /-- Waits for a message since a point in time. -/
  | receiving (reader : ρ) (since : Nat)
  /-- Holds a message that the funnel has not taken yet. -/
  | sending (reader : ρ) (m : Message)
  | stopped (reason : StopReason)
  | crashed (reported : Bool)

structure Worker (ρ : Type) where
  bound : Bound
  phase : Worker.Phase ρ

/-- Whether nothing more will come from a worker, a report of its crash included. -/
def Worker.isSettled {ρ : Type} (w : Worker ρ) : Bool :=
  match w.phase with
  | .stopped _ | .crashed true => true
  | _ => false

inductive Supervision.Stage (ρ : Type) where
  | opening (waiting : List Bound) (opened : List (Bound × ρ))
  | starting (opened : List (Bound × ρ))
  | running

/-- The time `idle` is how long a reader may stay silent. -/
structure Supervision (σ ρ : Type) where
  client : σ
  topic : String
  idle : Option Nat
  coordination : Coordination := {}
  funnel : Funnel := {}
  clock : Nat := 0
  stage : Supervision.Stage ρ := .starting []
  workers : List (Worker ρ) := []

/-- What may happen next. The last five come from outside. -/
inductive Supervision.Action (σ : Type) where
  /-- One of the partitions that wait to be opened. -/
  | openReader (i : Nat)
  /-- The next worker is started, or there is none left to start. -/
  | start
  | work (i : Nat)
  /-- The crash of a worker is noticed. -/
  | join (i : Nat)
  | take
  | dropReceiver
  | shutdown
  | change (f : σ → σ)
  | advance (clock : Nat)

namespace Supervision

variable {σ ρ : Type}

def openedInOrder (opened : List (Bound × ρ)) : List (Bound × ρ) :=
  opened.mergeSort fun a b => a.1.partition ≤ b.1.partition

/-- The stage in which the given partitions still wait. -/
def Stage.after (waiting : List Bound) (opened : List (Bound × ρ)) : Stage ρ :=
  match waiting with
  | [] => .starting (openedInOrder opened)
  | waiting => .opening waiting opened

def ofBounds (client : σ) (topic : String) (idle : Option Nat) (bounds : List Bound) :
    Supervision σ ρ :=
  { client, topic, idle, stage := .after (bounds.filter fun b => !b.isEmpty) [] }

def setWorker (s : Supervision σ ρ) (i : Nat) (bound : Bound) (phase : Worker.Phase ρ) :
    Supervision σ ρ :=
  { s with workers := s.workers.set i ⟨bound, phase⟩ }

def record (s : Supervision σ ρ) (e : RunError) : Supervision σ ρ :=
  { s with coordination := s.coordination.record e }

def recordEvents (s : Supervision σ ρ) (e : RunError) : List Event := s.coordination.recordEvents e

/-- The error that stands for a crash. Its text takes the place of the words in which the runtime
reports the crash of a task. -/
def crashError : RunError := .worker "task panicked"

variable [Client σ ρ]

def openReader (s : Supervision σ ρ) (waiting : List Bound) (opened : List (Bound × ρ))
    (b : Bound) : Supervision σ ρ × List Event :=
  let (opening, client) := Client.openReader s.topic b.partition b.start s.client
  let s := { s with client }
  let event := Event.opening b.partition b.start
  match opening with
  | .opened reader => ({ s with stage := .after waiting (opened ++ [(b, reader)]) }, [event])
  | .failed e =>
    ({ s.record e with stage := .after waiting opened },
      event :: .warned (.notStarted b.partition e) :: s.recordEvents e)
  | .crashed =>
    ({ s.record crashError with stage := .after waiting opened },
      event :: s.recordEvents crashError)

/-- The end of a worker, which closes its reader and lets go of the funnel. -/
def stop (s : Supervision σ ρ) (i : Nat) (bound : Bound) (reason : StopReason) :
    Supervision σ ρ × List Event :=
  ({ s.setWorker i bound (.stopped reason) with
      client := Client.closeReader bound.partition s.client
      funnel := s.funnel.dropSender },
    [.stopped bound.partition reason])

/-- The answer to a request that was made at `since`, if it is there by now. -/
def answer? (s : Supervision σ ρ) (reader : ρ) (since : Nat) : Option (Response ρ) :=
  (Client.respond s.client reader).filter fun r => since + r.delay ≤ s.clock

/-- A worker that waits for a message. Shutdown comes first, then an answer, and the idle window
last. -/
def receive (s : Supervision σ ρ) (i : Nat) (bound : Bound) (reader : ρ) (since : Nat) :
    Option (Supervision σ ρ × List Event) :=
  if s.coordination.closing then some (s.stop i bound .shutdown)
  else match s.answer? reader since with
    | some r => match r.delivery with
      | .message m =>
        some (s.setWorker i bound (.sending r.reader m), [.received bound.partition m])
      | .ended => some (s.stop i bound .exhausted)
      | .failed e =>
        let (t, events) := (s.record e).stop i bound .readerFailed
        some (t, s.recordEvents e ++ events)
      | .crashed =>
        some ({ s.setWorker i bound (.crashed false) with funnel := s.funnel.dropSender },
          [.crashed bound.partition])
    | none =>
      if s.idle.any (since + · ≤ s.clock) then
        let (t, events) := s.stop i bound .idle
        some (t, .warned (.quiet bound.partition) :: events)
      else none

/-- A worker that holds a message. Shutdown comes first; the boundary is looked at after sending. -/
def send (s : Supervision σ ρ) (i : Nat) (bound : Bound) (reader : ρ) (m : Message) :
    Option (Supervision σ ρ × List Event) :=
  if s.coordination.closing then some (s.stop i bound .shutdown)
  else if !s.funnel.receiving then some (s.stop i bound .funnelClosed)
  else if s.funnel.hasRoom then
    let s := { s with funnel := s.funnel.push m }
    let sent := Event.forwarded bound.partition m
    if bound.reachedBy m.offset then
      let (t, events) := s.stop i bound .boundaryReached
      some (t, sent :: events)
    else some (s.setWorker i bound (.receiving reader s.clock), [sent])
  else none

def work (s : Supervision σ ρ) (i : Nat) : Option (Supervision σ ρ × List Event) :=
  match s.workers[i]? with
  | some ⟨bound, .receiving reader since⟩ => s.receive i bound reader since
  | some ⟨bound, .sending reader m⟩ => s.send i bound reader m
  | _ => none

/-- When a worker that waits will have something to do if nothing else happens. -/
def Worker.due? (s : Supervision σ ρ) (w : Worker ρ) : Option Nat :=
  match w.phase with
  | .receiving reader since =>
    let answer := (Client.respond s.client reader).map fun r => since + r.delay
    let idle := s.idle.map (since + ·)
    match answer, idle with
    | some a, some b => some (min a b)
    | a, b => a <|> b
  | _ => none

/-- The points in time at which workers that wait must be served. -/
def dues (s : Supervision σ ρ) : List Nat := s.workers.filterMap (Worker.due? s)

/-- Timers are assumed to be prompt: time never passes the point at which a worker that waits has
something to do, so that the worker is served first. -/
def step (s : Supervision σ ρ) : Action σ → Option (Supervision σ ρ × List Event)
  | .openReader i =>
    match s.stage with
    | .opening waiting opened =>
      waiting[i]?.map fun b => s.openReader (waiting.eraseIdx i) opened b
    | _ => none
  | .start =>
    match s.stage with
    | .starting ((bound, reader) :: rest) =>
      some ({ s with
        workers := s.workers ++ [⟨bound, .receiving reader s.clock⟩]
        funnel := s.funnel.addSender
        stage := .starting rest }, [])
    | .starting [] => some ({ s with funnel := s.funnel.dropSender, stage := .running }, [])
    | _ => none
  | .work i => s.work i
  | .join i =>
    match s.workers[i]? with
    | some ⟨bound, .crashed false⟩ =>
      some ((s.record crashError).setWorker i bound (.crashed true), s.recordEvents crashError)
    | _ => none
  | .take => s.funnel.take?.map fun (m, funnel) => ({ s with funnel }, [.taken m])
  | .dropReceiver =>
    if s.funnel.receiving then some ({ s with funnel := s.funnel.dropReceiver }, []) else none
  | .shutdown => some ({ s with coordination := s.coordination.shutdown }, [.closing])
  | .change f => some ({ s with client := f s.client }, [])
  | .advance clock =>
    if s.clock < clock ∧ ∀ due ∈ s.dues, clock ≤ due then some ({ s with clock }, []) else none

omit [Client σ ρ]

/-- Whether all partitions are done and every crash has been noticed. -/
def isFinished (s : Supervision σ ρ) : Bool :=
  (match s.stage with
    | .running => true
    | _ => false) && s.workers.all Worker.isSettled

/-- Why each worker stopped, in order of partitions; a worker that crashed has no reason. -/
def stops (s : Supervision σ ρ) : List (Int × StopReason) :=
  (s.workers.filterMap fun w => match w.phase with
    | .stopped reason => some (w.bound.partition, reason)
    | _ => none).mergeSort fun a b => a.1 ≤ b.1

end Supervision
end TopicReader
