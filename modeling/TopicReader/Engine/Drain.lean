import TopicReader.Engine.Event
import TopicReader.Engine.Funnel
import TopicReader.Engine.TailWindow
import TopicReader.Output.Sink
import TopicReader.Payload.Chain

/-! The output end of the funnel. Messages are either written as they come, or collected in a window
and written when the funnel closes. -/
namespace TopicReader

inductive Drain.Phase where
  /-- Writes each message as it comes; one may be in hand. -/
  | direct (inHand : Option Message) (emitted : Nat)
  | collecting (window : TailWindow)
  /-- Writes what the window kept. -/
  | emptying (rest : List Message) (emitted : Nat)
  | finished (result : Except RunError Nat)

structure Drain (κ : Type) where
  chain : Chain
  sink : κ
  phase : Drain.Phase

namespace Drain

variable {κ : Type}

/-- Without a tail the messages are written as they come. -/
def ofTail (chain : Chain) (sink : κ) : Option Nat → Drain κ
  | none => ⟨chain, sink, .direct none 0⟩
  | some capacity => ⟨chain, sink, .collecting { capacity }⟩

def result? (d : Drain κ) : Option (Except RunError Nat) :=
  match d.phase with
  | .finished result => some result
  | _ => none

/-- What a step of the output changes. -/
structure Outcome (κ : Type) where
  drain : Drain κ
  coordination : Coordination
  funnel : Funnel
  events : List Event

/-- The output ends, and takes nothing more from the funnel. -/
def finish (d : Drain κ) (c : Coordination) (f : Funnel) (result : Except RunError Nat)
    (events : List Event) : Outcome κ :=
  ⟨{ d with phase := .finished result }, c, f.dropReceiver, events⟩

/-- Hands a record to the sink. A sink that fails ends the output; otherwise it goes on in the phase
that comes after the record. -/
def emit [Sink κ] (d : Drain κ) (c : Coordination) (f : Funnel) (r : Record) (next : Phase) :
    Outcome κ :=
  match (Sink.emit r).run d.sink with
  | (.ok (), sink) => ⟨⟨d.chain, sink, next⟩, c, f, [.emitted r]⟩
  | (.error e, sink) => finish { d with sink } c f (.error (.output e)) [.refused e]

/-- A message that cannot be decoded ends the run, but only if no error came before. -/
def writeDirect [Sink κ] (d : Drain κ) (c : Coordination) (f : Funnel) (m : Message)
    (emitted : Nat) : Outcome κ :=
  match d.chain.record m with
  | .ok r => d.emit c f r (.direct none (emitted + 1))
  | .error e =>
    let error := RunError.decoding m.partition m.offset e
    let d := { d with phase := .direct none emitted }
    if c.isFree then ⟨d, (c.record error).shutdown, f, c.recordEvents error ++ [.closing]⟩
    else ⟨d, c.record error, f, c.recordEvents error⟩

/-- A message that cannot be decoded is reported and left out. -/
def writeKept [Sink κ] (d : Drain κ) (c : Coordination) (f : Funnel) (m : Message)
    (rest : List Message) (emitted : Nat) : Outcome κ :=
  match d.chain.record m with
  | .ok r => d.emit c f r (.emptying rest (emitted + 1))
  | .error e =>
    let error := RunError.decoding m.partition m.offset e
    ⟨{ d with phase := .emptying rest emitted }, c.record error, f,
      .warned (.undecodable m.partition m.offset e) :: c.recordEvents error⟩

/-- Collecting goes on while the run is closing, until the funnel has closed. -/
def step [Sink κ] (d : Drain κ) (c : Coordination) (f : Funnel) : Option (Outcome κ) :=
  match d.phase with
  | .direct (some m) emitted => some (d.writeDirect c f m emitted)
  | .direct none emitted =>
    if c.closing then some (d.finish c f (.ok emitted) [])
    else match f.take? with
      | some (m, f) => some ⟨{ d with phase := .direct (some m) emitted }, c, f, [.taken m]⟩
      | none => if f.isClosed then some (d.finish c f (.ok emitted) []) else none
  | .collecting window =>
    match f.take? with
    | some (m, f) => some ⟨{ d with phase := .collecting (window.insert m) }, c, f, [.taken m]⟩
    | none =>
      if f.isClosed then some ⟨{ d with phase := .emptying window.ascending 0 }, c, f, []⟩ else none
  | .emptying (m :: rest) emitted => some (d.writeKept c f m rest emitted)
  | .emptying [] emitted => some (d.finish c f (.ok emitted) [])
  | .finished _ => none

end Drain
end TopicReader
