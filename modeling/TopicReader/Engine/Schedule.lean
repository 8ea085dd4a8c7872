import TopicReader.Engine.Run

/-! One order of the steps of a machine, in simulated time: as long as a step can be taken it is,
and else the clock moves to the next point in time at which something is due. Every step is one that
the machine offers, so whatever holds of all orders holds of this one. -/
namespace TopicReader

/-- A machine with states `S` and actions `A`, and the actions that it prefers, best first. -/
structure Schedule (S A : Type) where
  step : S → A → Option (S × List Event)
  preferred : S → List A
  advance : Nat → A
  clock : S → Nat
  dues : S → List Nat
  isOver : S → Bool

namespace Schedule

variable {S A : Type}

/-- The first action that the machine can take. -/
def choose (m : Schedule S A) (s : S) : List A → Option (S × List Event)
  | [] => none
  | a :: rest => m.step s a <|> m.choose s rest

/-- Takes an action if it is possible; else nothing happens. -/
def attempt (m : Schedule S A) (s : S) (a : A) : S × List Event := (m.step s a).getD (s, [])

/-- Moves the clock on to `time`. -/
def wait (m : Schedule S A) (s : S) (time : Nat) : S :=
  if m.clock s < time then (m.attempt s (m.advance time)).1 else s

/-- Runs the machine until it is over, nothing is due, or the deadline has come. `outside` lists
what happens from outside, in order of time. Events are gathered in reverse. -/
def run (m : Schedule S A) (deadline : Nat) :
    Nat → List (Nat × A) → S → List Event → S × List Event
  | 0, _, s, log => (s, log.reverse)
  | fuel + 1, outside, s, log =>
    if m.isOver s then (s, log.reverse)
    else match m.choose s (m.preferred s) with
      | some (t, events) => m.run deadline fuel outside t (events.reverse ++ log)
      | none =>
        match outside, (m.dues s).min? with
        | (time, a) :: later, due =>
          if due.any (· < time) then
            let time := due.getD time
            if deadline < time then (s, log.reverse)
            else m.run deadline fuel outside (m.wait s time) log
          else if deadline < time then (s, log.reverse)
          else
            let (t, events) := m.attempt (m.wait s time) a
            m.run deadline fuel later t (events.reverse ++ log)
        | [], some due =>
          if deadline < due then (s, log.reverse)
          else m.run deadline fuel [] (m.wait s due) log
        | [], none => (s, log.reverse)

end Schedule

variable {σ ρ κ : Type} [Client σ ρ]

namespace Supervision

/-- The steps of the workers and of those who open, start and join them. -/
def inward (s : Supervision σ ρ) : List (Action σ) :=
  .openReader 0 :: .start ::
    (List.range s.workers.length).map .work ++ (List.range s.workers.length).map .join

/-- A supervision whose funnel is emptied by somebody who stops listening after some messages, if
there is a limit. -/
structure Heard (σ ρ : Type) where
  supervision : Supervision σ ρ
  left : Option Nat

def Heard.step (h : Heard σ ρ) (a : Action σ) : Option (Heard σ ρ × List Event) :=
  (h.supervision.step a).map fun (supervision, events) =>
    match a with
    | .take => (⟨supervision, h.left.map (· - 1)⟩, events)
    | _ => (⟨supervision, h.left⟩, events)

def Heard.schedule : Schedule (Heard σ ρ) (Action σ) where
  step := Heard.step
  preferred h := (if h.left = some 0 then .dropReceiver else .take) :: h.supervision.inward
  advance := .advance
  clock h := h.supervision.clock
  dues h := h.supervision.dues
  isOver h := h.supervision.isFinished && h.supervision.funnel.queue.isEmpty

end Supervision

/-- A number of steps that a machine does not reach if its readers have `volume` answers each. -/
def Schedule.enough (volume partitions outside : Nat) : Nat :=
  16 * (volume + 4) * (partitions + 4) + 16 * (outside + 4)

namespace Run

/-- The number of partitions that a run still has to do with. -/
def width (r : Run σ ρ κ) : Nat :=
  match r.stage with
  | .resolving waiting _ => waiting.length
  | _ => 0

variable [Sink κ]

def schedule : Schedule (Run σ ρ κ) (Action σ) where
  step := step
  preferred r := .drain :: .settle :: .resolve 0 :: r.supervision.inward.map .supervise
  advance clock := .supervise (.advance clock)
  clock r := r.supervision.clock
  dues r := r.supervision.dues
  isOver r := r.result?.isSome

/-- Runs a request against a client whose readers have at most `volume` answers each. -/
def simulate (r : Request) (chain : Chain) (client : σ) (sink : κ) (volume : Nat)
    (outside : List (Nat × Supervision.Action σ)) (deadline : Nat) : Run σ ρ κ × List Event :=
  let run := begin r chain client sink
  schedule.run deadline (Schedule.enough volume run.width outside.length)
    (outside.map fun (time, a) => (time, .supervise a)) run []

end Run

/-- Runs the workers of given bounds by themselves. -/
def Supervision.simulate (s : Supervision σ ρ) (limit : Option Nat) (volume partitions : Nat)
    (outside : List (Nat × Supervision.Action σ)) (deadline : Nat) : Supervision σ ρ × List Event :=
  let (h, events) := Supervision.Heard.schedule.run deadline
    (Schedule.enough volume partitions outside.length) outside ⟨s, limit⟩ []
  (h.supervision, events)

omit [Client σ ρ]

/-- Drains a funnel that nobody sends into any more, with at most `fuel` steps. -/
def Drain.runAll [Sink κ] : Nat → Drain.Outcome κ → Drain.Outcome κ
  | 0, o => o
  | fuel + 1, o =>
    match o.drain.step o.coordination o.funnel with
    | some next => runAll fuel { next with events := o.events ++ next.events }
    | none => o

/-- The output end alone: the messages are queued and the funnel is closed. -/
def Drain.simulate [Sink κ] (d : Drain κ) (c : Coordination) (messages : List Message) :
    Drain.Outcome κ :=
  let funnel : Funnel := { capacity := messages.length, queue := messages, senders := 0 }
  runAll (3 * messages.length + 4) ⟨d, c, funnel, []⟩

end TopicReader
