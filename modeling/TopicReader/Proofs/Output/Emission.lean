import TopicReader.Proofs.Outcome.Recordings

/-! What the output of a run does to its sink, whether it writes messages as they come or those that a
window kept: it hands over records one after the other, and stops at the first one that is not taken. -/
namespace TopicReader

/-- Records that were emitted until the first failure: how many were taken, the error that ended it, and
the sink that is left. -/
structure Emission (κ : Type) where
  taken : Nat
  error : Option OutputError
  sink : κ

namespace Sink

variable {κ : Type} [Sink κ] {sink before after : κ} {records : List Record} {r : Record}
  {e : OutputError}

/-- Emits records one after the other, until one is not taken. -/
def emitAll (sink : κ) : List Record → Emission κ
  | [] => ⟨0, none, sink⟩
  | r :: rest =>
    match (Sink.emit r).run sink with
    | (.ok (), next) =>
      let later := emitAll next rest
      { later with taken := later.taken + 1 }
    | (.error e, next) => ⟨0, some e, next⟩

theorem emitAll_cons_of_taken (given : (Sink.emit r).run sink = (.ok (), after)) :
    emitAll sink (r :: records) =
      ⟨(emitAll after records).taken + 1, (emitAll after records).error,
        (emitAll after records).sink⟩ := by
  rw [emitAll, given]

theorem emitAll_cons_of_refused (given : (Sink.emit r).run sink = (.error e, after)) :
    emitAll sink (r :: records) = ⟨0, some e, after⟩ := by
  rw [emitAll, given]

/-- Emitting one more record, after all were taken. -/
theorem emitAll_concat (all : emitAll sink records = ⟨records.length, none, before⟩) :
    emitAll sink (records ++ [r]) =
      ⟨records.length + (emitAll before [r]).taken, (emitAll before [r]).error,
        (emitAll before [r]).sink⟩ := by
  induction records generalizing sink with
  | nil =>
    cases all
    rw [List.nil_append, List.length_nil, Nat.zero_add]
  | cons x rest ih =>
    rw [List.cons_append]
    cases given : (Sink.emit x).run sink with
    | mk answer next =>
      cases answer with
      | ok _ =>
        rw [emitAll_cons_of_taken given] at all ⊢
        have shorter : emitAll next rest = ⟨rest.length, none, before⟩ := by
          cases split : emitAll next rest with
          | mk taken error left => simpa [split] using all
        rw [ih shorter, List.length_cons, Nat.add_right_comm]
      | error e =>
        rw [emitAll_cons_of_refused given] at all
        cases all

end Sink

namespace Drain

variable {κ : Type} [Sink κ] {sink : κ} {d : Drain κ} {c : Coordination} {f : Funnel}
  {written : List Record} {refused : List OutputError} {o : Outcome κ}

/-- What an output has done to the sink that it began with: all records were taken, or the last one was
refused, and the output has ended. -/
inductive Emits (start now : κ) (phase : Phase) (written : List Record) :
    List OutputError → Prop where
  | going (taken : Sink.emitAll start written = ⟨written.length, none, now⟩) :
      Emits start now phase written []
  | broken {r e result} (ended : phase = .finished result)
      (cut : Sink.emitAll start (written ++ [r]) = ⟨written.length, some e, now⟩) :
      Emits start now phase written [e]

theorem Step.emits (step : Step d c f o) (h : Emits sink d.sink d.phase written refused) :
    Emits sink o.drain.sink o.drain.phase (written ++ emitted o.events)
      (refused ++ refusals o.events) := by
  cases h with
  | broken ended => exact absurd ended (step.unfinished _)
  | going all =>
    have took {r next} (given : (Sink.emit r).run d.sink = (.ok (), next)) :
        Sink.emitAll sink (written ++ [r]) = ⟨(written ++ [r]).length, none, next⟩ := by
      rw [Sink.emitAll_concat all, Sink.emitAll_cons_of_taken given, List.length_append]
      rfl
    have cut {r e next phase} (ended : ∃ result, phase = Phase.finished result)
        (given : (Sink.emit r).run d.sink = (.error e, next)) :
        Emits sink next phase (written ++ emitted [.refused e]) [e] := by
      obtain ⟨result, ended⟩ := ended
      have silent : emitted [.refused e] = [] := rfl
      rw [silent, List.append_nil]
      have stopped : Sink.emitAll sink (written ++ [r]) = ⟨written.length, some e, next⟩ := by
        rw [Sink.emitAll_concat all, Sink.emitAll_cons_of_refused given]
        rfl
      exact .broken ended stopped
    have still (phase : Phase) : Emits sink d.sink phase written [] := .going all
    cases step with
    | wrote _ _ given => exact .going (took given)
    | wroteKept _ _ given => exact .going (took given)
    | refused _ _ given => exact cut ⟨_, rfl⟩ given
    | refusedKept _ _ given => exact cut ⟨_, rfl⟩ given
    | _ => simpa using still _

end Drain

namespace Run

variable {σ ρ κ : Type} [Client σ ρ] [Sink κ] {request : Request} {chain : Chain} {client : σ}
  {sink : κ} {actions : List (Action σ)} {events fs : List Event} {r s t : Run σ ρ κ} {a : Action σ}

theorem Step.emits (step : Step r a fs t)
    (h : Drain.Emits sink r.drain.sink r.drain.phase (emitted events) (refusals events)) :
    Drain.Emits sink t.drain.sink t.drain.phase (emitted (events ++ fs)) (refusals (events ++ fs)) := by
  rw [emitted_append, refusals_append]
  cases step with
  | drained _ step => exact step.emits h
  | supervised _ step =>
    rw [step.emitted_eq, step.refusals_eq, List.append_nil, List.append_nil]
    exact h
  | outputFailed | returned => simpa [shutdown] using h
  | _ => simpa using h

/-- At any time the output of a run has emitted records to its sink until the first failure: those that
were written, and the one that was refused, if there is one. -/
theorem emission_of_reaches (run : Reaches Moves (begin request chain client sink) actions events r) :
    ∃ failure : Option (Record × OutputError),
      refusals events = (failure.map (·.2)).toList ∧
      Sink.emitAll sink (emitted events ++ (failure.map (·.1)).toList) =
        ⟨(emitted events).length, failure.map (·.2), r.drain.sink⟩ := by
  have emits : Drain.Emits sink r.drain.sink r.drain.phase (emitted events) (refusals events) := by
    induction run with
    | refl =>
      obtain ⟨client', stage, _, same⟩ := begin_cases (ρ := ρ) request chain client sink
      have untouched : (Drain.ofTail chain sink request.tail).sink = sink := by
        cases request.tail <;> rfl
      rw [same, untouched]
      exact .going rfl
    | next before move ih => exact (step_cases move).emits ih
  generalize refusals events = refused at emits ⊢
  cases emits with
  | going taken => exact ⟨none, rfl, by simpa using taken⟩
  | @broken lost e _ _ cut => exact ⟨some (lost, e), rfl, cut⟩

end Run
end TopicReader
