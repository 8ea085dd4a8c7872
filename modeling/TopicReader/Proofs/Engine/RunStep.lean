import TopicReader.Engine.Run
import TopicReader.Proofs.Engine.History
import TopicReader.Proofs.Engine.Reaches
import TopicReader.Proofs.Engine.SupervisionStep

/-! The steps of the output and of a whole run, one case for each way in which they may go. -/
namespace TopicReader

namespace Drain

variable {κ : Type} [Sink κ]

inductive Step (d : Drain κ) (c : Coordination) (f : Funnel) : Outcome κ → Prop where
  | wrote {m n r sink} (phase : d.phase = .direct (some m) n) (decoded : d.chain.record m = .ok r)
      (taken : (Sink.emit r).run d.sink = (.ok (), sink)) :
      Step d c f ⟨⟨d.chain, sink, .direct none (n + 1)⟩, c, f, [.emitted r]⟩
  | refused {m n r e sink} (phase : d.phase = .direct (some m) n)
      (decoded : d.chain.record m = .ok r) (broken : (Sink.emit r).run d.sink = (.error e, sink)) :
      Step d c f ⟨⟨d.chain, sink, .finished (.error (.output e))⟩, c, f.dropReceiver, [.refused e]⟩
  | undecodableFirst {m n e} (phase : d.phase = .direct (some m) n)
      (failed : d.chain.record m = .error e) (free : c.firstError = none) :
      Step d c f ⟨{ d with phase := .direct none n },
        ⟨true, some (.decoding m.partition m.offset e)⟩, f,
        [.recorded (.decoding m.partition m.offset e) true, .closing]⟩
  | undecodableLater {m n e first} (phase : d.phase = .direct (some m) n)
      (failed : d.chain.record m = .error e) (taken : c.firstError = some first) :
      Step d c f ⟨{ d with phase := .direct none n }, c, f,
        [.recorded (.decoding m.partition m.offset e) false,
          .warned (.discarded (.decoding m.partition m.offset e))]⟩
  | halted {n} (phase : d.phase = .direct none n) (closing : c.closing = true) :
      Step d c f ⟨{ d with phase := .finished (.ok n) }, c, f.dropReceiver, []⟩
  | took {n m rest} (phase : d.phase = .direct none n) (going : c.closing = false)
      (queue : f.queue = m :: rest) :
      Step d c f ⟨{ d with phase := .direct (some m) n }, c, { f with queue := rest }, [.taken m]⟩
  | ended {n} (phase : d.phase = .direct none n) (going : c.closing = false)
      (queue : f.queue = []) (closed : f.senders = 0) :
      Step d c f ⟨{ d with phase := .finished (.ok n) }, c, f.dropReceiver, []⟩
  | kept {w m rest} (phase : d.phase = .collecting w) (queue : f.queue = m :: rest) :
      Step d c f ⟨{ d with phase := .collecting (w.insert m) }, c, { f with queue := rest },
        [.taken m]⟩
  | collected {w} (phase : d.phase = .collecting w) (queue : f.queue = []) (closed : f.senders = 0) :
      Step d c f ⟨{ d with phase := .emptying w.ascending 0 }, c, f, []⟩
  | wroteKept {m rest n r sink} (phase : d.phase = .emptying (m :: rest) n)
      (decoded : d.chain.record m = .ok r) (taken : (Sink.emit r).run d.sink = (.ok (), sink)) :
      Step d c f ⟨⟨d.chain, sink, .emptying rest (n + 1)⟩, c, f, [.emitted r]⟩
  | refusedKept {m rest n r e sink} (phase : d.phase = .emptying (m :: rest) n)
      (decoded : d.chain.record m = .ok r) (broken : (Sink.emit r).run d.sink = (.error e, sink)) :
      Step d c f ⟨⟨d.chain, sink, .finished (.error (.output e))⟩, c, f.dropReceiver, [.refused e]⟩
  | undecodableKept {m rest n e} (phase : d.phase = .emptying (m :: rest) n)
      (failed : d.chain.record m = .error e) :
      Step d c f ⟨{ d with phase := .emptying rest n },
        c.record (.decoding m.partition m.offset e), f,
        .warned (.undecodable m.partition m.offset e) ::
          c.recordEvents (.decoding m.partition m.offset e)⟩
  | emptied {n} (phase : d.phase = .emptying [] n) :
      Step d c f ⟨{ d with phase := .finished (.ok n) }, c, f.dropReceiver, []⟩

variable {d : Drain κ} {c : Coordination} {f : Funnel} {o : Outcome κ}

theorem take?_cons {m : Message} {g : Funnel} (h : f.take? = some (m, g)) :
    ∃ rest, f.queue = m :: rest ∧ g = { f with queue := rest } := by
  unfold Funnel.take? at h
  split at h
  · contradiction
  · rename_i rest queue
    cases h
    exact ⟨_, queue, rfl⟩

theorem queue_nil_of_take? (h : f.take? = none) : f.queue = [] := by
  unfold Funnel.take? at h
  split at h
  · assumption
  · contradiction

theorem closed_of_isClosed (h : f.isClosed = true) : f.senders = 0 := by
  simp only [Funnel.isClosed, Bool.and_eq_true, decide_eq_true_eq] at h
  exact h.2

theorem writeDirect_cases {m : Message} {n : Nat} (phase : d.phase = .direct (some m) n) :
    Step d c f (d.writeDirect c f m n) := by
  unfold writeDirect
  cases decoded : d.chain.record m with
  | ok r =>
    simp only [emit]
    cases given : (Sink.emit r).run d.sink with
    | mk answer sink =>
      cases answer with
      | ok _ => exact .wrote phase decoded given
      | error e => exact .refused phase decoded given
  | error e =>
    cases slot : c.firstError with
    | none =>
      have step := Step.undecodableFirst (d := d) (f := f) phase decoded slot
      simpa [Coordination.isFree, Coordination.record, Coordination.shutdown,
        Coordination.recordEvents, Coordination.recordWarnings, slot] using step
    | some first =>
      have step := Step.undecodableLater (f := f) phase decoded slot
      simpa [Coordination.isFree, Coordination.record, Coordination.recordEvents,
        Coordination.recordWarnings, slot] using step

theorem writeKept_cases {m : Message} {rest : List Message} {n : Nat}
    (phase : d.phase = .emptying (m :: rest) n) : Step d c f (d.writeKept c f m rest n) := by
  unfold writeKept
  cases decoded : d.chain.record m with
  | ok r =>
    simp only [emit]
    cases given : (Sink.emit r).run d.sink with
    | mk answer sink =>
      cases answer with
      | ok _ => exact .wroteKept phase decoded given
      | error e => exact .refusedKept phase decoded given
  | error e => exact .undecodableKept phase decoded

theorem step_cases (h : d.step c f = some o) : Step d c f o := by
  unfold step at h
  split at h
  · rename_i m n phase
    cases h
    exact writeDirect_cases phase
  · rename_i n phase
    split at h
    · rename_i closing
      cases h
      exact .halted phase closing
    · rename_i going
      have going : c.closing = false := by simpa using going
      split at h
      · rename_i m g took
        obtain ⟨rest, queue, rfl⟩ := take?_cons took
        cases h
        exact .took phase going queue
      · rename_i empty
        split at h
        · rename_i closed
          cases h
          exact .ended phase going (queue_nil_of_take? empty) (closed_of_isClosed closed)
        · contradiction
  · rename_i w phase
    split at h
    · rename_i m g took
      obtain ⟨rest, queue, rfl⟩ := take?_cons took
      cases h
      exact .kept phase queue
    · rename_i empty
      split at h
      · rename_i closed
        cases h
        exact .collected phase (queue_nil_of_take? empty) (closed_of_isClosed closed)
      · contradiction
  · rename_i m rest n phase
    cases h
    exact writeKept_cases phase
  · rename_i n phase
    cases h
    exact .emptied phase
  · contradiction

namespace Step

/-- Only workers deliver messages and send them on. -/
theorem received_eq (step : Step d c f o) : received o.events = [] := by
  cases step <;> simp

theorem forwarded_eq (step : Step d c f o) : forwarded o.events = [] := by
  cases step <;> simp

theorem senders_eq (step : Step d c f o) : o.funnel.senders = f.senders := by
  cases step <;> rfl

/-- A message is taken into an empty hand or into the window. -/
theorem taken_cases (step : Step d c f o) {m : Message} (took : .taken m ∈ o.events) :
    (∃ n, d.phase = .direct none n ∧ o.drain.phase = .direct (some m) n ∧ o.events = [.taken m]) ∨
      ∃ w, d.phase = .collecting w := by
  cases step with
  | took phase going queue =>
    obtain rfl := by simpa using took
    exact .inl ⟨_, phase, rfl, rfl⟩
  | kept phase queue => exact .inr ⟨_, phase⟩
  | undecodableKept => simp [Coordination.recordEvents] at took
  | _ => simp at took

end Step
end Drain

namespace Run

variable {σ ρ κ : Type} [Client σ ρ] [Sink κ]

inductive Step (r : Run σ ρ κ) : Action σ → List Event → Run σ ρ κ → Prop where
  | unresolved {i waiting bounds p e client} (stage : r.stage = .resolving waiting bounds)
      (next : waiting[i]? = some p)
      (answer : (r.request.resolve p : Query σ Bound).run r.supervision.client = (.error e, client)) :
      Step r (.resolve i) []
        { r with supervision.client := client, stage := .returned (.error e) }
  | resolved {i waiting bounds p b client} (stage : r.stage = .resolving waiting bounds)
      (next : waiting[i]? = some p) (more : waiting.eraseIdx i ≠ [])
      (answer : (r.request.resolve p : Query σ Bound).run r.supervision.client = (.ok b, client)) :
      Step r (.resolve i) []
        { r with
          supervision.client := client
          stage := .resolving (waiting.eraseIdx i) (bounds ++ [b]) }
  | resolvedLast {i waiting bounds p b client} (stage : r.stage = .resolving waiting bounds)
      (next : waiting[i]? = some p) (last : waiting.eraseIdx i = [])
      (answer : (r.request.resolve p : Query σ Bound).run r.supervision.client = (.ok b, client)) :
      Step r (.resolve i) []
        { r with
          supervision.client := client
          supervision.stage := .after ((boundsInOrder (bounds ++ [b])).filter fun b => !b.isEmpty) []
          stage := .draining }
  | supervised {a events supervision} (allowed : r.allows a = true)
      (step : Supervision.Step r.supervision a events supervision) :
      Step r (.supervise a) events { r with supervision }
  | drained {o} (active : r.isActive = true)
      (step : Drain.Step r.drain r.supervision.coordination r.supervision.funnel o) :
      Step r .drain o.events
        { r with
          drain := o.drain
          supervision.coordination := o.coordination
          supervision.funnel := o.funnel }
  | outputEnded {n} (stage : r.stage = .draining) (result : r.drain.result? = some (.ok n)) :
      Step r .settle [] { r with stage := .joining (.ok n) }
  | outputFailed {e} (stage : r.stage = .draining) (result : r.drain.result? = some (.error e)) :
      Step r .settle [.closing] { r.shutdown with stage := .joining (.error e) }
  | returned {drained} (stage : r.stage = .joining drained)
      (finished : r.supervision.isFinished = true) :
      Step r .settle [.closing]
        { r.shutdown with stage := .returned (outcome drained r.supervision.coordination) }

variable {r t : Run σ ρ κ} {events : List Event}

theorem resolve_cases {i : Nat} {waiting : List Int} {bounds : List Bound} {p : Int}
    (stage : r.stage = .resolving waiting bounds) (next : waiting[i]? = some p) :
    Step r (.resolve i) [] (r.resolve (waiting.eraseIdx i) bounds p) := by
  unfold resolve
  cases answer : (r.request.resolve p : Query σ Bound).run r.supervision.client with
  | mk found client =>
    cases found with
    | error e => exact .unresolved stage next answer
    | ok b =>
      cases rest : waiting.eraseIdx i with
      | nil => exact .resolvedLast stage next rest answer
      | cons q more =>
        have step := Step.resolved stage next (by simp [rest]) answer
        simpa only [rest] using step

/-- Every step is one of the cases. -/
theorem step_cases {a : Action σ} (h : Moves r a events t) : Step r a events t := by
  unfold Moves at h
  cases a with
  | resolve i =>
    simp only [step] at h
    split at h
    · rename_i waiting bounds stage
      obtain ⟨p, next, same⟩ := Option.map_eq_some_iff.mp h
      cases same
      exact resolve_cases stage next
    · contradiction
  | supervise a =>
    simp only [step] at h
    split at h
    · rename_i allowed
      obtain ⟨⟨supervision, seen⟩, step, same⟩ := Option.map_eq_some_iff.mp h
      cases same
      exact .supervised allowed (Supervision.step_cases step)
    · contradiction
  | drain =>
    simp only [step] at h
    split at h
    · rename_i active
      obtain ⟨o, step, same⟩ := Option.map_eq_some_iff.mp h
      cases same
      exact .drained active (Drain.step_cases step)
    · contradiction
  | settle =>
    simp only [step, settle] at h
    split at h
    · rename_i stage
      split at h
      · rename_i n result
        cases h
        exact .outputEnded stage result
      · rename_i e result
        cases h
        exact .outputFailed stage result
      · contradiction
    · rename_i drained stage
      split at h
      · rename_i finished
        cases h
        exact .returned stage finished
      · contradiction
    · contradiction

/-- A run that has returned takes no more steps. -/
theorem Step.not_returned {a : Action σ} (step : Step r a events t)
    (result : Except RunError Unit) : r.stage ≠ .returned result := by
  intro stage
  cases step with
  | @supervised a _ _ allowed step => cases a <;> simp [allows, isActive, stage] at allowed
  | drained active step => simp [isActive, stage] at active
  | unresolved other => simp [stage] at other
  | resolved other => simp [stage] at other
  | resolvedLast other => simp [stage] at other
  | outputEnded other => simp [stage] at other
  | outputFailed other => simp [stage] at other
  | returned other => simp [stage] at other

end Run
end TopicReader
