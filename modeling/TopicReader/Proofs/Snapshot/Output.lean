import TopicReader.Proofs.Engine.RunStep

/-! Output that nothing stops: each message can be decoded, and the sink takes each record. -/
namespace TopicReader

namespace Sink

variable {κ : Type} [Sink κ]

/-- What becomes of a sink that is given records one after the other, if it takes them all. -/
def after? (sink : κ) : List Record → Option κ
  | [] => some sink
  | r :: rest =>
    match (Sink.emit r).run sink with
    | (.ok (), sink) => after? sink rest
    | (.error _, _) => none

/-- Whether a sink takes whatever records come. -/
def Accepts (sink : κ) : Prop := ∀ records, (after? sink records).isSome = true

/-- Such a sink takes the next record, and is such a sink again. -/
theorem Accepts.emit {sink : κ} (h : Accepts sink) (r : Record) :
    ∃ next, (Sink.emit r).run sink = (.ok (), next) ∧ Accepts next := by
  cases given : (Sink.emit r).run sink with
  | mk answer next =>
    cases answer with
    | ok _ =>
      refine ⟨next, rfl, ?_⟩
      intro rest
      have all := h (r :: rest)
      simpa only [after?, given] using all
    | error e =>
      have one := h [r]
      simp [after?, given] at one

theorem memory_accepts (sink : Memory) : Accepts sink := by
  intro records
  induction records generalizing sink with
  | nil => rfl
  | cons r rest ih => exact ih _

end Sink

namespace Drain

variable {κ : Type} [Sink κ]

/-- Output that writes each message as it comes, and that has not failed. -/
structure Writes (d : Drain κ) : Prop where
  accepts : Sink.Accepts d.sink
  phase : (∃ hand n, d.phase = .direct hand n) ∨ ∃ n, d.phase = .finished (.ok n)

/-- How many steps the output may take without taking another message. -/
def left (d : Drain κ) : Nat :=
  match d.phase with
  | .direct (some _) _ => 2
  | .direct none _ => 1
  | _ => 0

variable {d : Drain κ} {f : Funnel} {o : Outcome κ}

/-- If the output has ended, it has ended well. -/
theorem Writes.ended (h : d.Writes) {result : Except RunError Nat}
    (phase : d.phase = .finished result) : ∃ n, result = .ok n := by
  rcases h.phase with ⟨hand, n, writing⟩ | ⟨n, well⟩
  · rw [writing] at phase
    cases phase
  · rw [well] at phase
    cases phase
    exact ⟨n, rfl⟩

/-- A message is written or taken out of the funnel, or the output ends because nothing more can
come. -/
theorem Writes.step (h : d.Writes)
    (decodable : ∀ m n, d.phase = .direct (some m) n → ∃ r, d.chain.record m = .ok r)
    (step : Step d {} f o) :
    o.drain.Writes ∧ o.coordination = {} ∧ o.funnel.capacity = f.capacity ∧
      o.drain.left + 2 * o.funnel.queue.length < d.left + 2 * f.queue.length := by
  have direct {phase : Phase} (same : d.phase = phase) :
      (∃ hand n, phase = .direct hand n) ∨ ∃ n, phase = .finished (.ok n) := same ▸ h.phase
  cases step with
  | @wrote m n r sink phase decoded taken =>
    obtain ⟨next, given, accepts⟩ := h.accepts.emit r
    rw [taken] at given
    cases given
    exact ⟨⟨accepts, .inl ⟨_, _, rfl⟩⟩, rfl, rfl, by simp [left, phase]⟩
  | @refused m n r e sink phase decoded broken =>
    obtain ⟨next, given, _⟩ := h.accepts.emit r
    rw [broken] at given
    cases given
  | undecodableFirst phase failed =>
    obtain ⟨r, decoded⟩ := decodable _ _ phase
    rw [failed] at decoded
    cases decoded
  | undecodableLater phase failed =>
    obtain ⟨r, decoded⟩ := decodable _ _ phase
    rw [failed] at decoded
    cases decoded
  | halted phase closing => cases closing
  | took phase going queue =>
    refine ⟨⟨h.accepts, .inl ⟨_, _, rfl⟩⟩, rfl, rfl, ?_⟩
    simp only [left, phase, queue, List.length_cons]
    omega
  | ended phase going queue closed =>
    refine ⟨⟨h.accepts, .inr ⟨_, rfl⟩⟩, rfl, rfl, ?_⟩
    simp only [left, phase, queue, Funnel.dropReceiver]
    omega
  | kept phase => simpa using direct phase
  | collected phase => simpa using direct phase
  | wroteKept phase => simpa using direct phase
  | refusedKept phase => simpa using direct phase
  | undecodableKept phase => simpa using direct phase
  | emptied phase => simpa using direct phase

end Drain
end TopicReader
