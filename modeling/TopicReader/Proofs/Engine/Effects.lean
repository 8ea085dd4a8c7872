import TopicReader.Proofs.Engine.Ledger
import TopicReader.Proofs.Engine.RunStep

/-! What one step of a supervision changes of the things that it shares with the output: the funnel,
the flag that the run is closing, and the first error. -/
namespace TopicReader

/-- Whether a worker was stopped while it may have held a message. -/
def Worker.CutOff {ρ : Type} (w : Worker ρ) : Prop :=
  w.phase = .stopped .shutdown ∨ w.phase = .stopped .funnelClosed

namespace Supervision

variable {σ ρ : Type} [Client σ ρ] {s t : Supervision σ ρ} {a : Action σ} {fs : List Event}

namespace Step

/-- Workers write nothing. -/
theorem emitted_eq (step : Step s a fs t) : emitted fs = [] := by
  cases step <;> simp [recordEvents]

/-- Workers take nothing out of the funnel. -/
theorem taken_cause (step : Step s a fs t) {m : Message} (took : .taken m ∈ fs) : a = .take := by
  cases step with
  | taken => rfl
  | _ => simp [recordEvents, Coordination.recordEvents] at took

/-- Messages that are sent on go to the end of the queue, and only while somebody listens. -/
theorem queue_eq (step : Step s a fs t) (not_take : a ≠ .take) (not_drop : a ≠ .dropReceiver) :
    t.funnel.receiving = s.funnel.receiving ∧
    (forwarded fs = [] ∧ t.funnel.queue = s.funnel.queue ∨
      ∃ x, forwarded fs = [x] ∧ t.funnel.queue = s.funnel.queue ++ [x.2] ∧
        s.funnel.receiving = true) := by
  cases step with
  | sent worker going receiving room within => exact ⟨rfl, .inr ⟨_, rfl, rfl, receiving⟩⟩
  | boundaryReached worker going receiving room last => exact ⟨rfl, .inr ⟨_, rfl, rfl, receiving⟩⟩
  | taken => exact absurd rfl not_take
  | deafened => exact absurd rfl not_drop
  | openFailed | openCrashed | readerFailed | joined =>
    exact ⟨rfl, .inl ⟨by simp [recordEvents], rfl⟩⟩
  | _ => exact ⟨rfl, .inl ⟨rfl, rfl⟩⟩

/-- Only a request from outside makes a supervision close. -/
theorem closing_eq (step : Step s a fs t) (not_shutdown : a ≠ .shutdown) :
    t.coordination.closing = s.coordination.closing := by
  cases step with
  | shutDown => exact absurd rfl not_shutdown
  | openFailed | openCrashed | readerFailed | joined => exact Coordination.closing_record _ _
  | _ => rfl

theorem closing_mono (step : Step s a fs t) (closing : s.coordination.closing = true) :
    t.coordination.closing = true := by
  by_cases request : a = .shutdown
  · subst request
    cases step
    rfl
  · rw [step.closing_eq request, closing]

/-- The first error stays. -/
theorem firstError_eq (step : Step s a fs t) {e : RunError}
    (first : s.coordination.firstError = some e) : t.coordination.firstError = some e := by
  have kept (e' : RunError) : (s.coordination.record e').firstError = some e := by simp [first]
  cases step with
  | openFailed | openCrashed | readerFailed | joined => exact kept _
  | _ => exact first

end Step

omit [Client σ ρ] in
theorem no_live_of_senders (h : s.Counted) (none_left : s.funnel.senders = 0) {w : Worker ρ}
    (member : w ∈ s.workers) : w.isLive = false :=
  ((senders_eq_zero_iff h).mp none_left).2 w member

/-- A worker is cut off only when the run is closing, or when nobody listens while it can still
send. -/
theorem Step.cutOff_cause (step : Step s a fs t) (counted : s.Counted) {w : Worker ρ}
    (member : w ∈ t.workers) (cut : w.CutOff) :
    w ∈ s.workers ∨ s.coordination.closing = true ∨
      s.funnel.receiving = false ∧ s.funnel.senders ≠ 0 := by
  have replaced {i : Nat} {b : Bound} {phase : Worker.Phase ρ}
      (member : w ∈ s.workers.set i ⟨b, phase⟩)
      (harmless : ¬ Worker.CutOff ⟨b, phase⟩) : w ∈ s.workers := by
    rcases List.mem_or_eq_of_mem_set member with old | rfl
    · exact old
    · exact absurd cut harmless
  cases step with
  | started stage =>
    rcases List.mem_append.mp member with old | new
    · exact .inl old
    · obtain rfl := List.mem_singleton.mp new
      simp [Worker.CutOff] at cut
  | delivered => exact .inl (replaced member (by simp [Worker.CutOff]))
  | exhausted => exact .inl (replaced member (by simp [Worker.CutOff]))
  | readerFailed => exact .inl (replaced member (by simp [Worker.CutOff]))
  | workerCrashed => exact .inl (replaced member (by simp [Worker.CutOff]))
  | idled => exact .inl (replaced member (by simp [Worker.CutOff]))
  | sent => exact .inl (replaced member (by simp [Worker.CutOff]))
  | boundaryReached => exact .inl (replaced member (by simp [Worker.CutOff]))
  | joined => exact .inl (replaced member (by simp [Worker.CutOff]))
  | funnelClosed worker going deaf =>
    refine .inr (.inr ⟨deaf, ?_⟩)
    intro none_left
    have live := no_live_of_senders counted none_left (List.mem_of_getElem? worker)
    cases live
  | stopsReceiving worker closing => exact .inr (.inl closing)
  | stopsSending worker closing => exact .inr (.inl closing)
  | _ => exact .inl member

/-- Once all sending ends are gone they stay gone. -/
theorem Step.senders_zero (step : Step s a fs t) (counted : s.Counted)
    (none_left : s.funnel.senders = 0) : t.funnel.senders = 0 := by
  have dropped : s.funnel.dropSender.senders = 0 := by simp [Funnel.dropSender, none_left]
  cases step with
  | started stage =>
    unfold Counted at counted
    rw [none_left, stage] at counted
    simp [Stage.held] at counted
  | allStarted => exact dropped
  | exhausted => exact dropped
  | readerFailed => exact dropped
  | workerCrashed => exact dropped
  | idled => exact dropped
  | boundaryReached => exact dropped
  | funnelClosed => exact dropped
  | stopsReceiving => exact dropped
  | stopsSending => exact dropped
  | taken next =>
    obtain ⟨rest, queue, rfl⟩ := Drain.take?_cons next
    exact none_left
  | _ => exact none_left

end Supervision
end TopicReader
