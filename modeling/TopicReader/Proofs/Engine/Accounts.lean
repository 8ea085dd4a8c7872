import TopicReader.Proofs.Engine.Beginning
import TopicReader.Proofs.Engine.Effects

/-! The accounts of a whole run. They hold in every mode, whatever the client does and in whatever
order workers, output and requests from outside take their steps. -/
namespace TopicReader

namespace Drain

/-- Whether the output still listens to the funnel. Output that ends well while somebody may still
send does so only because the run is closing. -/
def Phase.Listening (c : Coordination) (f : Funnel) : Phase → Prop
  | .direct _ _ | .collecting _ => f.receiving = true
  | .emptying _ _ => f.receiving = true ∧ f.senders = 0
  | .finished (.ok _) => f.receiving = false ∧ (c.closing = true ∨ f.senders = 0)
  | .finished (.error _) => f.receiving = false

variable {κ : Type} [Sink κ] {d : Drain κ} {c : Coordination} {f : Funnel} {o : Outcome κ}

theorem Step.listening (h : d.phase.Listening c f) (step : Step d c f o) :
    o.drain.phase.Listening o.coordination o.funnel := by
  cases step with
  | wrote phase =>
    rw [phase] at h
    exact h
  | undecodableFirst phase =>
    rw [phase] at h
    exact h
  | undecodableLater phase =>
    rw [phase] at h
    exact h
  | halted phase closing => exact ⟨rfl, .inl closing⟩
  | took phase =>
    rw [phase] at h
    exact h
  | ended phase going queue closed => exact ⟨rfl, .inr closed⟩
  | kept phase =>
    rw [phase] at h
    exact h
  | collected phase queue closed =>
    rw [phase] at h
    exact ⟨h, closed⟩
  | wroteKept phase =>
    rw [phase] at h
    exact h
  | undecodableKept phase =>
    rw [phase] at h
    exact h
  | emptied phase =>
    rw [phase] at h
    exact ⟨rfl, .inr h.2⟩
  | _ => rfl

omit [Sink κ] in
theorem phase_of_result? {result : Except RunError Nat} (h : d.result? = some result) :
    d.phase = .finished result := by
  unfold result? at h
  split at h
  · rename_i phase
    cases h
    exact phase
  · contradiction

/-- Output that has ended takes no more steps. -/
theorem Step.unfinished (step : Step d c f o) (result : Except RunError Nat) :
    d.phase ≠ .finished result := by
  intro phase
  cases step <;> simp_all

/-- Output that has not ended waits only for a message that may still come. -/
theorem waits_of_stuck (going : d.result? = none) (stuck : d.step c f = none) :
    f.queue = [] ∧ f.senders ≠ 0 := by
  have waits (empty : f.take? = none) (still : f.isClosed = false) :
      f.queue = [] ∧ f.senders ≠ 0 := by
    have queue := queue_nil_of_take? empty
    exact ⟨queue, by simpa [Funnel.isClosed, queue] using still⟩
  unfold step at stuck
  split at stuck
  · cases stuck
  · split at stuck
    · cases stuck
    · split at stuck
      · cases stuck
      · rename_i empty
        exact waits empty (by simpa using stuck)
  · split at stuck
    · cases stuck
    · rename_i empty
      exact waits empty (by simpa using stuck)
  · cases stuck
  · cases stuck
  · rename_i result phase
    simp [result?, phase] at going

theorem Step.closing_mono (step : Step d c f o) (closing : c.closing = true) :
    o.coordination.closing = true := by
  cases step with
  | undecodableKept => simpa using closing
  | undecodableFirst => rfl
  | _ => exact closing

end Drain

theorem Supervision.Step.listening {σ ρ : Type} [Client σ ρ] {s t : Supervision σ ρ}
    {a : Supervision.Action σ} {fs : List Event} {phase : Drain.Phase}
    (h : phase.Listening s.coordination s.funnel) (step : Supervision.Step s a fs t)
    (counted : s.Counted) (not_take : a ≠ .take) (not_drop : a ≠ .dropReceiver) :
    phase.Listening t.coordination t.funnel := by
  have receiving := (step.queue_eq not_take not_drop).1
  cases phase with
  | direct hand n => exact receiving.trans h
  | collecting w => exact receiving.trans h
  | emptying rest n => exact ⟨receiving.trans h.1, step.senders_zero counted h.2⟩
  | finished result =>
    cases result with
    | ok n =>
      exact ⟨receiving.trans h.1, h.2.imp step.closing_mono (step.senders_zero counted)⟩
    | error e => exact receiving.trans h

namespace Run

variable {σ ρ κ : Type} [Client σ ρ] [Sink κ] {request : Request} {chain : Chain} {client : σ}
  {sink : κ} {actions : List (Action σ)} {events : List Event} {r s t : Run σ ρ κ}

/-- The accounts of a run. While bounds are being found nobody is at work yet, and a worker is cut
off only by a run that is closing or whose output failed. -/
structure Accounts (r : Run σ ρ κ) (events : List Event) : Prop where
  ledger : r.supervision.Ledger events
  counted : r.supervision.Counted
  listening : r.drain.phase.Listening r.supervision.coordination r.supervision.funnel
  resolving : ∀ waiting bounds, r.stage = .resolving waiting bounds →
    r.supervision.workers = [] ∧ r.supervision.stage = .starting [] ∧
      (waiting ++ bounds.map (·.partition)).Nodup
  joining : ∀ drained, r.stage = .joining drained → r.drain.phase = .finished drained
  cutOff : ∀ w ∈ r.supervision.workers, w.CutOff →
    r.supervision.coordination.closing = true ∨ ∃ e, r.drain.phase = .finished (.error e)

omit [Client σ ρ] [Sink κ] in
theorem Opening.accounts {topic : String} {idle : Option Nat} {stage : Stage}
    (opening : Opening stage) :
    Accounts (ρ := ρ)
      ⟨request, .ofBounds client topic idle [], .ofTail chain sink request.tail, stage⟩ [] := by
  have start : (Supervision.ofBounds (ρ := ρ) client topic idle []).stage = .starting [] := by
    simp [Supervision.ofBounds, Supervision.Stage.after, Supervision.openedInOrder]
  refine ⟨⟨?_, by simp [Supervision.ofBounds], by simp⟩, ?_, ?_, ?_, ?_, ?_⟩
  · unfold Supervision.partitions
    rw [start]
    exact List.nodup_nil
  · unfold Supervision.Counted
    rw [start]
    rfl
  · cases request.tail <;> rfl
  · intro waiting bounds same
    refine ⟨rfl, start, ?_⟩
    cases opening with
    | waiting some distinct =>
      cases same
      simpa using distinct
    | _ => cases same
  · intro drained same
    cases opening <;> cases same
  · intro w member
    cases member

theorem partitions_boundsInOrder (bounds : List Bound) :
    ((boundsInOrder bounds).map (·.partition)).Perm (bounds.map (·.partition)) :=
  (List.mergeSort_perm _ _).map _

namespace Accounts

omit [Client σ ρ] [Sink κ] in
/-- The bounds that were found are of distinct partitions, and so are those that have something to
read. -/
theorem found_nodup (h : r.Accounts events) {i : Nat} {waiting : List Int} {bounds : List Bound}
    {p : Int} {b : Bound} (stage : r.stage = .resolving waiting bounds)
    (next : waiting[i]? = some p) (same : b.partition = p) :
    (((boundsInOrder (bounds ++ [b])).filter fun b => !b.isEmpty).map (·.partition)).Nodup := by
  obtain ⟨_, _, distinct⟩ := h.resolving waiting bounds stage
  obtain ⟨bound, rfl⟩ := List.getElem?_eq_some_iff.mp next
  have found : ((bounds ++ [b]).map (·.partition)).Nodup := by
    have swapped : (bounds.map (·.partition) ++ [waiting[i]]).Perm
        ([waiting[i]] ++ bounds.map (·.partition)) := List.perm_append_comm
    rw [List.map_append, List.map_singleton, same]
    exact swapped.nodup_iff.mpr (distinct.sublist
      ((List.singleton_sublist.mpr (List.getElem_mem bound)).append_right _))
  exact ((partitions_boundsInOrder _).nodup_iff.mpr found).sublist (List.filter_sublist.map _)

omit [Client σ ρ] [Sink κ] in
/-- The workers are about to begin, one for each partition that has something to read. -/
theorem resolvedLast (h : r.Accounts events) {i : Nat} {waiting : List Int} {bounds : List Bound}
    {p : Int} {b : Bound} {client : σ} (stage : r.stage = .resolving waiting bounds)
    (next : waiting[i]? = some p) (same : b.partition = p) :
    Accounts { r with
      supervision.client := client
      supervision.stage := .after ((boundsInOrder (bounds ++ [b])).filter fun b => !b.isEmpty) []
      stage := .draining } events := by
  obtain ⟨idle, start, _⟩ := h.resolving waiting bounds stage
  have nodup := h.found_nodup stage next same
  generalize (boundsInOrder (bounds ++ [b])).filter (fun b => !b.isEmpty) = ready at nodup ⊢
  refine ⟨⟨?_, ?_, ?_⟩, ?_, h.listening, ?_, ?_, ?_⟩
  · have perm := Supervision.bounds_after (ρ := ρ) ready []
    simp only [Supervision.partitions, idle, List.map_nil, List.append_nil] at perm ⊢
    exact (perm.map _).nodup_iff.mpr nodup
  · simp [idle]
  · intro q _
    exact h.ledger.silent q (by simp [idle])
  · have before := h.counted
    simp only [Supervision.Counted, idle, start, Supervision.held_after] at before ⊢
    exact before
  · intro _ _ impossible
    cases impossible
  · intro _ impossible
    cases impossible
  · intro w member
    simp [idle] at member

omit [Sink κ] in
theorem supervised {a : Supervision.Action σ} {fs : List Event} {supervision : Supervision σ ρ}
    (h : r.Accounts events) (allowed : r.allows a = true)
    (step : Supervision.Step r.supervision a fs supervision) :
    Accounts { r with supervision } (events ++ fs) := by
  have not_take : a ≠ .take := by
    rintro rfl
    cases allowed
  have not_drop : a ≠ .dropReceiver := by
    rintro rfl
    cases allowed
  refine ⟨h.ledger.step step, Supervision.counted_step h.counted step,
    step.listening h.listening h.counted not_take not_drop, ?_, h.joining, ?_⟩
  · intro waiting bounds stage
    have before := h.resolving waiting bounds stage
    have stage : r.stage = .resolving waiting bounds := stage
    cases step <;> simp_all [allows, isActive]
  · intro w member cut
    rcases step.cutOff_cause h.counted member cut with old | closing | ⟨deaf, open_⟩
    · exact (h.cutOff w old cut).imp_left step.closing_mono
    · exact .inl (step.closing_mono closing)
    · have listening := h.listening
      cases phase : r.drain.phase with
      | direct | collecting =>
        rw [phase] at listening
        exact absurd (listening.symm.trans deaf) (by simp)
      | emptying =>
        rw [phase] at listening
        exact absurd listening.2 open_
      | finished result =>
        cases result with
        | ok n =>
          rw [phase] at listening
          exact .inl (step.closing_mono (listening.2.resolve_right open_))
        | error e => exact .inr ⟨e, rfl⟩

omit [Client σ ρ] in
theorem drained {o : Drain.Outcome κ} (h : r.Accounts events) (active : r.isActive = true)
    (step : Drain.Step r.drain r.supervision.coordination r.supervision.funnel o) :
    Accounts { r with
      drain := o.drain
      supervision.coordination := o.coordination
      supervision.funnel := o.funnel } (events ++ o.events) := by
  refine ⟨h.ledger.frame rfl (List.Subperm.refl _) step.forwarded_eq step.received_eq,
    Supervision.counted_frame h.counted rfl rfl step.senders_eq, step.listening h.listening,
    ?_, ?_, ?_⟩
  · intro waiting bounds stage
    have stage : r.stage = .resolving waiting bounds := stage
    simp [isActive, stage] at active
  · intro drained stage
    exact absurd (h.joining drained stage) (step.unfinished drained)
  · intro w member cut
    rcases h.cutOff w member cut with closing | ⟨e, phase⟩
    · exact .inl (step.closing_mono closing)
    · exact absurd phase (step.unfinished _)

omit [Client σ ρ] [Sink κ] in
/-- A run that is waiting for its workers, or at its end, may close. -/
theorem shut {stage : Stage} (h : r.Accounts events)
    (known : ∀ waiting bounds, stage ≠ .resolving waiting bounds)
    (joining : ∀ drained, stage = .joining drained → r.drain.phase = .finished drained) :
    Accounts { r.shutdown with stage } (events ++ [.closing]) := by
  refine ⟨h.ledger.frame rfl (List.Subperm.refl _) rfl rfl, h.counted, ?_, ?_, joining, ?_⟩
  · have listening := h.listening
    show r.drain.phase.Listening _ _
    cases phase : r.drain.phase with
    | finished result =>
      rw [phase] at listening
      cases result with
      | ok n => exact ⟨listening.1, .inl rfl⟩
      | error e => exact listening
    | _ =>
      rw [phase] at listening
      exact listening
  · intro waiting bounds same
    exact absurd same (known waiting bounds)
  · intro _ _ _
    exact .inl rfl

theorem step {a : Action σ} {fs : List Event} (h : r.Accounts events) (step : Step r a fs t) :
    t.Accounts (events ++ fs) := by
  cases step with
  | unresolved stage next answer =>
    refine ⟨h.ledger.frame rfl (List.Subperm.refl _) rfl rfl, h.counted, h.listening, ?_, ?_,
      h.cutOff⟩
    all_goals
      intros
      contradiction
  | resolved stage next more answer =>
    obtain ⟨idle, start, distinct⟩ := h.resolving _ _ stage
    refine ⟨h.ledger.frame rfl (List.Subperm.refl _) rfl rfl, h.counted, h.listening, ?_, ?_,
      h.cutOff⟩
    · intro _ _ same
      cases same
      refine ⟨idle, start, ?_⟩
      rw [List.map_append, List.map_singleton, Request.resolve_partition answer]
      exact (Supervision.perm_of_eraseIdx next _).nodup_iff.mpr distinct
    · intros
      contradiction
  | resolvedLast stage next last answer =>
    rw [List.append_nil]
    exact h.resolvedLast stage next (Request.resolve_partition answer)
  | supervised allowed step => exact h.supervised allowed step
  | drained active step => exact h.drained active step
  | outputEnded stage result =>
    refine ⟨h.ledger.frame rfl (List.Subperm.refl _) rfl rfl, h.counted, h.listening, ?_, ?_,
      h.cutOff⟩
    · intros
      contradiction
    · intro drained same
      cases same
      exact Drain.phase_of_result? result
  | outputFailed stage result =>
    apply h.shut (by simp)
    intro drained same
    cases same
    exact Drain.phase_of_result? result
  | returned stage finished => exact h.shut (by simp) (by simp)

end Accounts

/-- Every run keeps its accounts. -/
theorem accounts_of_reaches
    (run : Reaches Moves (begin request chain client sink) actions events r) : r.Accounts events := by
  obtain ⟨client', stage, opening, same⟩ := begin_cases (ρ := ρ) request chain client sink
  refine run.invariant (P := fun _ events r => Accounts r events) ?_ ?_
  · rw [same]
    exact opening.accounts
  · intro _ _ _ _ _ _ before move
    exact before.step (step_cases move)

end Run
end TopicReader
