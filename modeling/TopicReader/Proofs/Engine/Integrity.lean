import TopicReader.Client.LogStore
import TopicReader.Proofs.Engine.DirectOutput
import TopicReader.Proofs.Engine.Replay

/-! Integrity of the stream of records: what a run without a tail writes comes, partition by
partition and in order, from what the readers delivered, and a run that ends well has left nothing
out. -/
namespace TopicReader

/-- Only the output and requests from outside close a run before it returns. -/
theorem Drain.Step.closing_cause {κ : Type} [Sink κ] {d : Drain κ} {c : Coordination} {f : Funnel}
    {o : Drain.Outcome κ} (step : Drain.Step d c f o) (closing : o.coordination.closing = true) :
    c.closing = true ∨ o.coordination.firstError ≠ none := by
  cases step with
  | undecodableFirst => exact .inr (by simp)
  | undecodableKept => exact .inl (by simpa using closing)
  | _ => exact .inl closing

theorem Drain.Step.firstError_eq {κ : Type} [Sink κ] {d : Drain κ} {c : Coordination} {f : Funnel}
    {o : Drain.Outcome κ} (step : Drain.Step d c f o) {e : RunError}
    (first : c.firstError = some e) : o.coordination.firstError = some e := by
  cases step with
  | undecodableFirst phase failed free =>
    rw [free] at first
    cases first
  | undecodableKept => simp [first]
  | _ => exact first

namespace Run

variable {σ ρ κ : Type} [Client σ ρ] [Sink κ] {request : Request} {chain : Chain} {client : σ}
  {sink : κ} {actions : List (Action σ)} {events : List Event} {r s t : Run σ ρ κ}

/-- Nobody outside asked the run to close. -/
def Undisturbed (actions : List (Action σ)) : Prop := ∀ a ∈ actions, a ≠ .supervise .shutdown

omit [Client σ ρ] in
theorem Undisturbed.of_append {more : List (Action σ)} (h : Undisturbed (actions ++ more)) :
    Undisturbed actions ∧ Undisturbed more :=
  ⟨fun a member => h a (List.mem_append_left _ member),
    fun a member => h a (List.mem_append_right _ member)⟩

/-- A run that is closing although nobody outside asked it to has failed. -/
def Excused (r : Run σ ρ κ) : Prop :=
  r.supervision.coordination.closing = true → r.supervision.coordination.firstError ≠ none ∨
    (∃ e, r.drain.phase = .finished (.error e)) ∨ ∃ result, r.stage = .returned result

omit [Client σ ρ] [Sink κ] in
theorem Excused.failed (h : r.Excused) (closing : r.supervision.coordination.closing = true)
    (going : ∀ result, r.stage ≠ .returned result) :
    r.supervision.coordination.firstError ≠ none ∨ ∃ e, r.drain.phase = .finished (.error e) := by
  rcases h closing with failed | failed | ⟨result, returned⟩
  · exact .inl failed
  · exact .inr failed
  · exact absurd returned (going result)

theorem Excused.step {a : Action σ} {fs : List Event} (h : r.Excused) (step : Step r a fs t)
    (undisturbed : a ≠ .supervise .shutdown) : t.Excused := by
  intro closing
  cases step with
  | unresolved => exact .inr (.inr ⟨_, rfl⟩)
  | resolved stage => exact (h.failed closing (by simp [stage])).imp_right .inl
  | resolvedLast stage => exact (h.failed closing (by simp [stage])).imp_right .inl
  | supervised allowed step =>
    rename_i a supervision
    have inner : a ≠ .shutdown := by
      rintro rfl
      exact undisturbed rfl
    rcases h ((step.closing_eq inner).symm.trans closing) with failed | other
    · obtain ⟨e, first⟩ := Option.ne_none_iff_exists'.mp failed
      exact .inl (by simp [step.firstError_eq first])
    · exact .inr other
  | drained active step =>
    have going := (Step.drained active step).not_returned
    rcases step.closing_cause closing with before | failed
    · rcases h.failed before going with failed | ⟨e, phase⟩
      · obtain ⟨e, first⟩ := Option.ne_none_iff_exists'.mp failed
        exact .inl (by simp [step.firstError_eq first])
      · exact absurd phase (step.unfinished _)
    · exact .inl failed
  | outputEnded stage result => exact (h.failed closing (by simp [stage])).imp_right .inl
  | outputFailed stage result => exact .inr (.inl ⟨_, Drain.phase_of_result? result⟩)
  | returned => exact .inr (.inr ⟨_, rfl⟩)

theorem excused_of_reaches (run : Reaches Moves (begin request chain client sink) actions events r)
    (undisturbed : Undisturbed actions) : r.Excused := by
  induction run with
  | refl =>
    obtain ⟨client', stage, opening, same⟩ := begin_cases (ρ := ρ) request chain client sink
    intro closing
    rw [same] at closing
    cases closing
  | next before move ih =>
    obtain ⟨earlier, last⟩ := undisturbed.of_append
    exact (ih earlier).step (step_cases move) (last _ (List.mem_singleton.mpr rfl))

omit [Client σ ρ] [Sink κ] in
theorem stage_of_result? {result : Except RunError Unit} (h : r.result? = some result) :
    r.stage = .returned result := by
  unfold result? at h
  split at h
  · rename_i stage
    cases h
    exact stage
  · contradiction

/-- A run ends well only from a state in which the output has ended well, no error was recorded and
all workers are done. -/
theorem Step.ended_well {a : Action σ} {fs : List Event} (step : Step r a fs t)
    (well : t.stage = .returned (.ok ())) :
    fs = [.closing] ∧ r.supervision.isFinished = true ∧
      r.supervision.coordination.firstError = none ∧ ∃ n, r.stage = .joining (.ok n) := by
  cases step with
  | supervised allowed step => exact absurd well ((Step.supervised allowed step).not_returned _)
  | drained active step => exact absurd well ((Step.drained active step).not_returned _)
  | @returned drained stage finished =>
    refine ⟨rfl, finished, ?_⟩
    have well := Stage.returned.inj well
    cases drained with
    | error e => cases well
    | ok n =>
      cases first : r.supervision.coordination.firstError with
      | none => exact ⟨rfl, n, stage⟩
      | some e => simp [outcome, first] at well
  | _ => cases well

omit [Client σ ρ] [Sink κ] in
/-- A worker that is done and was not cut off has sent all that its reader delivered. -/
theorem Accounts.sent_all (h : r.Accounts events) (finished : r.supervision.isFinished = true)
    (none_cut : ∀ w ∈ r.supervision.workers, ¬ w.CutOff) (p : Int) :
    ofPartition p (forwarded events) = ofPartition p (received events) := by
  by_cases known : p ∈ r.supervision.workers.map (·.bound.partition)
  · obtain ⟨w, member, rfl⟩ := List.mem_map.mp known
    have balanced := h.ledger.balanced w member
    have settled := (Supervision.isFinished_iff.mp finished).2 w member
    cases phase : w.phase with
    | receiving => simp [Worker.isSettled, phase] at settled
    | sending => simp [Worker.isSettled, phase] at settled
    | crashed =>
      rw [phase] at balanced
      exact balanced
    | stopped reason =>
      rw [phase] at balanced
      cases reason with
      | shutdown => exact absurd (.inl phase) (none_cut w member)
      | funnelClosed => exact absurd (.inr phase) (none_cut w member)
      | _ => exact balanced
  · obtain ⟨none_sent, none_received⟩ := h.ledger.silent p known
    rw [none_sent, none_received]

omit [Client σ ρ] [Sink κ] in
/-- Where the output has ended well and no error was recorded, nothing is pending. -/
theorem nothing_pending (flow : r.Flows chain events) (accounts : r.Accounts events)
    (excused : r.Excused) (finished : r.supervision.isFinished = true)
    (free : r.supervision.coordination.firstError = none) {n : Nat}
    (stage : r.stage = .joining (.ok n)) :
    emitted events = records chain (forwarded events) ∧
    (∀ x ∈ forwarded events, ∃ record, chain.record x.2 = .ok record) ∧
      ∀ p, ofPartition p (forwarded events) = ofPartition p (received events) := by
  obtain ⟨_, dealt, pending, flow⟩ := flow
  have phase := accounts.joining _ stage
  have going : r.supervision.coordination.closing ≠ true := by
    intro closing
    rcases excused.failed closing (by simp [stage]) with failed | ⟨e, failed⟩
    · exact failed free
    · rw [phase] at failed
      cases failed
  have place := flow.place
  rw [phase] at place
  have entered := flow.entered
  rw [place.resolve_left going, List.append_nil] at entered
  refine ⟨entered ▸ flow.written, entered ▸ flow.decoded free, accounts.sent_all finished ?_⟩
  intro w member cut
  rcases accounts.cutOff w member cut with closing | ⟨e, failed⟩
  · exact going closing
  · rw [phase] at failed
    cases failed

omit [Client σ ρ] [Sink κ] in
/-- The messages that were dealt with explain what was written, in every state. -/
theorem written_so_far (flow : r.Flows chain events) (accounts : r.Accounts events) :
    ∃ written, written <+: forwarded events ∧ emitted events = records chain written ∧
      ∀ p, ofPartition p written <+: ofPartition p (received events) := by
  obtain ⟨_, dealt, pending, flow⟩ := flow
  have front : dealt <+: forwarded events := ⟨pending, flow.entered.symm⟩
  exact ⟨dealt, front, flow.written,
    fun p => (ofPartition_mono front).trans (accounts.ledger.forwarded_front p)⟩

/-- A run that ends well, and that nobody outside asked to close, has written all that was
delivered. -/
theorem nothing_left_out (direct : request.tail = none)
    (run : Reaches Moves (begin request chain client sink) actions events s)
    (well : s.stage = .returned (.ok ())) (undisturbed : Undisturbed actions) :
    emitted events = records chain (forwarded events) ∧
    (∀ x ∈ forwarded events, ∃ record, chain.record x.2 = .ok record) ∧
      ∀ p, ofPartition p (forwarded events) = ofPartition p (received events) := by
  cases run with
  | refl => exact ⟨rfl, by simp, fun _ => rfl⟩
  | next before move =>
    obtain ⟨rfl, finished, free, n, stage⟩ := (step_cases move).ended_well well
    have excused := excused_of_reaches before undisturbed.of_append.1
    simpa using nothing_pending (flows_of_reaches direct before) (accounts_of_reaches before)
      excused finished free stage

/-- The records written come from messages that entered the funnel, in order, and for each partition
from the first messages delivered. A run that ends well undisturbed has written all of them. -/
theorem direct_stream_integrity (direct : request.tail = none)
    (run : Reaches Moves (begin request chain client sink) actions events s) :
    ∃ written, written <+: forwarded events ∧ emitted events = records chain written ∧
      (∀ p, ofPartition p written <+: ofPartition p (received events)) ∧
      ((∀ x ∈ received events, x.2.partition = x.1) → ∀ p,
        (emitted events).filter (·.partition = p) =
          (ofPartition p written).filterMap chain.record?) ∧
      (s.result? = some (.ok ()) → Undisturbed actions →
        written.map (fun x => chain.record x.2) = (emitted events).map .ok ∧
          ∀ p, ofPartition p written = ofPartition p (received events)) := by
  have explained : ∃ written, written <+: forwarded events ∧
      emitted events = records chain written ∧
      (∀ p, ofPartition p written <+: ofPartition p (received events)) ∧
      (s.result? = some (.ok ()) → Undisturbed actions →
        written.map (fun x => chain.record x.2) = (emitted events).map .ok ∧
          ∀ p, ofPartition p written = ofPartition p (received events)) := by
    by_cases well : s.result? = some (.ok ()) ∧ Undisturbed actions
    · obtain ⟨result, undisturbed⟩ := well
      obtain ⟨records_eq, decoded, complete⟩ :=
        nothing_left_out direct run (stage_of_result? result) undisturbed
      refine ⟨forwarded events, List.prefix_rfl, records_eq, ?_, ?_⟩
      · intro p
        exact complete p ▸ List.prefix_rfl
      · intro _ _
        exact ⟨records_eq ▸ map_ok_records decoded, complete⟩
    · obtain ⟨written, front, records_eq, beginning⟩ :=
        written_so_far (flows_of_reaches direct run) (accounts_of_reaches run)
      exact ⟨written, front, records_eq, beginning, fun result calm => absurd ⟨result, calm⟩ well⟩
  obtain ⟨written, front, records_eq, beginning, complete⟩ := explained
  refine ⟨written, front, records_eq, beginning, ?_, complete⟩
  intro own p
  rw [records_eq]
  refine records_of_partition (fun x member => own x ?_) p
  have sent : x.2 ∈ ofPartition x.1 written := mem_ofPartition.mpr member
  exact mem_ofPartition.mp ((beginning x.1).subset sent)

/-- A topic with one partition and two messages, with a gap between their offsets. -/
def gapped : LogStore :=
  { logs := [(("t", 0), .ofMessages [⟨0, 0, none, none, none, []⟩, ⟨0, 4, none, none, none, []⟩])] }

/-- Both messages are read, sent and written, the first before the second is asked for. -/
def gappedSteps : List (Action LogStore) :=
  [.resolve 0, .supervise (.openReader 0), .supervise .start, .supervise .start,
    .supervise (.work 0), .supervise (.work 0), .drain, .drain,
    .supervise (.work 0), .supervise (.work 0), .drain, .drain, .drain, .settle, .settle]

theorem gapped_stream_integrity :
    ∃ (s : Run LogStore LogReader Memory) (events : List Event),
      Reaches Moves (begin { topic := "t", fromBeginning := true, exit := true } .default gapped {})
        gappedSteps events s ∧
      s.result? = some (.ok ()) ∧ (emitted events).map (·.offset) = [0, 4] ∧
      ∃ written, written.map (fun x => Chain.default.record x.2) = (emitted events).map .ok ∧
        ∀ p, ofPartition p written = ofPartition p (received events) := by
  have replayed : ((begin (ρ := LogReader) { topic := "t", fromBeginning := true, exit := true }
      .default gapped ({} : Memory)).replay gappedSteps).any (fun (s, events) =>
        s.result? = some (.ok ()) && (emitted events).map (·.offset) = [0, 4]) = true := by
    decide +kernel
  obtain ⟨s, events, run, seen⟩ := exists_of_replay replayed
  simp only [Bool.and_eq_true, decide_eq_true_eq] at seen
  have undisturbed : Undisturbed gappedSteps := by simp [Undisturbed, gappedSteps]
  obtain ⟨written, _, _, _, _, complete⟩ := direct_stream_integrity rfl run
  exact ⟨s, events, run, seen.1, seen.2, written, complete seen.1 undisturbed⟩

end Run
end TopicReader
