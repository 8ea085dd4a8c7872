import TopicReader.Client.Script
import TopicReader.Proofs.Engine.DirectOutput
import TopicReader.Proofs.Engine.Replay

/-! What a message that cannot be decoded does to a run without a tail. Its error ends the output if
no error came before it; an error that came before it lets the output go on. -/
namespace TopicReader.Run

variable {σ ρ κ : Type} [Client σ ρ] [Sink κ] {request : Request} {chain : Chain} {client : σ}
  {sink : κ} {actions : List (Action σ)} {events es fs : List Event} {r s t : Run σ ρ κ}
  {a : Action σ} {m : Message} {n : Nat} {e : DecodeError}

/-- Whatever happens from now on, the run is closing and writes nothing. -/
def Silenced (r : Run σ ρ κ) : Prop :=
  ∀ actions events s, Reaches Moves r actions events s →
    s.supervision.coordination.closing = true ∧ emitted events = []

/-- Output without a message in hand takes none from a run that is closing. -/
def Quiet (r : Run σ ρ κ) : Prop :=
  r.supervision.coordination.closing = true ∧
    ((∃ n, r.drain.phase = .direct none n) ∨ ∃ result, r.drain.phase = .finished result)

omit [Client σ ρ] in
theorem Quiet.drained {o : Drain.Outcome κ} (h : r.Quiet)
    (step : Drain.Step r.drain r.supervision.coordination r.supervision.funnel o) :
    o.coordination.closing = true ∧ (∃ result, o.drain.phase = .finished result) ∧
      emitted o.events = [] := by
  obtain ⟨closing, ⟨n, phase⟩ | ⟨result, phase⟩⟩ := h
  · cases step with
    | halted => exact ⟨closing, ⟨_, rfl⟩, rfl⟩
    | took _ going => simp [closing] at going
    | ended _ going => simp [closing] at going
    | _ => simp_all
  · exact absurd phase (step.unfinished result)

theorem Quiet.step (h : r.Quiet) (step : Step r a fs t) : t.Quiet ∧ emitted fs = [] := by
  cases step with
  | supervised allowed step => exact ⟨⟨step.closing_mono h.1, h.2⟩, step.emitted_eq⟩
  | drained active step =>
    obtain ⟨closing, finished, silent⟩ := h.drained step
    exact ⟨⟨closing, .inr finished⟩, silent⟩
  | outputFailed => exact ⟨⟨rfl, h.2⟩, rfl⟩
  | returned => exact ⟨⟨rfl, h.2⟩, rfl⟩
  | _ => exact ⟨h, rfl⟩

theorem Quiet.silenced (h : r.Quiet) : r.Silenced := by
  intro actions events s run
  have kept : s.Quiet ∧ emitted events = [] := by
    induction run with
    | refl => exact ⟨h, rfl⟩
    | next before move ih =>
      obtain ⟨quiet, silent⟩ := ih.1.step (step_cases move)
      exact ⟨quiet, by rw [emitted_append, ih.2, silent]; rfl⟩
  exact ⟨kept.1.1, kept.2⟩

/-- The output takes a message only into its empty hand. -/
theorem Step.taken_in_hand (step : Step r a fs s) (flow : r.Flows chain events)
    (accounts : r.Accounts events) (took : .taken m ∈ fs) :
    s.stage = .draining ∧ (∃ n, s.drain.phase = .direct (some m) n) ∧ emitted fs = [] := by
  cases step with
  | @drained o active step =>
    rcases step.taken_cases took with ⟨n, phase, in_hand, only⟩ | ⟨w, phase⟩
    · refine ⟨?_, ⟨n, in_hand⟩, by rw [only]; rfl⟩
      cases stage : r.stage with
      | draining => rfl
      | joining result =>
        have finished := accounts.joining _ stage
        rw [phase] at finished
        cases finished
      | _ => simp [isActive, stage] at active
    · obtain ⟨_, _, _, flow⟩ := flow
      have place := flow.place
      rw [phase] at place
      exact place.elim
  | supervised allowed step =>
    obtain rfl := step.taken_cause took
    cases allowed
  | _ => simp at took

/-- While the output has a message in hand, only the output writes. -/
theorem Step.hand_kept (step : Step r a fs t) (stage : r.stage = .draining)
    (phase : r.drain.phase = .direct (some m) n) (other : a ≠ .drain) :
    t.stage = .draining ∧ t.drain = r.drain ∧ emitted fs = [] := by
  cases step with
  | supervised allowed step => exact ⟨stage, rfl, step.emitted_eq⟩
  | drained => exact absurd rfl other
  | outputEnded _ result => simp [Drain.phase_of_result? result] at phase
  | outputFailed _ result => simp [Drain.phase_of_result? result] at phase
  | _ => simp_all

theorem hand_kept_until_reported (run : Reaches Moves r actions events s)
    (stage : r.stage = .draining) (phase : r.drain.phase = .direct (some m) n)
    (unreported : .drain ∉ actions) :
    s.stage = .draining ∧ s.drain = r.drain ∧ emitted events = [] := by
  induction run with
  | refl => exact ⟨stage, rfl, rfl⟩
  | next before move ih =>
    simp only [List.mem_append, List.mem_singleton, not_or] at unreported
    obtain ⟨draining, same, silent⟩ := ih unreported.1
    obtain ⟨draining', same', silent'⟩ :=
      (step_cases move).hand_kept draining (same ▸ phase) (Ne.symm unreported.2)
    exact ⟨draining', same'.trans same, by rw [emitted_append, silent, silent']; rfl⟩

theorem moves_drain {o : Drain.Outcome κ} (stage : r.stage = .draining)
    (h : r.drain.step r.supervision.coordination r.supervision.funnel = some o) :
    Moves r .drain o.events
      { r with
        drain := o.drain
        supervision.coordination := o.coordination
        supervision.funnel := o.funnel } := by
  simp [Moves, step, isActive, stage, h]

/-- A message that cannot be decoded closes a run without a tail if no error was recorded before.
After another error it is left out with a warning, and the run goes on. -/
theorem decode_failure_after_errors (direct : request.tail = none)
    (run : Reaches Moves (begin request chain client sink) actions events r)
    (step : Moves r a fs s) (took : .taken m ∈ fs) (undecodable : chain.record m = .error e)
    {others : List (Action σ)} (waiting : Reaches Moves s others es t)
    (unreported : .drain ∉ others) :
    emitted fs = [] ∧ emitted es = [] ∧
    (t.supervision.coordination.firstError = none → ∃ u,
      Moves t .drain [.recorded (.decoding m.partition m.offset e) true, .closing] u ∧
      u.supervision.coordination.firstError = some (.decoding m.partition m.offset e) ∧
      u.Silenced) ∧
    (∀ first, t.supervision.coordination.firstError = some first → ∃ n u,
      Moves t .drain [.recorded (.decoding m.partition m.offset e) false,
        .warned (.discarded (.decoding m.partition m.offset e))] u ∧
      u = { t with drain.phase := .direct none n } ∧
      (t.supervision.coordination.closing = true → u.Silenced)) := by
  have flow := flows_of_reaches direct run
  have accounts := accounts_of_reaches run
  obtain ⟨draining, ⟨n, phase⟩, silent⟩ := (step_cases step).taken_in_hand flow accounts took
  obtain ⟨stage, same, still_silent⟩ := hand_kept_until_reported waiting draining phase unreported
  have chain_eq : t.drain.chain = chain := by
    rw [same]
    exact (flow.step accounts (step_cases step)).1
  have in_hand : t.drain.phase = .direct (some m) n := same ▸ phase
  refine ⟨silent, still_silent, ?_, ?_⟩
  · intro free
    have reports : t.drain.step t.supervision.coordination t.supervision.funnel = some
        ⟨{ t.drain with phase := .direct none n },
          ⟨true, some (.decoding m.partition m.offset e)⟩, t.supervision.funnel,
          [.recorded (.decoding m.partition m.offset e) true, .closing]⟩ := by
      simp [Drain.step, Drain.writeDirect, in_hand, chain_eq, undecodable, free,
        Coordination.isFree, Coordination.record, Coordination.recordEvents,
        Coordination.recordWarnings, Coordination.shutdown]
    exact ⟨_, moves_drain stage reports, rfl, Quiet.silenced ⟨rfl, .inl ⟨n, rfl⟩⟩⟩
  · intro first taken
    have reports : t.drain.step t.supervision.coordination t.supervision.funnel = some
        ⟨{ t.drain with phase := .direct none n }, t.supervision.coordination,
          t.supervision.funnel, [.recorded (.decoding m.partition m.offset e) false,
            .warned (.discarded (.decoding m.partition m.offset e))]⟩ := by
      simp [Drain.step, Drain.writeDirect, in_hand, chain_eq, undecodable, taken,
        Coordination.isFree, Coordination.record, Coordination.recordEvents,
        Coordination.recordWarnings]
    exact ⟨n, _, moves_drain stage reports, rfl,
      fun closing => Quiet.silenced ⟨closing, .inl ⟨n, rfl⟩⟩⟩

/-- A message that the strict codec claims and rejects. -/
def rejected : Message := { partition := 1, offset := 0, value := some [0x21] }

def strict : Chain := ⟨[.tagged "strict" (some .value) [0x21] (.error "rejected")], .raw, .raw⟩

/-- The second partition delivers a message that cannot be decoded, and then one that can. -/
def faulty (opens : Script.Opens) : Script where
  parts := [{ id := 0, oldest := some 0, newest := some 1, opens },
    { id := 1, oldest := some 0, newest := some 2,
      steps := [.deliver (.message rejected), .wait 10,
        .deliver (.message { partition := 1, offset := 1, value := some (Utf8.encode "later") })] }]

/-- The steps up to the one in which the output takes the first message, if `before` partitions can
be opened before the one that it comes from. -/
def untilRejected (before : Nat) : List (Action Script) :=
  [.resolve 0, .resolve 0, .supervise (.openReader 0), .supervise (.openReader 0)] ++
    List.replicate (before + 2) (.supervise .start) ++
    [.supervise (.work before), .supervise (.work before)]

/-- Without an error before it the message ends the output. -/
theorem silenced_by_rejected :
    ∃ r s u : Run Script (List Script.Step) Memory, ∃ seen,
      Reaches Moves (begin { topic := "t", fromBeginning := true } strict (faulty .normally) {})
        (untilRejected 1) seen r ∧
      Moves r .drain [.taken rejected] s ∧
      Moves s .drain [.recorded (.decoding 1 0 ⟨"strict", "rejected"⟩) true, .closing] u ∧
      u.Silenced := by
  have replayed : ((begin (ρ := List Script.Step) { topic := "t", fromBeginning := true } strict
      (faulty .normally) ({} : Memory)).replay (untilRejected 1)).any (fun (r, _) =>
        (r.step .drain).any fun (s, events) =>
          events = [.taken rejected] && s.supervision.coordination.firstError = none) = true := by
    cbv
  obtain ⟨r, seen, run, next⟩ := exists_of_replay replayed
  obtain ⟨⟨s, events⟩, step, found⟩ := (Option.any_eq_true _ _).mp next
  simp only [Bool.and_eq_true, decide_eq_true_eq] at found
  obtain ⟨rfl, free⟩ := found
  have undecodable : strict.record rejected = .error ⟨"strict", "rejected"⟩ := by cbv
  obtain ⟨_, _, first, _⟩ := decode_failure_after_errors rfl run step
    (List.mem_singleton.mpr rfl) undecodable .refl List.not_mem_nil
  obtain ⟨u, report, _, silenced⟩ := first free
  exact ⟨r, s, u, seen, run, step, report, silenced⟩

/-- After a partition that could not be opened the message does not: the output goes on to the next
message, and nothing is closing. -/
theorem written_after_rejected :
    ∃ r s t : Run Script (List Script.Step) Memory, ∃ seen later,
      Reaches Moves (begin { topic := "t", fromBeginning := true } strict
        (faulty (.failing (.opening 0 "no leader"))) {}) (untilRejected 0) seen r ∧
      Moves r .drain [.taken rejected] s ∧
      strict.record rejected = .error ⟨"strict", "rejected"⟩ ∧
      Reaches Moves s [.drain, .supervise (.advance 10), .supervise (.work 0),
        .supervise (.work 0), .drain, .drain] later t ∧
      (emitted later).map (·.value) = [some "later"] ∧
      t.supervision.coordination.closing = false := by
  have replayed : ((begin (ρ := List Script.Step) { topic := "t", fromBeginning := true } strict
      (faulty (.failing (.opening 0 "no leader"))) ({} : Memory)).replay (untilRejected 0)).any
        (fun (r, _) => (r.step .drain).any fun (s, events) => events = [.taken rejected] &&
          (s.replay [.drain, .supervise (.advance 10), .supervise (.work 0),
            .supervise (.work 0), .drain, .drain]).any fun (t, later) =>
              (emitted later).map (·.value) = [some "later"] &&
                t.supervision.coordination.closing = false) = true := by
    cbv
  obtain ⟨r, seen, run, next⟩ := exists_of_replay replayed
  obtain ⟨⟨s, events⟩, step, found⟩ := (Option.any_eq_true _ _).mp next
  simp only [Bool.and_eq_true, decide_eq_true_eq] at found
  obtain ⟨rfl, rest⟩ := found
  obtain ⟨t, later, after, outcome⟩ := exists_of_replay rest
  simp only [Bool.and_eq_true, decide_eq_true_eq] at outcome
  exact ⟨r, s, t, seen, later, run, step, by cbv, after, outcome.1, outcome.2⟩

end TopicReader.Run
