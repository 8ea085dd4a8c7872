import TopicReader.Client.Script
import TopicReader.Proofs.Outcome.Closing
import TopicReader.Proofs.Outcome.Recordings

/-! What decides the result of a run: a failure of the sink, and else the first error that was
recorded. Whoever reports errors, and in whatever order, the slot keeps the first one. -/
namespace TopicReader

/-- The result that failures of the sink and recorded errors call for, each in order. -/
def verdict : List OutputError → List RunError → Except RunError Unit
  | e :: _, _ => .error (.output e)
  | [], e :: _ => .error e
  | [], [] => .ok ()

namespace Run

variable {σ ρ κ : Type} [Client σ ρ] [Sink κ] {request : Request} {chain : Chain} {client : σ}
  {sink : κ} {actions more : List (Action σ)} {events later fs : List Event} {r s t : Run σ ρ κ}
  {a : Action σ}

/-- The slot holds the first error recorded, and the output has failed if the sink has. -/
structure RecordsFailures (r : Run σ ρ κ) (events : List Event) : Prop where
  holds : r.supervision.coordination.HoldsFirst (recordings events)
  output : r.drain.phase.FailsWhenRefused (refusals events)

/-- A run whose workers have not begun: nobody can have reported a failure. -/
structure Unstarted (r : Run σ ρ κ) (events : List Event) : Prop where
  inactive : r.isActive = false
  idle : r.supervision.workers = []
  unrecorded : recordings events = []
  unrefused : refusals events = []

/-- A run whose workers have begun. If it has returned, its workers are done and its result is what
its failures call for. -/
def Started (r : Run σ ρ κ) (events : List Event) : Prop :=
  r.isActive = true ∨ r.supervision.isFinished = true ∧
    r.stage = .returned (verdict (refusals events) ((recordings events).map (·.1)))

theorem Step.notes (step : Step r a fs t) :
    r.supervision.coordination.Notes t.supervision.coordination fs := by
  cases step with
  | supervised allowed step => exact step.notes
  | drained active step => exact step.notes
  | _ => exact .silent rfl rfl

/-- The first error that was recorded stays. -/
theorem Step.firstError_kept (step : Step r a fs t) {e : RunError}
    (first : r.supervision.coordination.firstError = some e) :
    t.supervision.coordination.firstError = some e := by
  cases step with
  | supervised allowed step => exact step.firstError_eq first
  | drained active step => exact step.firstError_eq first
  | _ => exact first

theorem RecordsFailures.step (h : r.RecordsFailures events) (step : Step r a fs t) :
    t.RecordsFailures (events ++ fs) := by
  refine ⟨?_, ?_⟩
  · rw [recordings_append]
    exact h.holds.note step.notes
  · have output := h.output
    rw [refusals_append]
    cases step with
    | supervised allowed step =>
      rw [step.refusals_eq, List.append_nil]
      exact output
    | drained active step => exact step.output output
    | _ =>
      simp only [refusals_nil, refusals_cons, Event.refused?, Option.toList_none, List.append_nil]
      exact output

omit [Sink κ] in
theorem recordsFailures_begin : (begin request chain client sink : Run σ ρ κ).RecordsFailures [] := by
  obtain ⟨client', stage, opening, same⟩ := begin_cases (ρ := ρ) request chain client sink
  rw [same]
  refine ⟨rfl, ?_⟩
  cases request.tail <;> rfl

theorem recordsFailures_of_reaches
    (run : Reaches Moves (begin request chain client sink) actions events r) :
    r.RecordsFailures events := by
  induction run with
  | refl => exact recordsFailures_begin
  | next before move ih => exact ih.step (step_cases move)

omit [Client σ ρ] [Sink κ] in
/-- The outcome of a run whose output has ended is what its failures call for. -/
theorem RecordsFailures.outcome_eq (h : r.RecordsFailures events) {drained : Except RunError Nat}
    (phase : r.drain.phase = .finished drained) :
    outcome drained r.supervision.coordination =
      verdict (refusals events) ((recordings events).map (·.1)) := by
  obtain ⟨holds, output⟩ := h
  rw [phase] at output
  cases drained with
  | error e =>
    obtain ⟨x, rfl, refused⟩ := output
    rw [refused]
    rfl
  | ok n =>
    have unrefused : refusals events = [] := output
    have slot := holds.firstError_eq
    cases log : recordings events <;> simp [outcome, verdict, unrefused, slot, log]

/-- A run whose workers have begun is judged by its failures when it returns. -/
theorem Started.step (h : r.Started events) (failures : r.RecordsFailures events)
    (accounts : r.Accounts events) (step : Step r a fs t) : t.Started (events ++ fs) := by
  have active : r.isActive = true := h.resolve_right fun ended => step.not_returned _ ended.2
  cases step with
  | unresolved stage => simp [isActive, stage] at active
  | resolved stage => simp [isActive, stage] at active
  | resolvedLast stage => simp [isActive, stage] at active
  | supervised allowed step => exact .inl active
  | drained _ step => exact .inl active
  | outputEnded => exact .inl rfl
  | outputFailed => exact .inl rfl
  | returned stage finished =>
    refine .inr ⟨finished, ?_⟩
    rw [failures.outcome_eq (accounts.joining _ stage)]
    simp

theorem Unstarted.step (h : r.Unstarted events) (step : Step r a fs t) :
    t.Unstarted (events ++ fs) ∨ t.Started (events ++ fs) := by
  obtain ⟨inactive, idle, unrecorded, unrefused⟩ := h
  cases step with
  | unresolved stage =>
    rw [List.append_nil]
    exact .inl ⟨rfl, idle, unrecorded, unrefused⟩
  | resolved stage =>
    rw [List.append_nil]
    exact .inl ⟨rfl, idle, unrecorded, unrefused⟩
  | resolvedLast => exact .inr (.inl rfl)
  | @supervised a _ supervision allowed step =>
    left
    cases step with
    | shutDown => exact ⟨inactive, idle, by simp [unrecorded], by simp [unrefused]⟩
    | changed => exact ⟨inactive, idle, by simp [unrecorded], by simp [unrefused]⟩
    | advanced => exact ⟨inactive, idle, by simp [unrecorded], by simp [unrefused]⟩
    | taken => cases allowed
    | deafened => cases allowed
    | _ => exact absurd (inactive.symm.trans allowed) (by simp)
  | drained active => exact absurd (inactive.symm.trans active) (by simp)
  | outputEnded stage => simp [isActive, stage] at inactive
  | outputFailed stage => simp [isActive, stage] at inactive
  | returned stage => simp [isActive, stage] at inactive

theorem started_of_reaches (run : Reaches Moves (begin request chain client sink) actions events r) :
    r.Unstarted events ∨ r.Started events := by
  induction run with
  | refl =>
    left
    obtain ⟨client', stage, opening, same⟩ := begin_cases (ρ := ρ) request chain client sink
    rw [same]
    refine ⟨?_, rfl, rfl, rfl⟩
    cases opening <;> rfl
  | next before move ih =>
    rcases ih with unstarted | started
    · exact unstarted.step (step_cases move)
    · exact .inr (started.step (recordsFailures_of_reaches before) (accounts_of_reaches before)
        (step_cases move))

theorem started_of_active (run : Reaches Moves (begin request chain client sink) actions events r)
    (active : r.isActive = true) (rest : Reaches Moves r more later s) :
    s.Started (events ++ later) := by
  induction rest with
  | refl =>
    rw [List.append_nil]
    exact .inl active
  | next before move ih =>
    have whole := run.trans before
    rw [← List.append_assoc]
    exact ih.step (recordsFailures_of_reaches whole) (accounts_of_reaches whole) (step_cases move)

/-- The first failure of the sink ends the output, so the run is bound to return. -/
theorem bound_to_return_of_refusal
    (run : Reaches Moves (begin request chain client sink) actions events s)
    (started : s.Started events) (refused : refusals events ≠ []) : s.BoundToReturn := by
  rcases started with active | ⟨_, returned⟩
  · have output := (recordsFailures_of_reaches run).output
    have failed : ∃ e, s.drain.phase = .finished (.error e) := by
      cases phase : s.drain.phase with
      | finished result =>
        cases result with
        | error e => exact ⟨e, rfl⟩
        | ok n =>
          rw [phase] at output
          exact absurd output refused
      | _ =>
        rw [phase] at output
        exact absurd output refused
    exact Ending.bound_to_return ⟨active, .inr failed⟩ run
  · refine ⟨0, ?_⟩
    intro actions events u rest
    have still : actions = [] ∧ u = s := by
      induction rest with
      | refl => exact ⟨rfl, rfl⟩
      | next before move ih =>
        obtain ⟨_, rfl⟩ := ih
        exact absurd returned ((step_cases move).not_returned _)
    obtain ⟨rfl, rfl⟩ := still
    simp [result?, returned]

/-- The result of a run whose workers began is the first failure of the sink, else the first error
recorded. At most one recording finds the slot empty, and its error is kept. -/
theorem first_cause_decides
    (run : Reaches Moves (begin request chain client sink) actions events r)
    (active : r.isActive = true) (rest : Reaches Moves r more later s) :
    (recordings (events ++ later)).countP (·.2) ≤ 1 ∧
    s.supervision.coordination.firstError = (recordings (events ++ later)).head?.map (·.1) ∧
    (∀ a fs t e, Moves s a fs t → s.supervision.coordination.firstError = some e →
      t.supervision.coordination.firstError = some e) ∧
    (∀ result, s.result? = some result →
      result = verdict (refusals (events ++ later)) ((recordings (events ++ later)).map (·.1))) ∧
    (refusals (events ++ later) ≠ [] → s.BoundToReturn) := by
  have whole := run.trans rest
  have failures := recordsFailures_of_reaches whole
  have started := started_of_active run active rest
  refine ⟨failures.holds.countP_first_le, failures.holds.firstError_eq, ?_, ?_,
    bound_to_return_of_refusal whole started⟩
  · intro a fs t e move first
    exact (step_cases move).firstError_kept first
  · intro result ended
    have returned := stage_of_result? ended
    rcases started with active | ⟨_, judged⟩
    · simp [isActive, returned] at active
    · rw [returned] at judged
      exact Stage.returned.inj judged

/-- The reader of the first partition fails, and then the second partition delivers a message. -/
def lossy : Script where
  parts := [
    { id := 0, oldest := some 0, newest := some 1,
      steps := [.deliver (.failed (.broker "reader lost"))] },
    { id := 1, oldest := some 0, newest := some 1,
      steps := [.wait 10, .deliver (.message { partition := 1, offset := 0 })] }]

/-- A run of it whose sink takes nothing. -/
def refusing : Run Script (List Script.Step) (Fragile Memory) :=
  begin { topic := "t", fromBeginning := true } .default lossy { inner := {}, left := some 0 }

/-- The steps in which the bounds are found, and those from the first open reader to the end: the
first worker reports its error, the sink fails on the message of the second, and the second worker
is told to stop. -/
def finding : List (Action Script) := [.resolve 0, .resolve 0]

def failing : List (Action Script) :=
  [.supervise (.openReader 0), .supervise (.openReader 0), .supervise .start, .supervise .start,
    .supervise .start, .supervise (.work 0), .supervise (.advance 10), .supervise (.work 1),
    .supervise (.work 1), .drain, .drain, .settle, .supervise (.work 1), .settle]

/-- The failure of the sink decides, although an error was recorded before it. -/
theorem refusal_decides :
    ∃ (r s : Run Script (List Script.Step) (Fragile Memory)) (events later : List Event),
      Reaches Moves refusing finding events r ∧ r.isActive = true ∧
      Reaches Moves r failing later s ∧
      recordings (events ++ later) = [(.broker "reader lost", true)] ∧
      refusals (events ++ later) = [Pipe.closed] ∧
      s.result? = some (.error (.output Pipe.closed)) ∧
      s.supervision.coordination.firstError = some (.broker "reader lost") := by
  have replayed : (refusing.replay finding).any (fun (r, events) => r.isActive &&
      (r.replay failing).any fun (s, later) => s.result?.isSome &&
        recordings (events ++ later) = [(.broker "reader lost", true)] &&
          refusals (events ++ later) = [Pipe.closed]) = true := by
    cbv
  obtain ⟨r, events, run, rest⟩ := exists_of_replay replayed
  obtain ⟨active, rest⟩ := Bool.and_eq_true_iff.mp rest
  obtain ⟨s, later, after, seen⟩ := exists_of_replay rest
  simp only [Bool.and_eq_true, decide_eq_true_eq] at seen
  obtain ⟨⟨returned, recorded⟩, refused⟩ := seen
  obtain ⟨result, ended⟩ := Option.isSome_iff_exists.mp returned
  obtain ⟨_, slot, _, judged, _⟩ := first_cause_decides run active after
  have decided := judged result ended
  rw [refused, recorded] at decided
  rw [recorded] at slot
  exact ⟨r, s, events, later, run, active, after, recorded, refused,
    ended.trans (congrArg some decided), slot⟩

end Run
end TopicReader
