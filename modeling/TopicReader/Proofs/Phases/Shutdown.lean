import TopicReader.Proofs.Phases.Order

/-! Runs that have been told to close. Nothing takes that back, nothing enters the funnel any more,
and each part comes to its end by itself, in whatever state it was when the run began to close. -/
namespace TopicReader

namespace Supervision

variable {σ ρ : Type} [Client σ ρ] {s : Supervision σ ρ}

/-- A worker that is told to stop does so in its next step, whatever it was waiting for. -/
theorem work_of_closing (closing : s.coordination.closing = true) {i : Nat} {w : Worker ρ}
    (found : s.workers[i]? = some w) (live : w.isLive = true) :
    s.step (.work i) = some (s.stop i w.bound .shutdown) := by
  obtain ⟨b, phase⟩ := w
  cases phase with
  | receiving reader since => simp [step, work, found, receive, closing]
  | sending reader m => simp [step, work, found, send, closing]
  | stopped => cases live
  | crashed => cases live

end Supervision

namespace Drain

/-- The message that the output has in hand, if it writes messages as they come. -/
def hand {κ : Type} (d : Drain κ) : List Message :=
  match d.phase with
  | .direct (some m) _ => [m]
  | _ => []

/-- Whether messages are written as they come. -/
def IsDirect {κ : Type} (d : Drain κ) : Prop :=
  (∃ hand n, d.phase = .direct hand n) ∨ ∃ result, d.phase = .finished result

variable {κ : Type} [Sink κ] {d : Drain κ} {c : Coordination} {f : Funnel} {o : Outcome κ}

/-- Direct output of a run that is closing takes nothing any more, and writes at most what it has in
hand. -/
theorem Step.last_record (step : Step d c f o) (direct : d.IsDirect) (closing : c.closing = true) :
    o.drain.IsDirect ∧ drawn o.events = [] ∧
      emitted o.events ++ o.drain.hand.filterMap d.chain.record? <+:
        d.hand.filterMap d.chain.record? := by
  have other {phase : Phase} (now : d.phase = phase) (going : ∀ hand n, phase ≠ .direct hand n)
      (unfinished : ∀ result, phase ≠ .finished result) : False := by
    obtain ⟨hand, n, same⟩ | ⟨result, same⟩ := direct
    · exact going hand n (now.symm.trans same)
    · exact unfinished result (now.symm.trans same)
  cases step with
  | wrote phase decoded =>
    refine ⟨.inl ⟨_, _, rfl⟩, rfl, ?_⟩
    simp [hand, phase, Chain.record?_of_ok decoded]
  | refused => exact ⟨.inr ⟨_, rfl⟩, rfl, List.nil_prefix⟩
  | undecodableFirst | undecodableLater => exact ⟨.inl ⟨_, _, rfl⟩, rfl, List.nil_prefix⟩
  | halted => exact ⟨.inr ⟨_, rfl⟩, rfl, List.nil_prefix⟩
  | took phase going => simp [closing] at going
  | ended phase going => simp [closing] at going
  | kept phase => exact (other phase (by simp) (by simp)).elim
  | collected phase => exact (other phase (by simp) (by simp)).elim
  | wroteKept phase => exact (other phase (by simp) (by simp)).elim
  | refusedKept phase => exact (other phase (by simp) (by simp)).elim
  | undecodableKept phase => exact (other phase (by simp) (by simp)).elim
  | emptied phase => exact (other phase (by simp) (by simp)).elim

end Drain

namespace Run

variable {σ ρ κ : Type} [Client σ ρ] [Sink κ] {request : Request} {chain : Chain} {client : σ}
  {sink : κ} {actions more : List (Action σ)} {events later fs : List Event} {r s t : Run σ ρ κ}
  {a : Action σ}

theorem Step.closing_mono (step : Step r a fs t)
    (closing : r.supervision.coordination.closing = true) :
    t.supervision.coordination.closing = true := by
  cases step with
  | supervised allowed step => exact step.closing_mono closing
  | drained active step => exact step.closing_mono closing
  | outputFailed | returned => rfl
  | _ => exact closing

/-- A run that is closing stays so. -/
theorem closing_of_reaches (closing : r.supervision.coordination.closing = true)
    (rest : Reaches Moves r more later s) : s.supervision.coordination.closing = true := by
  induction rest with
  | refl => exact closing
  | next before move ih => exact (step_cases move).closing_mono ih

/-- A step of a closing run without a tail. -/
theorem Step.last_record (step : Step r a fs t) (direct : r.drain.IsDirect)
    (closing : r.supervision.coordination.closing = true) :
    t.drain.IsDirect ∧ t.drain.chain = r.drain.chain ∧ drawn fs = [] ∧
      emitted fs ++ t.drain.hand.filterMap r.drain.chain.record? <+:
        r.drain.hand.filterMap r.drain.chain.record? := by
  cases step with
  | supervised allowed step =>
    refine ⟨direct, rfl, step.drawn_eq (by rintro rfl; cases allowed), ?_⟩
    rw [step.emitted_eq]
    exact List.prefix_rfl
  | drained active step =>
    obtain ⟨still, none_drawn, front⟩ := step.last_record direct closing
    exact ⟨still, step.chain_eq, none_drawn, front⟩
  | _ => exact ⟨direct, rfl, rfl, List.prefix_rfl⟩

/-- A run without a tail that is closing writes at most the message that its output has in hand. -/
theorem last_record_of_reaches (direct : r.drain.IsDirect)
    (closing : r.supervision.coordination.closing = true) (rest : Reaches Moves r more later s) :
    drawn later = [] ∧ emitted later <+: r.drain.hand.filterMap r.drain.chain.record? := by
  have kept : s.drain.IsDirect ∧ s.drain.chain = r.drain.chain ∧ drawn later = [] ∧
      emitted later ++ s.drain.hand.filterMap r.drain.chain.record? <+:
        r.drain.hand.filterMap r.drain.chain.record? := by
    induction rest with
    | refl => exact ⟨direct, rfl, rfl, List.prefix_rfl⟩
    | next before move ih =>
      obtain ⟨direct, same, none_drawn, front⟩ := ih
      obtain ⟨direct', same', none_drawn', front'⟩ :=
        (step_cases move).last_record direct (closing_of_reaches closing before)
      rw [same] at front'
      refine ⟨direct', same'.trans same, by rw [drawn_append, none_drawn, none_drawn']; rfl, ?_⟩
      rw [emitted_append, List.append_assoc]
      exact ((List.prefix_append_right_inj _).mpr front').trans front
  obtain ⟨_, _, none_drawn, front⟩ := kept
  exact ⟨none_drawn, (List.prefix_append _ _).trans front⟩

theorem direct_of_reaches (direct : request.tail = none)
    (run : Reaches Moves (begin request chain client sink) actions events r) :
    r.drain.IsDirect ∧ r.drain.chain = chain := by
  obtain ⟨same, dealt, pending, flow⟩ := flows_of_reaches direct run
  refine ⟨?_, same⟩
  have place := flow.place
  cases phase : r.drain.phase with
  | direct hand n => exact .inl ⟨hand, n, phase⟩
  | finished result => exact .inr ⟨result, phase⟩
  | collecting | emptying =>
    rw [phase] at place
    exact place.elim

/-- As long as bounds are being found, some are to be found. -/
theorem waiting_of_reaches (run : Reaches Moves (begin request chain client sink) actions events r) :
    ∀ waiting bounds, r.stage = .resolving waiting bounds → waiting ≠ [] := by
  induction run with
  | refl =>
    obtain ⟨client', stage, opening, same⟩ := begin_cases (ρ := ρ) request chain client sink
    rw [same]
    intro waiting bounds resolving
    cases opening with
    | waiting some =>
      cases resolving
      exact some
    | _ => cases resolving
  | next before move ih =>
    cases step_cases move with
    | resolved stage next more =>
      intro waiting bounds resolving
      cases resolving
      exact more
    | supervised | drained => exact ih
    | _ => simp

/-- How many steps are left until the workers begin, with what each bound found costs them. -/
def Stage.unresolved : Stage → Nat
  | .resolving waiting bounds => 5 * waiting.length + 4 * bounds.length + 2
  | _ => 0

omit [Client σ ρ] [Sink κ] in
/-- Only bounds that were found have readers to be opened. -/
theorem steps_ready (bounds : List Bound) (b : Bound) :
    (Supervision.Stage.after (ρ := ρ)
      ((boundsInOrder (bounds ++ [b])).filter fun b => !b.isEmpty) []).steps ≤
        4 * bounds.length + 5 := by
  have fewer := List.length_filter_le (fun b : Bound => !b.isEmpty) (boundsInOrder (bounds ++ [b]))
  have sorted : (boundsInOrder (bounds ++ [b])).length = bounds.length + 1 := by
    simp [boundsInOrder]
  rw [Supervision.steps_after]
  simp only [Supervision.Stage.steps, List.length_nil]
  omega

/-- While bounds are being found, each step of the run itself brings it nearer to its end. -/
theorem Step.unresolved_lt (step : Step r a fs t) (accounts : r.Accounts events)
    {waiting : List Int} {bounds : List Bound} (stage : r.stage = .resolving waiting bounds) :
    t.steps + t.stage.unresolved + (if a.isOwn then 1 else 0) ≤ r.steps + r.stage.unresolved := by
  obtain ⟨idle, start, _⟩ := accounts.resolving waiting bounds stage
  cases step with
  | unresolved stage =>
    simp only [steps, stage, Stage.steps, Stage.unresolved, Action.isOwn, if_true,
      Supervision.steps]
    omega
  | resolved stage next more =>
    have bound := (List.getElem?_eq_some_iff.mp next).1
    simp only [steps, stage, Stage.steps, Stage.unresolved, Action.isOwn, if_true,
      Supervision.steps, List.length_eraseIdx_of_lt bound, List.length_append,
      List.length_singleton]
    omega
  | @resolvedLast i waiting bounds p b client stage next last =>
    have bound := (List.getElem?_eq_some_iff.mp next).1
    have ready := steps_ready (ρ := ρ) bounds b
    simp only [steps, stage, Stage.steps, Stage.unresolved, Action.isOwn, if_true,
      Supervision.steps, idle, start, Supervision.Stage.steps, List.length_nil, List.map_nil,
      List.sum_nil] at ready ⊢
    omega
  | @supervised a _ supervision allowed step =>
    have foreign : a.isOwn = false := by
      cases a <;> first | rfl | simp [allows, isActive, stage] at allowed
    have same := Ending.beside allowed foreign step
    simp [same, Action.isOwn, foreign]
  | drained active => simp [isActive, stage] at active
  | outputEnded other => simp [stage] at other
  | outputFailed other => simp [stage] at other
  | returned other => simp [stage] at other

/-- Each step of its own brings a run that is closing nearer to its end. -/
theorem Step.closing_left (step : Step r a fs t) (accounts : r.Accounts events)
    (closing : r.supervision.coordination.closing = true) :
    t.steps + t.stage.unresolved + (if a.isOwn then 1 else 0) ≤ r.steps + r.stage.unresolved := by
  cases stage : r.stage with
  | resolving waiting bounds => exact stage ▸ step.unresolved_lt accounts stage
  | returned result => exact absurd stage (step.not_returned result)
  | draining | joining =>
    have ending : r.Ending := ⟨by simp [isActive, stage], .inl closing⟩
    obtain ⟨next, fewer⟩ := ending.step accounts step
    have resolved : t.stage.unresolved = 0 := by
      rcases next with ⟨active, _⟩ | ⟨result, returned⟩
      · cases other : t.stage with
        | resolving => simp [isActive, other] at active
        | _ => rfl
      · rw [returned]
        rfl
    rw [resolved]
    exact fewer

/-- Until a run that is closing has returned, it can go on by itself. -/
theorem exists_step_of_closing
    (run : Reaches Moves (begin request chain client sink) actions events r)
    (closing : r.supervision.coordination.closing = true) (going : r.result? = none) :
    ∃ (a : Action σ) (fs : List Event) (t : Run σ ρ κ), a.isOwn = true ∧ Moves r a fs t := by
  cases stage : r.stage with
  | resolving waiting bounds =>
    obtain ⟨p, rest, rfl⟩ := List.exists_cons_of_ne_nil (waiting_of_reaches run waiting bounds stage)
    exact ⟨.resolve 0, [], r.resolve rest bounds p, rfl, by simp [Moves, Run.step, stage]⟩
  | returned result => simp [result?, stage] at going
  | draining | joining =>
    have ending : r.Ending := ⟨by simp [isActive, stage], .inl closing⟩
    exact ending.exists_step (accounts_of_reaches run) (orderly_of_reaches run)

/-- Once no reader waits to be opened, it need not wait for a client that opens one. -/
theorem exists_step_once_opened
    (run : Reaches Moves (begin request chain client sink) actions events r)
    (closing : r.supervision.coordination.closing = true) (going : r.result? = none)
    (opened : ∀ waiting done, r.supervision.stage ≠ .opening waiting done) :
    ∃ (a : Action σ) (fs : List Event) (t : Run σ ρ κ), a.isOwn = true ∧
      (∀ i, a ≠ .supervise (.openReader i)) ∧ Moves r a fs t := by
  obtain ⟨a, fs, t, own, move⟩ := exists_step_of_closing run closing going
  refine ⟨a, fs, t, own, ?_, move⟩
  rintro i rfl
  cases step_cases move with
  | supervised allowed step =>
    cases step with
    | opened stage => exact opened _ _ stage
    | openFailed stage => exact opened _ _ stage
    | openCrashed stage => exact opened _ _ stage

/-- A run that is closing is bound to return, also if its workers have not begun. -/
theorem bound_to_return_of_closing
    (run : Reaches Moves (begin request chain client sink) actions events r)
    (closing : r.supervision.coordination.closing = true) : r.BoundToReturn := by
  refine ⟨r.steps + r.stage.unresolved, ?_⟩
  intro more later s rest
  have whole := run.trans rest
  refine ⟨?_, exists_step_of_closing whole (closing_of_reaches closing rest)⟩
  have fewer : more.countP Action.isOwn + (s.steps + s.stage.unresolved) ≤
      r.steps + r.stage.unresolved := by
    induction rest with
    | refl => simp
    | next before move ih =>
      have left := (step_cases move).closing_left (accounts_of_reaches (run.trans before))
        (closing_of_reaches closing before)
      have counted := ih (run.trans before)
      rw [List.countP_append, List.countP_singleton]
      omega
  omega

omit [Client σ ρ] [Sink κ] in
/-- Without workers nothing has been sent. -/
theorem entered_nil (accounts : r.Accounts events) (idle : r.supervision.workers = []) :
    entered events = [] := by
  refine List.map_eq_nil_iff.mpr (List.eq_nil_iff_forall_not_mem.mpr ?_)
  intro x member
  have sent : x.2 ∈ ofPartition x.1 (forwarded events) := mem_ofPartition.mpr member
  rw [(accounts.ledger.silent x.1 (by simp [idle])).1] at sent
  cases sent

/-- When a run returns, its output has ended, unless its workers have never begun. -/
theorem finished_of_returned
    (run : Reaches Moves (begin request chain client sink) actions events r)
    (returned : r.result?.isSome = true) :
    r.supervision.workers = [] ∨ ∃ drained, r.drain.phase = .finished drained := by
  obtain ⟨result, returned⟩ := Option.isSome_iff_exists.mp returned
  have stage := stage_of_result? returned
  cases run with
  | refl =>
    obtain ⟨client', stage, opening, same⟩ := begin_cases (ρ := ρ) request chain client sink
    rw [same]
    exact .inl rfl
  | next before move =>
    have accounts := accounts_of_reaches before
    cases step_cases move with
    | unresolved resolving => exact .inl (accounts.resolving _ _ resolving).1
    | returned joining => exact .inr ⟨_, accounts.joining _ joining⟩
    | supervised allowed step =>
      exact absurd stage ((Step.supervised allowed step).not_returned _)
    | drained active step => exact absurd stage ((Step.drained active step).not_returned _)
    | _ => cases stage

/-- When a run that shows the last messages returns, its output has ended, unless there was nothing
for it to do. -/
theorem output_of_returned {n : Nat} (tail : request.tail = some n)
    (run : Reaches Moves (begin request chain client sink) actions events r)
    (returned : r.result?.isSome = true) :
    (entered events = [] ∧ emitted events = []) ∨ ∃ drained, r.drain.phase = .finished drained := by
  rcases finished_of_returned run returned with idle | finished
  · have none_entered := entered_nil (accounts_of_reaches run) idle
    have tailing := tailing_of_reaches tail run
    have standing := tailing.output
    generalize emitted events = written at standing ⊢
    cases standing with
    | collecting => exact .inl ⟨none_entered, rfl⟩
    | emptying phase =>
      have stage := tailing.writing _ _ phase
      simp [result?, stage] at returned
    | ended phase => exact .inr ⟨_, phase⟩
    | broken phase => exact .inr ⟨_, phase⟩
  · exact .inr finished

/-- A run that shows the last messages has written the newest of those that entered the funnel when it
returns, if its sink has not failed. -/
theorem written_of_returned {n : Nat} (tail : request.tail = some n)
    (run : Reaches Moves (begin request chain client sink) actions events r)
    (returned : r.result?.isSome = true) (unrefused : refusals events = []) :
    emitted events = (TailWindow.newest n (entered events)).filterMap chain.record? := by
  rcases output_of_returned tail run returned with ⟨none_entered, none_written⟩ | ⟨drained, finished⟩
  · rw [none_entered, none_written, TailWindow.newest_nil]
    rfl
  · have output := (recordsFailures_of_reaches run).output
    have standing := (tailing_of_reaches tail run).output
    generalize emitted events = written at standing ⊢
    cases standing with
    | collecting phase => simp [finished] at phase
    | emptying phase => simp [finished] at phase
    | ended phase closed decoded => exact decoded
    | broken phase =>
      rw [phase] at output
      obtain ⟨x, _, refused⟩ := output
      simp [unrefused] at refused

/-- A closing run stays closing, and nothing enters its funnel any more. Each live worker stops in
its next step, the output finishes what it has in hand, and the run is bound to return. -/
theorem shutdown_gets_through
    (run : Reaches Moves (begin request chain client sink) actions events r)
    (closing : r.supervision.coordination.closing = true) :
    (∀ more later s, Reaches Moves r more later s →
      s.supervision.coordination.closing = true ∧ forwarded later = [] ∧
      (request.tail = none →
        drawn later = [] ∧ emitted later <+: r.drain.hand.filterMap chain.record?) ∧
      ∀ n, request.tail = some n → s.result?.isSome = true → refusals (events ++ later) = [] →
        emitted (events ++ later) =
          (TailWindow.newest n (entered events)).filterMap chain.record?) ∧
    (∀ more later s, Reaches Moves r more later s → s.result? = none →
      (∀ waiting done, s.supervision.stage ≠ .opening waiting done) →
      ∃ (a : Action σ) (fs : List Event) (t : Run σ ρ κ), a.isOwn = true ∧
        (∀ i, a ≠ .supervise (.openReader i)) ∧ Moves s a fs t) ∧
    (∀ i w, r.supervision.workers[i]? = some w → w.isLive = true →
      ∃ t : Run σ ρ κ,
        Moves r (.supervise (.work i)) [.stopped w.bound.partition .shutdown] t ∧
        t.supervision.workers = r.supervision.workers.set i ⟨w.bound, .stopped .shutdown⟩ ∧
        t.supervision.client = Client.closeReader w.bound.partition r.supervision.client) ∧
    r.BoundToReturn := by
  refine ⟨?_, ?_, ?_, bound_to_return_of_closing run closing⟩
  · intro more later s rest
    have silent := (sendsNothing_of_reaches (.inl closing) rest).2
    refine ⟨closing_of_reaches closing rest, silent, ?_, ?_⟩
    · intro direct
      obtain ⟨writes, same⟩ := direct_of_reaches direct run
      exact same ▸ last_record_of_reaches writes closing rest
    · intro n tail returned unrefused
      have same : entered (events ++ later) = entered events := by
        simp [entered, silent]
      rw [← same]
      exact written_of_returned tail (run.trans rest) returned unrefused
  · intro more later s rest
    exact exists_step_once_opened (run.trans rest) (closing_of_reaches closing rest)
  · intro i w found live
    have active : r.isActive = true := by
      rcases started_of_reaches run with unstarted | active | ⟨finished, _⟩
      · simp [unstarted.idle] at found
      · exact active
      · have settled := (Supervision.isFinished_iff.mp finished).2 w (List.mem_of_getElem? found)
        simp [Worker.not_live_of_settled settled] at live
    have next := Supervision.work_of_closing closing found live
    refine ⟨{ r with supervision := (r.supervision.stop i w.bound .shutdown).1 }, ?_, rfl, rfl⟩
    simp [Moves, Run.step, allows, active, next, Supervision.stop]

/-- The first partition has more to deliver than the funnel takes, and the second one is silent. -/
def pressed : Script where
  parts := [
    { id := 0, oldest := some 0, newest := some 2,
      steps := [.deliver (.message { partition := 0, offset := 0 }),
        .deliver (.message { partition := 0, offset := 1 })] },
    { id := 1, oldest := some 0, newest := some 1 }]

def pressedRun : Run Script (List Script.Step) Memory :=
  begin { topic := "t", fromBeginning := true } .default pressed {}

/-- Its steps until it is told to close, while the first worker waits for the full funnel and the
second one for its reader. -/
def untilTold : List (Action Script) :=
  [.resolve 0, .resolve 0, .supervise (.openReader 0), .supervise (.openReader 0),
    .supervise .start, .supervise .start, .supervise .start, .supervise (.work 0),
    .supervise (.work 0), .supervise (.work 0), .supervise .shutdown]

/-- The steps from there to its end. -/
def onceTold : List (Action Script) :=
  [.drain, .supervise (.work 1), .supervise (.work 0), .settle, .settle]

/-- Both workers stop, and what is queued or held is neither taken out nor written. -/
theorem pressed_gets_through :
    ∃ (r s : Run Script (List Script.Step) Memory) (events later : List Event),
      Reaches Moves pressedRun untilTold events r ∧ r.supervision.coordination.closing = true ∧
      r.supervision.workers.map Worker.isLive = [true, true] ∧
      r.supervision.funnel.hasRoom = false ∧ r.BoundToReturn ∧
      Reaches Moves r onceTold later s ∧ s.result? = some (.ok ()) ∧
      s.supervision.stops = [(0, .shutdown), (1, .shutdown)] ∧ forwarded later = [] ∧
      drawn later = [] ∧ emitted later = [] := by
  have replayed : (pressedRun.replay untilTold).any (fun (r, _) =>
      r.supervision.coordination.closing && r.supervision.workers.map Worker.isLive = [true, true] &&
        r.supervision.funnel.hasRoom = false && r.drain.hand = [] &&
          (r.replay onceTold).any fun (s, _) => s.result? = some (.ok ()) &&
            s.supervision.stops = [(0, .shutdown), (1, .shutdown)]) = true := by
    cbv
  obtain ⟨r, events, run, rest⟩ := exists_of_replay replayed
  simp only [Bool.and_eq_true, decide_eq_true_eq] at rest
  obtain ⟨⟨⟨⟨closing, live⟩, full⟩, empty⟩, rest⟩ := rest
  obtain ⟨s, later, after, ended⟩ := exists_of_replay rest
  simp only [Bool.and_eq_true, decide_eq_true_eq] at ended
  obtain ⟨final, _, _, bound⟩ := shutdown_gets_through run closing
  obtain ⟨_, silent, direct, _⟩ := final _ _ _ after
  obtain ⟨none_drawn, front⟩ := direct rfl
  rw [empty] at front
  exact ⟨r, s, events, later, run, closing, live, full, bound, after, ended.1, ended.2, silent,
    none_drawn, List.prefix_nil.mp front⟩

end Run
end TopicReader
