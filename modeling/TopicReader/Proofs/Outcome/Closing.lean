import TopicReader.Proofs.Snapshot.Runs

/-! Runs that come to their end. Once a run is closing, or its output has failed, no message enters
the funnel any more: each of the run's own steps then brings it nearer to its end, whatever the
client does, and one of them is possible until it has returned. -/
namespace TopicReader

/-- How many steps a worker may still take when it can send no more. A crash has to be noticed. -/
def Worker.steps {ρ : Type} (w : Worker ρ) : Nat :=
  match w.phase with
  | .receiving _ _ => 2
  | .sending _ _ | .crashed false => 1
  | _ => 0

namespace Supervision

section
variable {σ ρ : Type}

def Stage.steps : Stage ρ → Nat
  | .opening waiting opened => 4 * waiting.length + 3 * opened.length + 1
  | .starting opened => 3 * opened.length + 1
  | .running => 0

def steps (s : Supervision σ ρ) : Nat := s.stage.steps + (s.workers.map Worker.steps).sum

/-- Nothing enters the funnel any more. -/
def SendsNothing (s : Supervision σ ρ) : Prop :=
  s.coordination.closing = true ∨ s.funnel.receiving = false

theorem steps_after (waiting : List Bound) (opened : List (Bound × ρ)) :
    (Stage.after waiting opened).steps = (Stage.opening waiting opened).steps := by
  cases waiting with
  | nil => simp [Stage.after, Stage.steps, openedInOrder]
  | cons b rest => rfl

variable {s t : Supervision σ ρ}

/-- A step of one worker, which has then fewer steps to take. -/
theorem steps_set {i : Nat} {b : Bound} {old new : Worker.Phase ρ}
    (worker : s.workers[i]? = some ⟨b, old⟩) (workers : t.workers = s.workers.set i ⟨b, new⟩)
    (stage : t.stage = s.stage) (fewer : Worker.steps ⟨b, new⟩ < Worker.steps ⟨b, old⟩) :
    t.steps < s.steps := by
  have moved := sum_set (b := ⟨b, new⟩) Worker.steps worker
  unfold steps
  rw [workers, stage]
  omega

/-- The step that takes the next bound off the list of those that wait. -/
theorem steps_opened {i : Nat} {waiting : List Bound} {opened kept : List (Bound × ρ)} {b : Bound}
    (stage : s.stage = .opening waiting opened) (next : waiting[i]? = some b)
    (after : t.stage = .after (waiting.eraseIdx i) kept) (few : kept.length ≤ opened.length + 1)
    (workers : t.workers = s.workers) : t.steps < s.steps := by
  have bound : i < waiting.length := (List.getElem?_eq_some_iff.mp next).1
  unfold steps
  rw [after, steps_after, stage, workers]
  simp only [Stage.steps, List.length_eraseIdx_of_lt bound]
  omega

/-- When all is done nobody holds a sending end any more. -/
theorem senders_of_finished (counted : s.Counted) (finished : s.isFinished = true) :
    s.funnel.senders = 0 := by
  obtain ⟨running, settled⟩ := isFinished_iff.mp finished
  apply (senders_eq_zero_iff counted).mpr
  exact ⟨running, fun w member => Worker.not_live_of_settled (settled w member)⟩

variable [Client σ ρ] {a : Action σ} {fs : List Event}

/-- Each step of the supervision itself leaves it with less to do. -/
theorem Step.steps_lt (step : Step s a fs t) (own : a.isOwn = true) (shut : s.SendsNothing) :
    t.steps < s.steps ∧ t.funnel.queue = s.funnel.queue := by
  cases step with
  | opened stage next => exact ⟨steps_opened stage next rfl (by simp) rfl, rfl⟩
  | openFailed stage next => exact ⟨steps_opened stage next rfl (by simp) rfl, rfl⟩
  | openCrashed stage next => exact ⟨steps_opened stage next rfl (by simp) rfl, rfl⟩
  | @started b reader rest stage =>
    refine ⟨?_, rfl⟩
    unfold steps
    simp only [stage, Stage.steps, Worker.steps, List.length_cons, List.map_append, List.map_cons,
      List.map_nil, List.sum_append_nat, List.sum_cons, List.sum_nil]
    omega
  | allStarted stage =>
    refine ⟨?_, rfl⟩
    unfold steps
    simp only [stage, Stage.steps, List.length_nil]
    omega
  | delivered worker => exact ⟨steps_set worker rfl rfl Nat.one_lt_two, rfl⟩
  | exhausted worker => exact ⟨steps_set worker rfl rfl Nat.two_pos, rfl⟩
  | readerFailed worker => exact ⟨steps_set worker rfl rfl Nat.two_pos, rfl⟩
  | workerCrashed worker => exact ⟨steps_set worker rfl rfl Nat.one_lt_two, rfl⟩
  | idled worker => exact ⟨steps_set worker rfl rfl Nat.two_pos, rfl⟩
  | sent worker going receiving => simp [SendsNothing, going, receiving] at shut
  | boundaryReached worker going receiving => simp [SendsNothing, going, receiving] at shut
  | funnelClosed worker => exact ⟨steps_set worker rfl rfl Nat.one_pos, rfl⟩
  | stopsReceiving worker => exact ⟨steps_set worker rfl rfl Nat.two_pos, rfl⟩
  | stopsSending worker => exact ⟨steps_set worker rfl rfl Nat.one_pos, rfl⟩
  | joined worker => exact ⟨steps_set worker rfl rfl Nat.one_pos, rfl⟩
  | _ => cases own

/-- As long as not all is done there is a step to take, if the workers have been told to stop or none
of them may send any more. -/
theorem exists_step_of_unfinished (counted : s.Counted)
    (proper : ∀ waiting opened, s.stage = .opening waiting opened → waiting ≠ [])
    (told : s.coordination.closing = true ∨ s.funnel.senders = 0)
    (unfinished : s.isFinished = false) :
    ∃ a : Action σ, a.isOwn = true ∧ (s.step a).isSome = true := by
  cases stage : s.stage with
  | opening waiting opened =>
    cases waiting with
    | nil => exact absurd rfl (proper [] opened stage)
    | cons b rest => exact ⟨.openReader 0, rfl, by simp [step, stage]⟩
  | starting opened =>
    refine ⟨.start, rfl, ?_⟩
    cases opened <;> simp [step, stage]
  | running =>
    simp only [isFinished, stage, Bool.true_and, List.all_eq_false] at unfinished
    obtain ⟨w, member, unsettled⟩ := unfinished
    obtain ⟨i, found⟩ := List.mem_iff_getElem?.mp member
    have closing (live : w.isLive = true) : s.coordination.closing = true := by
      refine told.resolve_right ?_
      intro none_left
      rw [no_live_of_senders counted none_left member] at live
      cases live
    obtain ⟨b, phase⟩ := w
    cases phase with
    | receiving reader since =>
      exact ⟨.work i, rfl, by simp [step, work, found, receive, closing rfl]⟩
    | sending reader m =>
      exact ⟨.work i, rfl, by simp [step, work, found, send, closing rfl]⟩
    | stopped reason => exact absurd rfl unsettled
    | crashed reported =>
      cases reported with
      | true => exact absurd rfl unsettled
      | false => exact ⟨.join i, rfl, by simp [step, found]⟩

end

end Supervision

namespace Drain

variable {κ : Type}

/-- How many steps the output may still take when it gets no more than what is queued. -/
def steps (d : Drain κ) (f : Funnel) : Nat :=
  match d.phase with
  | .direct (some _) _ => 2 * f.queue.length + 2
  | .direct none _ => 2 * f.queue.length + 1
  | .collecting w => 2 * f.queue.length + w.entries.length + 2
  | .emptying rest _ => rest.length + 1
  | .finished _ => 0

theorem length_insert_le (w : TailWindow) (m : Message) :
    (w.insert m).entries.length ≤ w.entries.length + 1 := by
  have parts := congrArg List.length
    (List.takeWhile_append_dropWhile (p := fun e => !TailWindow.isOlder e.2 m) (l := w.entries))
  rw [List.length_append] at parts
  simp only [TailWindow.insert, List.length_take, List.length_append, List.length_cons]
  omega

theorem length_ascending (w : TailWindow) : w.ascending.length = w.entries.length := by
  simp [TailWindow.ascending]

variable [Sink κ] {d : Drain κ} {c : Coordination} {f : Funnel} {o : Outcome κ}

/-- Each step of the output leaves it with less to do. -/
theorem Step.steps_lt (step : Step d c f o) : o.drain.steps o.funnel < d.steps f := by
  cases step with
  | took phase going queue =>
    simp only [steps, phase, queue, List.length_cons]
    omega
  | @kept w m rest phase queue =>
    have grown := length_insert_le w m
    simp only [steps, phase, queue, List.length_cons]
    omega
  | @collected w phase queue =>
    simp only [steps, phase, queue, length_ascending, List.length_nil]
    omega
  | _ => simp_all [steps]

end Drain

namespace Run

variable {σ ρ κ : Type} [Client σ ρ] [Sink κ] {request : Request} {chain : Chain} {client : σ}
  {sink : κ} {actions : List (Action σ)} {events fs : List Event} {r s t : Run σ ρ κ}

/-- Whether a run is bound to return, in whatever order steps are taken and whatever happens beside
it: the number of its own steps is bounded, and until it has returned one of them can be taken. -/
def BoundToReturn (r : Run σ ρ κ) : Prop :=
  ∃ bound, ∀ (actions : List (Action σ)) (events : List Event) (s : Run σ ρ κ),
    Reaches Moves r actions events s → actions.countP Action.isOwn ≤ bound ∧
      (s.result? = none → ∃ a fs t, a.isOwn = true ∧ Moves s a fs t)

def Stage.steps : Stage → Nat
  | .draining => 2
  | .joining _ => 1
  | _ => 0

def steps (r : Run σ ρ κ) : Nat :=
  r.stage.steps + r.supervision.steps + r.drain.steps r.supervision.funnel

/-- The workers are told to stop when the output has failed, and as long as readers are being opened
there are some to open. -/
structure Orderly (r : Run σ ρ κ) : Prop where
  opening : ∀ waiting opened, r.supervision.stage = .opening waiting opened → waiting ≠ []
  failed : ∀ e, r.stage = .joining (.error e) → r.supervision.coordination.closing = true

/-- A run that is under way and is closing, or whose output has failed. -/
def Ending (r : Run σ ρ κ) : Prop :=
  r.isActive = true ∧
    (r.supervision.coordination.closing = true ∨ ∃ e, r.drain.phase = .finished (.error e))

omit [Sink κ] in
theorem orderly_begin : (begin request chain client sink : Run σ ρ κ).Orderly := by
  obtain ⟨client', stage, opening, same⟩ := begin_cases (ρ := ρ) request chain client sink
  rw [same]
  refine ⟨?_, ?_⟩
  · simp [Supervision.ofBounds, Supervision.Stage.after]
  · intro e joining
    cases opening <;> cases joining

theorem Orderly.step {a : Action σ} (h : r.Orderly) (step : Step r a fs t) : t.Orderly := by
  cases step with
  | unresolved => exact ⟨h.opening, by simp⟩
  | resolved => exact ⟨h.opening, by simp⟩
  | resolvedLast => exact ⟨fun _ _ => Supervision.opening_after, by simp⟩
  | supervised allowed step =>
    refine ⟨?_, fun e stage => step.closing_mono (h.failed e stage)⟩
    cases step with
    | opened | openFailed | openCrashed => exact fun _ _ => Supervision.opening_after
    | started | allStarted => simp
    | _ => exact h.opening
  | drained active step => exact ⟨h.opening, fun e stage => step.closing_mono (h.failed e stage)⟩
  | outputEnded => exact ⟨h.opening, by simp⟩
  | outputFailed => exact ⟨h.opening, fun _ _ => rfl⟩
  | returned => exact ⟨h.opening, by simp⟩

theorem orderly_of_reaches
    (run : Reaches Moves (begin request chain client sink) actions events r) : r.Orderly := by
  induction run with
  | refl => exact orderly_begin
  | next before move ih => exact ih.step (step_cases move)

namespace Ending

omit [Client σ ρ] [Sink κ] in
/-- Output that has failed does not listen. -/
theorem sendsNothing (h : r.Ending) (accounts : r.Accounts events) : r.supervision.SendsNothing := by
  refine h.2.imp_right ?_
  rintro ⟨e, phase⟩
  have listening := accounts.listening
  rw [phase] at listening
  exact listening

omit [Sink κ] in
/-- What comes from outside leaves the run where it is. -/
theorem beside {a : Supervision.Action σ} {supervision : Supervision σ ρ}
    (allowed : r.allows a = true) (foreign : a.isOwn = false)
    (step : Supervision.Step r.supervision a fs supervision) :
    steps { r with supervision } = r.steps := by
  cases step with
  | taken => cases allowed
  | deafened => cases allowed
  | shutDown | changed | advanced => rfl
  | _ => cases foreign

/-- Each step of the run itself brings it nearer to its end. -/
theorem step (h : r.Ending) (accounts : r.Accounts events) {a : Action σ} (step : Step r a fs t) :
    (t.Ending ∨ ∃ result, t.stage = .returned result) ∧
      t.steps + (if a.isOwn then 1 else 0) ≤ r.steps := by
  have active := h.1
  cases step with
  | unresolved stage => simp [isActive, stage] at active
  | resolved stage => simp [isActive, stage] at active
  | resolvedLast stage => simp [isActive, stage] at active
  | @supervised a _ supervision allowed step =>
    refine ⟨.inl ⟨active, h.2.imp_left step.closing_mono⟩, ?_⟩
    cases own : a.isOwn with
    | false => simp [beside allowed own step, Action.isOwn, own]
    | true =>
      obtain ⟨fewer, queue⟩ := step.steps_lt own (h.sendsNothing accounts)
      have same : r.drain.steps supervision.funnel = r.drain.steps r.supervision.funnel := by
        unfold Drain.steps
        rw [queue]
      simp only [steps, same, Action.isOwn, own, if_true]
      omega
  | @drained o _ step =>
    have closing : r.supervision.coordination.closing = true := by
      refine h.2.resolve_right ?_
      rintro ⟨e, phase⟩
      exact step.unfinished _ phase
    refine ⟨.inl ⟨active, .inl (step.closing_mono closing)⟩, ?_⟩
    have fewer := step.steps_lt
    simp only [steps, Supervision.steps, Action.isOwn, if_true]
    omega
  | outputEnded stage =>
    refine ⟨.inl ⟨rfl, h.2⟩, ?_⟩
    simp only [steps, stage, Stage.steps, Action.isOwn, if_true]
    omega
  | outputFailed stage =>
    refine ⟨.inl ⟨rfl, .inl rfl⟩, ?_⟩
    simp only [steps, stage, Stage.steps, Action.isOwn, if_true, shutdown, Supervision.steps]
    omega
  | returned stage =>
    refine ⟨.inr ⟨_, rfl⟩, ?_⟩
    simp only [steps, stage, Stage.steps, Action.isOwn, if_true, shutdown, Supervision.steps]
    omega

/-- Until it has returned, the run can go on by itself. -/
theorem exists_step (h : r.Ending) (accounts : r.Accounts events) (orderly : r.Orderly) :
    ∃ (a : Action σ) (fs : List Event) (t : Run σ ρ κ), a.isOwn = true ∧ Moves r a fs t := by
  obtain ⟨active, ending⟩ := h
  have possible (a : Action σ) (own : a.isOwn = true) (some : (r.step a).isSome = true) :
      ∃ (a : Action σ) (fs : List Event) (t : Run σ ρ κ), a.isOwn = true ∧ Moves r a fs t := by
    obtain ⟨⟨t, fs⟩, next⟩ := Option.isSome_iff_exists.mp some
    exact ⟨a, fs, t, own, next⟩
  have inner (told : r.supervision.coordination.closing = true ∨ r.supervision.funnel.senders = 0)
      (unfinished : r.supervision.isFinished = false) :
      ∃ (a : Action σ) (fs : List Event) (t : Run σ ρ κ), a.isOwn = true ∧ Moves r a fs t := by
    obtain ⟨a, own, some⟩ := Supervision.exists_step_of_unfinished accounts.counted orderly.opening
      told unfinished
    have allowed : r.allows a = true := by
      cases a <;> first | exact active | cases own
    exact possible (.supervise a) own (by simpa [Run.step, allowed] using some)
  cases stage : r.stage with
  | draining =>
    cases ended : r.drain.result? with
    | some result =>
      refine possible .settle rfl ?_
      cases result <;> simp [Run.step, settle, stage, ended]
    | none =>
      have closing : r.supervision.coordination.closing = true := by
        refine ending.resolve_right ?_
        rintro ⟨e, phase⟩
        simp [Drain.result?, phase] at ended
      cases stuck : r.drain.step r.supervision.coordination r.supervision.funnel with
      | some o => exact possible .drain rfl (by simp [Run.step, active, stuck])
      | none =>
        obtain ⟨_, going⟩ := Drain.waits_of_stuck ended stuck
        refine inner (.inl closing) (Bool.eq_false_iff.mpr ?_)
        intro finished
        exact going (Supervision.senders_of_finished accounts.counted finished)
  | joining drained =>
    cases finished : r.supervision.isFinished with
    | true => exact possible .settle rfl (by simp [Run.step, settle, stage, finished])
    | false =>
      refine inner ?_ finished
      cases drained with
      | error e => exact .inl (orderly.failed e stage)
      | ok n =>
        have listening := accounts.listening
        rw [accounts.joining _ stage] at listening
        exact listening.2
  | _ => simp [isActive, stage] at active

end Ending

/-- A run that is closing, or whose output has failed, is bound to return. -/
theorem Ending.bound_to_return (h : r.Ending)
    (run : Reaches Moves (begin request chain client sink) actions events r) :
    r.BoundToReturn := by
  refine ⟨r.steps, ?_⟩
  intro more later s rest
  have state : ((s.Ending ∧ s.Accounts (events ++ later)) ∨ ∃ result, s.stage = .returned result) ∧
      more.countP Action.isOwn + s.steps ≤ r.steps := by
    have start : r.Accounts (events ++ []) := by
      rw [List.append_nil]
      exact accounts_of_reaches run
    apply rest.descent
    · exact ⟨h, start⟩
    · rintro t es a fs u ⟨result, returned⟩ move
      exact (step_cases move).not_returned _ returned
    · rintro t es a fs u ⟨ending, accounts⟩ move
      obtain ⟨state, fewer⟩ := ending.step accounts (step_cases move)
      refine ⟨state.imp_left fun ending => ⟨ending, ?_⟩, fewer⟩
      rw [← List.append_assoc]
      exact accounts.step (step_cases move)
  refine ⟨by omega, ?_⟩
  intro unfinished
  rcases state.1 with ⟨ending, accounts⟩ | ⟨result, returned⟩
  · exact ending.exists_step accounts (orderly_of_reaches (run.trans rest))
  · simp [result?, returned] at unfinished

end Run
end TopicReader
