import TopicReader.Proofs.Engine.DecodeFailure
import TopicReader.Proofs.Outcome.Closing
import TopicReader.Proofs.Snapshot.Output
import TopicReader.Proofs.Tail.Window

/-! The output of a tail. In whatever order messages enter the funnel, and whatever happens to the
run meanwhile, the newest of them are written, oldest first. What cannot be decoded is reported and
left out; only a sink that fails keeps the rest from being written. -/
namespace TopicReader

theorem Sink.after?_append {κ : Type} [Sink κ] {sink before after : κ} {records : List Record}
    {r : Record} (took : after? sink records = some before)
    (given : (Sink.emit r).run before = (.ok (), after)) :
    after? sink (records ++ [r]) = some after := by
  induction records generalizing sink with
  | nil =>
    cases took
    simp [after?, given]
  | cons x rest ih =>
    unfold after? at took
    split at took
    · rename_i next answer
      rw [List.cons_append, after?, answer]
      exact ih took
    · cases took

/-- Only a worker that holds a sending end can send. -/
theorem Supervision.Step.forwarded_of_senders {σ ρ : Type} [Client σ ρ] {s t : Supervision σ ρ}
    {a : Action σ} {fs : List Event} (step : Step s a fs t) (counted : s.Counted)
    (none_left : s.funnel.senders = 0) : forwarded fs = [] := by
  have idle {i : Nat} {b : Bound} {reader : ρ} {m : Message}
      (worker : s.workers[i]? = some ⟨b, .sending reader m⟩) : False := by
    have live := no_live_of_senders counted none_left (List.mem_of_getElem? worker)
    cases live
  cases step with
  | sent worker => exact (idle worker).elim
  | boundaryReached worker => exact (idle worker).elim
  | _ => simp [recordEvents]

namespace Drain

variable {κ : Type} [Sink κ]

/-- Where the output of a tail of `n` messages stands when some messages have entered the funnel, and
what it has written by then. Nothing can enter any more once it has begun to write. -/
inductive Standing (n : Nat) (chain : Chain) (sink : κ) (d : Drain κ) (c : Coordination) (f : Funnel)
    (entered : List Message) : List Record → Prop where
  /-- All that has left the funnel was given to the window. -/
  | collecting {taken} (phase : d.phase = .collecting (.ofMessages n taken)) (untouched : d.sink = sink)
      (queued : entered = taken ++ f.queue) : Standing n chain sink d c f entered []
  /-- A part of the newest messages has been dealt with. -/
  | emptying {done rest written k} (phase : d.phase = .emptying rest k) (closed : f.senders = 0)
      (newest : TailWindow.newest n entered = done ++ rest)
      (decoded : written = done.filterMap chain.record?) (count : k = written.length)
      (took : Sink.after? sink written = some d.sink)
      (failed : (∃ m ∈ done, chain.record? m = none) → c.firstError ≠ none) :
      Standing n chain sink d c f entered written
  /-- All of them have been dealt with. -/
  | ended {written k} (phase : d.phase = .finished (.ok k)) (closed : f.senders = 0)
      (decoded : written = (TailWindow.newest n entered).filterMap chain.record?)
      (count : k = written.length) (took : Sink.after? sink written = some d.sink)
      (failed : (∃ m ∈ TailWindow.newest n entered, chain.record? m = none) →
        c.firstError ≠ none) :
      Standing n chain sink d c f entered written
  /-- The sink has failed on the record of one of them. -/
  | broken {done m rest written r e before} (phase : d.phase = .finished (.error (.output e)))
      (closed : f.senders = 0) (newest : TailWindow.newest n entered = done ++ m :: rest)
      (decoded : written = done.filterMap chain.record?)
      (took : Sink.after? sink written = some before) (next : chain.record m = .ok r)
      (refused : (Sink.emit r).run before = (.error e, d.sink))
      (failed : (∃ m ∈ done, chain.record? m = none) → c.firstError ≠ none) :
      Standing n chain sink d c f entered written

variable {n : Nat} {chain : Chain} {sink : κ} {d : Drain κ} {c c' : Coordination} {f g : Funnel}
  {entered : List Message} {written : List Record} {o : Outcome κ}

/-- What workers do to the funnel while it is being emptied. -/
theorem Standing.feed (h : Standing n chain sink d c f entered written) {more : List Message}
    (queue : g.queue = f.queue ++ more)
    (closed : f.senders = 0 → g.senders = 0 ∧ more = [])
    (first : c.firstError ≠ none → c'.firstError ≠ none) :
    Standing n chain sink d c' g (entered ++ more) written := by
  cases h with
  | collecting phase untouched queued =>
    exact .collecting phase untouched (by rw [queued, queue, List.append_assoc])
  | emptying phase none_left newest decoded count took failed =>
    obtain ⟨still, rfl⟩ := closed none_left
    rw [List.append_nil]
    exact .emptying phase still newest decoded count took fun some => first (failed some)
  | ended phase none_left decoded count took failed =>
    obtain ⟨still, rfl⟩ := closed none_left
    rw [List.append_nil]
    exact .ended phase still decoded count took fun some => first (failed some)
  | broken phase none_left newest decoded took next refused failed =>
    obtain ⟨still, rfl⟩ := closed none_left
    rw [List.append_nil]
    exact .broken phase still newest decoded took next refused fun some => first (failed some)

theorem Step.chain_eq (step : Step d c f o) : o.drain.chain = d.chain := by
  cases step <;> rfl

theorem Step.standing (step : Step d c f o) (h : Standing n d.chain sink d c f entered written) :
    Standing n d.chain sink o.drain o.coordination o.funnel entered (written ++ emitted o.events) := by
  cases h with
  | @collecting taken phase untouched queued =>
    cases step with
    | @kept w m rest holding queue =>
      obtain rfl := Phase.collecting.inj (phase.symm.trans holding)
      have queued : entered = (taken ++ [m]) ++ rest := by
        rw [queued, queue, List.append_assoc]
        rfl
      refine .collecting ?_ untouched queued
      rw [TailWindow.ofMessages_append]
    | @collected w holding queue closed =>
      obtain rfl := Phase.collecting.inj (phase.symm.trans holding)
      have newest : TailWindow.newest n entered = [] ++ (TailWindow.ofMessages n taken).ascending := by
        rw [queued, queue, List.append_nil, TailWindow.ascending_ofMessages]
        rfl
      exact .emptying rfl closed newest rfl rfl (by rw [untouched]; rfl) (by simp)
    | _ => simp_all
  | @emptying done rest written k phase closed newest decoded count took failed =>
    cases step with
    | @wroteKept m tail k' r after holding ok given =>
      obtain ⟨rfl, rfl⟩ := Phase.emptying.inj (phase.symm.trans holding)
      have record := Chain.record?_of_ok ok
      have newest : TailWindow.newest n entered = (done ++ [m]) ++ tail := by
        rw [newest, List.append_assoc]
        rfl
      refine .emptying rfl closed newest ?_ ?_ (Sink.after?_append took given) ?_
      · simp [decoded, record]
      · simp [count]
      · rintro ⟨x, member, undecodable⟩
        refine failed ⟨x, ?_, undecodable⟩
        refine (List.mem_append.mp member).resolve_right ?_
        intro last
        rw [List.mem_singleton.mp last, record] at undecodable
        cases undecodable
    | @refusedKept m tail k' r e after holding ok broken =>
      obtain ⟨rfl, rfl⟩ := Phase.emptying.inj (phase.symm.trans holding)
      have silent : emitted [.refused e] = [] := rfl
      rw [silent, List.append_nil]
      exact .broken rfl closed newest decoded took ok broken failed
    | @undecodableKept m tail k' e holding error =>
      obtain ⟨rfl, rfl⟩ := Phase.emptying.inj (phase.symm.trans holding)
      have silent : emitted (.warned (.undecodable m.partition m.offset e) ::
          c.recordEvents (.decoding m.partition m.offset e)) = [] := by simp
      rw [silent, List.append_nil]
      have newest : TailWindow.newest n entered = (done ++ [m]) ++ tail := by
        rw [newest, List.append_assoc]
        rfl
      refine .emptying rfl closed newest ?_ count took fun _ => ?_
      · simp [decoded, Chain.record?_of_error error]
      · simp
    | emptied holding =>
      obtain ⟨rfl, rfl⟩ := Phase.emptying.inj (phase.symm.trans holding)
      rw [List.append_nil] at newest
      rw [emitted_nil, List.append_nil]
      exact .ended rfl closed (newest ▸ decoded) count took (newest ▸ failed)
    | _ => simp_all
  | ended phase => exact absurd phase (step.unfinished _)
  | broken phase => exact absurd phase (step.unfinished _)

end Drain

namespace Run

variable {σ ρ κ : Type} [Client σ ρ] [Sink κ] {request : Request} {chain : Chain} {client : σ}
  {sink : κ} {actions : List (Action σ)} {events fs : List Event} {r s t : Run σ ρ κ}
  {a : Action σ} {n : Nat}

/-- The messages that entered the funnel. -/
def entered (events : List Event) : List Message := (forwarded events).map (·.2)

omit [Client σ ρ] [Sink κ] in
theorem entered_append : entered (events ++ fs) = entered events ++ entered fs := by
  rw [entered, forwarded_append, List.map_append]
  rfl

/-- Where the output of a run stands that writes the newest messages. The run does not end before it
has written them. -/
structure Tailing (n : Nat) (chain : Chain) (sink : κ) (r : Run σ ρ κ) (events : List Event) :
    Prop where
  chained : r.drain.chain = chain
  output : r.drain.Standing n chain sink r.supervision.coordination r.supervision.funnel
    (entered events) (emitted events)
  writing : ∀ rest k, r.drain.phase = .emptying rest k → r.stage = .draining

omit [Client σ ρ] in
/-- A step that moves no message. -/
theorem Tailing.frame (h : r.Tailing n chain sink events) (drain : t.drain = r.drain)
    (funnel : t.supervision.funnel = r.supervision.funnel)
    (first : t.supervision.coordination.firstError = r.supervision.coordination.firstError)
    (none_sent : forwarded fs = []) (none_written : emitted fs = [])
    (writing : ∀ rest k, r.drain.phase = .emptying rest k → t.stage = .draining) :
    t.Tailing n chain sink (events ++ fs) := by
  refine ⟨drain ▸ h.chained, ?_, drain ▸ writing⟩
  rw [entered_append, emitted_append, none_written, List.append_nil, drain, funnel]
  refine h.output.feed (by simp [entered, none_sent]) (by simp [entered, none_sent]) ?_
  rw [first]
  exact id

theorem Tailing.step (h : r.Tailing n chain sink events) (accounts : r.Accounts events)
    (step : Step r a fs t) : t.Tailing n chain sink (events ++ fs) := by
  have idle {stage : Stage} (now : r.stage = stage) (other : stage ≠ .draining) :
      ∀ rest k, r.drain.phase = .emptying rest k → t.stage = .draining := by
    intro rest k phase
    exact absurd (now.symm.trans (h.writing rest k phase)) other
  have finished {result : Except RunError Nat} (ended : r.drain.result? = some result) :
      ∀ rest k, r.drain.phase = .emptying rest k → t.stage = .draining := by
    intro rest k phase
    simp [Drain.result?, phase] at ended
  cases step with
  | unresolved stage => exact h.frame rfl rfl rfl rfl rfl (idle stage (by simp))
  | resolved stage => exact h.frame rfl rfl rfl rfl rfl (idle stage (by simp))
  | resolvedLast stage => exact h.frame rfl rfl rfl rfl rfl (idle stage (by simp))
  | @supervised a _ supervision allowed step =>
    have not_take : a ≠ .take := by
      rintro rfl
      cases allowed
    have not_drop : a ≠ .dropReceiver := by
      rintro rfl
      cases allowed
    refine ⟨h.chained, ?_, h.writing⟩
    rw [entered_append, emitted_append, step.emitted_eq, List.append_nil]
    refine h.output.feed ?_ ?_ ?_
    · rcases (step.queue_eq not_take not_drop).2 with ⟨none_sent, same⟩ | ⟨x, sent, queue, _⟩
      · simp [entered, none_sent, same]
      · simp [entered, sent, queue]
    · intro none_left
      refine ⟨step.senders_zero accounts.counted none_left, ?_⟩
      simp [entered, step.forwarded_of_senders accounts.counted none_left]
    · intro some
      obtain ⟨e, slot⟩ := Option.ne_none_iff_exists'.mp some
      simp [step.firstError_eq slot]
  | @drained o active step =>
    have draining : r.stage = .draining := by
      cases stage : r.stage with
      | draining => rfl
      | joining drained => exact absurd (accounts.joining drained stage) (step.unfinished drained)
      | _ => simp [isActive, stage] at active
    have output := step.standing (h.chained ▸ h.output)
    refine ⟨step.chain_eq.trans h.chained, ?_, fun _ _ _ => draining⟩
    rw [entered_append, emitted_append, entered, entered, step.forwarded_eq, List.map_nil,
      List.append_nil, ← h.chained]
    exact output
  | outputEnded stage result => exact h.frame rfl rfl rfl rfl rfl (finished result)
  | outputFailed stage result => exact h.frame rfl rfl rfl rfl rfl (finished result)
  | returned stage => exact h.frame rfl rfl rfl rfl rfl (idle stage (by simp))

theorem tailing_of_reaches (tail : request.tail = some n)
    (run : Reaches Moves (begin request chain client sink) actions events r) :
    r.Tailing n chain sink events := by
  induction run with
  | refl =>
    obtain ⟨client', stage, opening, same⟩ := begin_cases (ρ := ρ) request chain client sink
    rw [same, tail]
    have waiting : (Drain.ofTail chain sink (some n)).phase = .collecting (.ofMessages n []) := rfl
    refine ⟨rfl, .collecting waiting rfl rfl, ?_⟩
    intro rest k phase
    cases phase
  | next before move ih => exact ih.step (accounts_of_reaches before) (step_cases move)

/-- A message that cannot be decoded is reported and left out, and the run goes on. Its error is kept
if there is none yet. -/
theorem Tailing.reports (h : r.Tailing n chain sink events) {m : Message} {rest : List Message}
    {k : Nat} {e : DecodeError} (phase : r.drain.phase = .emptying (m :: rest) k)
    (undecodable : chain.record m = .error e) :
    ∃ t : Run σ ρ κ, Moves r .drain
        (.warned (.undecodable m.partition m.offset e) ::
          r.supervision.coordination.recordEvents (.decoding m.partition m.offset e)) t ∧
      t.drain.phase = .emptying rest k ∧ t.drain.sink = r.drain.sink ∧ t.stage = r.stage ∧
      t.supervision.coordination.closing = r.supervision.coordination.closing ∧
      t.supervision.coordination.firstError =
        some (r.supervision.coordination.firstError.getD (.decoding m.partition m.offset e)) := by
  have next : r.drain.step r.supervision.coordination r.supervision.funnel =
      some ⟨{ r.drain with phase := .emptying rest k },
        r.supervision.coordination.record (.decoding m.partition m.offset e), r.supervision.funnel,
        .warned (.undecodable m.partition m.offset e) ::
          r.supervision.coordination.recordEvents (.decoding m.partition m.offset e)⟩ := by
    simp only [Drain.step, phase, Drain.writeKept, h.chained, undecodable]
  exact ⟨_, moves_drain (h.writing _ _ phase) next, rfl, rfl, rfl,
    Coordination.closing_record _ _, Coordination.firstError_record _ _⟩

/-- Once nothing can enter the funnel any more, the output comes to its end by itself. -/
theorem exists_drained (stage : r.stage = .draining) (closed : r.supervision.funnel.senders = 0) :
    ∃ j later t, Reaches Moves r (List.replicate j .drain) later t ∧
      t.drain.result?.isSome = true := by
  induction left : r.drain.steps r.supervision.funnel using Nat.strongRecOn generalizing r with
  | ind left ih =>
    cases ended : r.drain.result? with
    | some result => exact ⟨0, [], r, .refl, by simp [ended]⟩
    | none =>
      cases next : r.drain.step r.supervision.coordination r.supervision.funnel with
      | none => exact absurd closed (Drain.waits_of_stuck ended next).2
      | some o =>
        have step := Drain.step_cases next
        have fewer := step.steps_lt
        obtain ⟨j, later, t, run, done⟩ := ih _ (left ▸ fewer)
          (r := { r with
            drain := o.drain
            supervision.coordination := o.coordination
            supervision.funnel := o.funnel })
          stage (step.senders_eq.trans closed) rfl
        have first : Reaches Moves r ([] ++ [.drain]) ([] ++ o.events) _ :=
          .next .refl (moves_drain stage next)
        exact ⟨j + 1, _, t, first.trans run, done⟩

/-- The output of a run for the last messages has written the newest of those that entered the
funnel, oldest first, as far as it has come. An undecodable message keeps no other from it. -/
theorem tail_writes_newest (tail : request.tail = some n)
    (run : Reaches Moves (begin request chain client sink) actions events r) :
    r.drain.Standing n chain sink r.supervision.coordination r.supervision.funnel (entered events)
      (emitted events) ∧
    (TailWindow.newest n (entered events)).length = min n (entered events).length ∧
    (∀ m rest k e, r.drain.phase = .emptying (m :: rest) k → chain.record m = .error e →
      ∃ t : Run σ ρ κ, Moves r .drain
          (.warned (.undecodable m.partition m.offset e) ::
            r.supervision.coordination.recordEvents (.decoding m.partition m.offset e)) t ∧
        t.drain.phase = .emptying rest k ∧ t.drain.sink = r.drain.sink ∧ t.stage = r.stage ∧
        t.supervision.coordination.closing = r.supervision.coordination.closing ∧
        t.supervision.coordination.firstError =
          some (r.supervision.coordination.firstError.getD (.decoding m.partition m.offset e))) ∧
    (r.stage = .draining → r.supervision.funnel.senders = 0 →
      ∃ j later t, Reaches Moves r (List.replicate j .drain) later t ∧
        t.drain.result?.isSome = true) := by
  have tailing := tailing_of_reaches tail run
  refine ⟨tailing.output, TailWindow.length_newest, ?_, exists_drained⟩
  intro m rest k e phase undecodable
  exact tailing.reports phase undecodable

/-- A message with a time, one that is older and cannot be decoded, and one without a time. -/
def mixed : Script where
  parts := [
    { id := 0, oldest := some 0, newest := some 2,
      steps := [
        .deliver (.message { partition := 0, offset := 0, timestamp := some ⟨2, 0⟩ }),
        .deliver (.message
          { partition := 0, offset := 1, value := some [0x21], timestamp := some ⟨1, 0⟩ })] },
    { id := 1, oldest := some 0, newest := some 1,
      steps := [.deliver (.message { partition := 1, offset := 0 })] }]

/-- The last two messages are read. -/
def lastTwo : Request := { topic := "t", tail := some 2 }

/-- Its steps. Shutdown is requested while the last message is queued. -/
def lastTwoSteps : List (Action Script) :=
  [.resolve 0, .resolve 0, .supervise (.openReader 0), .supervise (.openReader 0),
    .supervise .start, .supervise .start, .supervise .start, .supervise (.work 0),
    .supervise (.work 0), .drain, .supervise (.work 0), .supervise (.work 0), .drain,
    .supervise (.work 1), .supervise (.work 1), .supervise .shutdown, .drain, .drain, .drain, .drain,
    .drain, .settle, .settle]

/-- Of the last two of three messages the one that can be decoded is written. -/
theorem mixed_last_two :
    ∃ (s : Run Script (List Script.Step) Memory) (events : List Event),
      Reaches Moves (begin lastTwo strict mixed {}) lastTwoSteps events s ∧
      s.result? = some (.error (.decoding 0 1 ⟨"strict", "rejected"⟩)) ∧
      (entered events).map (·.partition) = [0, 0, 1] ∧
      emitted events = (TailWindow.newest 2 (entered events)).filterMap strict.record? ∧
      (emitted events).map (·.offset) = [0] := by
  have replayed : ((begin lastTwo strict mixed ({} : Memory)).replay lastTwoSteps).any
      (fun (s, events) => s.result? = some (.error (.decoding 0 1 ⟨"strict", "rejected"⟩)) &&
        s.drain.result? = some (.ok 1) && (entered events).map (·.partition) = [0, 0, 1] &&
          (emitted events).map (·.offset) = [0]) = true := by
    cbv
  obtain ⟨s, events, run, seen⟩ := exists_of_replay replayed
  simp only [Bool.and_eq_true, decide_eq_true_eq] at seen
  obtain ⟨⟨⟨returned, ended⟩, arrived⟩, written⟩ := seen
  refine ⟨s, events, run, returned, arrived, ?_, written⟩
  have phase := Drain.phase_of_result? ended
  have standing := (tail_writes_newest (n := 2) rfl run).1
  generalize emitted events = records at standing ⊢
  cases standing with
  | ended _ _ decoded => exact decoded
  | _ => simp_all

end Run
end TopicReader
