import TopicReader.Engine.Supervision

/-! The steps of a supervision, one case for each way in which one may go. All that is proved about
workers goes through these cases and not through the step function. -/
namespace TopicReader.Supervision

/-- What a supervision does by itself, as opposed to what comes from outside. -/
def Action.isOwn {σ : Type} : Action σ → Bool
  | .openReader _ | .start | .work _ | .join _ => true
  | _ => false

/-- One worker gets from one phase to another. What it shares with others may change, and nothing
else does. -/
structure Turns {σ ρ : Type} (s t : Supervision σ ρ) (i : Nat) (b : Bound)
    (old new : Worker.Phase ρ) : Prop where
  worker : s.workers[i]? = some ⟨b, old⟩
  workers : t.workers = s.workers.set i ⟨b, new⟩
  stage : t.stage = s.stage
  topic : t.topic = s.topic
  idle : t.idle = s.idle
  clock : t.clock = s.clock

variable {σ ρ : Type} [Client σ ρ]

inductive Step (s : Supervision σ ρ) : Action σ → List Event → Supervision σ ρ → Prop where
  | opened {i waiting done b reader client} (stage : s.stage = .opening waiting done)
      (next : waiting[i]? = some b)
      (answer : Client.openReader s.topic b.partition b.start s.client = (.opened reader, client)) :
      Step s (.openReader i) [.opening b.partition b.start]
        { s with client, stage := .after (waiting.eraseIdx i) (done ++ [(b, reader)]) }
  | openFailed {i waiting done b e client} (stage : s.stage = .opening waiting done)
      (next : waiting[i]? = some b)
      (answer : Client.openReader s.topic b.partition b.start s.client = (.failed e, client)) :
      Step s (.openReader i)
        (.opening b.partition b.start :: .warned (.notStarted b.partition e) :: s.recordEvents e)
        { s.record e with client, stage := .after (waiting.eraseIdx i) done }
  | openCrashed {i waiting done b client} (stage : s.stage = .opening waiting done)
      (next : waiting[i]? = some b)
      (answer : Client.openReader s.topic b.partition b.start s.client = (.crashed, client)) :
      Step s (.openReader i) (.opening b.partition b.start :: s.recordEvents crashError)
        { s.record crashError with client, stage := .after (waiting.eraseIdx i) done }
  | started {b reader rest} (stage : s.stage = .starting ((b, reader) :: rest)) :
      Step s .start []
        { s with
          workers := s.workers ++ [⟨b, .receiving reader s.clock⟩]
          funnel := s.funnel.addSender
          stage := .starting rest }
  | allStarted (stage : s.stage = .starting []) :
      Step s .start [] { s with funnel := s.funnel.dropSender, stage := .running }
  | delivered {i b reader since r m} (worker : s.workers[i]? = some ⟨b, .receiving reader since⟩)
      (going : s.coordination.closing = false) (answer : s.answer? reader since = some r)
      (message : r.delivery = .message m) :
      Step s (.work i) [.received b.partition m] (s.setWorker i b (.sending r.reader m))
  | exhausted {i b reader since r} (worker : s.workers[i]? = some ⟨b, .receiving reader since⟩)
      (going : s.coordination.closing = false) (answer : s.answer? reader since = some r)
      (ended : r.delivery = .ended) :
      Step s (.work i) [.stopped b.partition .exhausted] (s.stop i b .exhausted).1
  | readerFailed {i b reader since r e} (worker : s.workers[i]? = some ⟨b, .receiving reader since⟩)
      (going : s.coordination.closing = false) (answer : s.answer? reader since = some r)
      (failed : r.delivery = .failed e) :
      Step s (.work i) (s.recordEvents e ++ [.stopped b.partition .readerFailed])
        ((s.record e).stop i b .readerFailed).1
  | workerCrashed {i b reader since r} (worker : s.workers[i]? = some ⟨b, .receiving reader since⟩)
      (going : s.coordination.closing = false) (answer : s.answer? reader since = some r)
      (crashed : r.delivery = .crashed) :
      Step s (.work i) [.crashed b.partition]
        { s.setWorker i b (.crashed false) with funnel := s.funnel.dropSender }
  | idled {i b reader since} (worker : s.workers[i]? = some ⟨b, .receiving reader since⟩)
      (going : s.coordination.closing = false) (silent : s.answer? reader since = none)
      (late : s.idle.any (since + · ≤ s.clock)) :
      Step s (.work i) [.warned (.quiet b.partition), .stopped b.partition .idle] (s.stop i b .idle).1
  | sent {i b reader m} (worker : s.workers[i]? = some ⟨b, .sending reader m⟩)
      (going : s.coordination.closing = false) (receiving : s.funnel.receiving = true)
      (room : s.funnel.hasRoom = true) (within : b.reachedBy m.offset = false) :
      Step s (.work i) [.forwarded b.partition m]
        ({ s with funnel := s.funnel.push m }.setWorker i b (.receiving reader s.clock))
  | boundaryReached {i b reader m} (worker : s.workers[i]? = some ⟨b, .sending reader m⟩)
      (going : s.coordination.closing = false) (receiving : s.funnel.receiving = true)
      (room : s.funnel.hasRoom = true) (last : b.reachedBy m.offset = true) :
      Step s (.work i) [.forwarded b.partition m, .stopped b.partition .boundaryReached]
        (Supervision.stop { s with funnel := s.funnel.push m } i b .boundaryReached).1
  | funnelClosed {i b reader m} (worker : s.workers[i]? = some ⟨b, .sending reader m⟩)
      (going : s.coordination.closing = false) (deaf : s.funnel.receiving = false) :
      Step s (.work i) [.stopped b.partition .funnelClosed] (s.stop i b .funnelClosed).1
  | stopsReceiving {i b reader since} (worker : s.workers[i]? = some ⟨b, .receiving reader since⟩)
      (closing : s.coordination.closing = true) :
      Step s (.work i) [.stopped b.partition .shutdown] (s.stop i b .shutdown).1
  | stopsSending {i b reader m} (worker : s.workers[i]? = some ⟨b, .sending reader m⟩)
      (closing : s.coordination.closing = true) :
      Step s (.work i) [.stopped b.partition .shutdown] (s.stop i b .shutdown).1
  | joined {i b} (worker : s.workers[i]? = some ⟨b, .crashed false⟩) :
      Step s (.join i) (s.recordEvents crashError)
        ((s.record crashError).setWorker i b (.crashed true))
  | taken {m funnel} (next : s.funnel.take? = some (m, funnel)) :
      Step s .take [.taken m] { s with funnel }
  | deafened (receiving : s.funnel.receiving = true) :
      Step s .dropReceiver [] { s with funnel := s.funnel.dropReceiver }
  | shutDown : Step s .shutdown [.closing] { s with coordination := s.coordination.shutdown }
  | changed {f} : Step s (.change f) [] { s with client := f s.client }
  | advanced {clock} (later : s.clock < clock) (due : ∀ due ∈ s.dues, clock ≤ due) :
      Step s (.advance clock) [] { s with clock }

variable {s t : Supervision σ ρ} {events : List Event}

theorem openReader_cases {i : Nat} (h : s.step (.openReader i) = some (t, events)) :
    Step s (.openReader i) events t := by
  simp only [step] at h
  split at h
  · rename_i waiting done stage
    obtain ⟨b, next, same⟩ := Option.map_eq_some_iff.mp h
    unfold openReader at same
    cases answer : Client.openReader s.topic b.partition b.start s.client with
    | mk opening client =>
      rw [answer] at same
      cases opening with
      | opened reader =>
        cases same
        exact .opened stage next answer
      | failed e =>
        cases same
        exact .openFailed stage next answer
      | crashed =>
        cases same
        exact .openCrashed stage next answer
  · contradiction

theorem receive_cases {i : Nat} {b : Bound} {reader : ρ} {since : Nat}
    (worker : s.workers[i]? = some ⟨b, .receiving reader since⟩)
    (h : s.receive i b reader since = some (t, events)) : Step s (.work i) events t := by
  unfold receive at h
  split at h
  · rename_i closing
    cases h
    exact .stopsReceiving worker closing
  · rename_i going
    have going : s.coordination.closing = false := by simpa using going
    split at h
    · rename_i r answer
      split at h
      · rename_i m message
        cases h
        exact .delivered worker going answer message
      · rename_i ended
        cases h
        exact .exhausted worker going answer ended
      · rename_i e failed
        cases h
        exact .readerFailed worker going answer failed
      · rename_i crashed
        cases h
        exact .workerCrashed worker going answer crashed
    · rename_i silent
      split at h
      · rename_i late
        cases h
        exact .idled worker going silent late
      · contradiction

theorem send_cases {i : Nat} {b : Bound} {reader : ρ} {m : Message}
    (worker : s.workers[i]? = some ⟨b, .sending reader m⟩)
    (h : s.send i b reader m = some (t, events)) : Step s (.work i) events t := by
  unfold send at h
  split at h
  · rename_i closing
    cases h
    exact .stopsSending worker closing
  · rename_i going
    have going : s.coordination.closing = false := by simpa using going
    split at h
    · rename_i deaf
      cases h
      exact .funnelClosed worker going (by simpa using deaf)
    · rename_i receiving
      have receiving : s.funnel.receiving = true := by simpa using receiving
      split at h
      · rename_i room
        simp only at h
        split at h
        · rename_i last
          cases h
          exact .boundaryReached worker going receiving room last
        · rename_i within
          cases h
          exact .sent worker going receiving room (by simpa using within)
      · contradiction

theorem work_cases {i : Nat} (h : s.step (.work i) = some (t, events)) :
    Step s (.work i) events t := by
  simp only [step, work] at h
  split at h
  · rename_i worker
    exact receive_cases worker h
  · rename_i worker
    exact send_cases worker h
  · contradiction

/-- Every step is one of the cases. -/
theorem step_cases {a : Action σ} (h : s.step a = some (t, events)) : Step s a events t := by
  cases a with
  | openReader i => exact openReader_cases h
  | start =>
    simp only [step] at h
    split at h
    · rename_i stage
      cases h
      exact .started stage
    · rename_i stage
      cases h
      exact .allStarted stage
    · contradiction
  | work i => exact work_cases h
  | join i =>
    simp only [step] at h
    split at h
    · rename_i worker
      cases h
      exact .joined worker
    · contradiction
  | take =>
    obtain ⟨⟨m, funnel⟩, next, same⟩ := Option.map_eq_some_iff.mp h
    cases same
    exact .taken next
  | dropReceiver =>
    simp only [step] at h
    split at h
    · rename_i receiving
      cases h
      exact .deafened receiving
    · contradiction
  | shutdown =>
    cases h
    exact .shutDown
  | change f =>
    cases h
    exact .changed
  | advance clock =>
    simp only [step] at h
    split at h
    · rename_i allowed
      cases h
      exact .advanced allowed.1 allowed.2
    · contradiction

end TopicReader.Supervision
