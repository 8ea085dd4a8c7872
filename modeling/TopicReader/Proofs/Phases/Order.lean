import TopicReader.Proofs.Outcome.Verdict
import TopicReader.Proofs.Tail.Output

/-! The order in which the parts of a run go on. No reader is asked for a message before all of them
have been opened, and the output sees the funnel closed only when no worker is left that may send and
all that was sent has been taken out. -/
namespace TopicReader

namespace Event

@[simp] def opening? : Event → Option (Int × Int)
  | .opening partition start => some (partition, start)
  | _ => none

attribute [simp] taken?

end Event

/-- The partitions that were asked to open, with the offsets at which they were to start. -/
def openings (events : List Event) : List (Int × Int) := events.filterMap Event.opening?

/-- The messages that the output took out of the funnel. -/
def drawn (events : List Event) : List Message := events.filterMap Event.taken?

section
variable {e : Event} {es fs : List Event}

@[simp] theorem openings_nil : openings [] = [] := rfl

@[simp] theorem drawn_nil : drawn [] = [] := rfl

@[simp] theorem openings_cons : openings (e :: es) = e.opening?.toList ++ openings es :=
  filterMap_cons_toList

@[simp] theorem drawn_cons : drawn (e :: es) = e.taken?.toList ++ drawn es := filterMap_cons_toList

@[simp] theorem openings_append : openings (es ++ fs) = openings es ++ openings fs :=
  List.filterMap_append

@[simp] theorem drawn_append : drawn (es ++ fs) = drawn es ++ drawn fs := List.filterMap_append

@[simp] theorem openings_recordEvents (c : Coordination) (e : RunError) :
    openings (c.recordEvents e) = [] := by
  by_cases free : c.isFree <;>
    simp [Coordination.recordEvents, Coordination.recordWarnings, free]

@[simp] theorem drawn_recordEvents (c : Coordination) (e : RunError) :
    drawn (c.recordEvents e) = [] := by
  by_cases free : c.isFree <;>
    simp [Coordination.recordEvents, Coordination.recordWarnings, free]

end

namespace Supervision

variable {σ ρ : Type} [Client σ ρ] {s t : Supervision σ ρ} {a : Action σ} {fs : List Event}

namespace Step

/-- Once all readers have been opened, no other one is. -/
theorem openings_eq (step : Step s a fs t)
    (opened : ∀ waiting done, s.stage ≠ .opening waiting done) :
    (∀ waiting done, t.stage ≠ .opening waiting done) ∧ openings fs = [] := by
  cases step with
  | opened stage => exact absurd stage (opened _ _)
  | openFailed stage => exact absurd stage (opened _ _)
  | openCrashed stage => exact absurd stage (opened _ _)
  | started => exact ⟨by simp, rfl⟩
  | allStarted => exact ⟨by simp, rfl⟩
  | readerFailed | joined => exact ⟨opened, by simp [recordEvents]⟩
  | _ => exact ⟨opened, rfl⟩

/-- As long as readers are being opened nobody is at work. -/
theorem workers_of_opening (step : Step s a fs t)
    (idle : ∀ waiting done, s.stage = .opening waiting done → s.workers = []) :
    ∀ waiting done, t.stage = .opening waiting done → t.workers = [] := by
  have replaced {i : Nat} {w : Worker ρ} :
      ∀ waiting done, s.stage = .opening waiting done → s.workers.set i w = [] := by
    intro waiting done stage
    rw [idle waiting done stage, List.set_nil]
  cases step with
  | opened stage => exact fun _ _ _ => idle _ _ stage
  | openFailed stage => exact fun _ _ _ => idle _ _ stage
  | openCrashed stage => exact fun _ _ _ => idle _ _ stage
  | started => simp
  | allStarted => simp
  | taken | deafened | shutDown | changed | advanced => exact idle
  | _ => exact replaced

/-- Nothing is sent while the run is closing, or when nobody listens. -/
theorem forwarded_of_sendsNothing (step : Step s a fs t) (shut : s.SendsNothing) : forwarded fs = [] := by
  cases step with
  | sent worker going receiving => simp [SendsNothing, going, receiving] at shut
  | boundaryReached worker going receiving => simp [SendsNothing, going, receiving] at shut
  | _ => simp [recordEvents]

/-- Messages are taken out only by the output. -/
theorem drawn_eq (step : Step s a fs t) (not_take : a ≠ .take) : drawn fs = [] := by
  cases step with
  | taken => exact absurd rfl not_take
  | _ => simp [recordEvents]

end Step

end Supervision

namespace Drain

/-- Where the messages are that have entered the funnel, as far as the output has not dropped it: the
first of them have been taken out, and the others are queued. -/
def Phase.Places (entered out : List Message) (c : Coordination) (f : Funnel) : Phase → Prop
  | .direct _ _ | .collecting _ => entered = out ++ f.queue
  | .emptying _ _ => entered = out ∧ f.queue = []
  | .finished (.ok _) => c.closing = true ∨ entered = out
  | .finished (.error _) => True

variable {κ : Type} [Sink κ] {d : Drain κ} {c : Coordination} {f : Funnel} {o : Outcome κ}
  {entered out : List Message}

theorem Step.places (step : Step d c f o) (h : d.phase.Places entered out c f) :
    o.drain.phase.Places entered (out ++ drawn o.events) o.coordination o.funnel := by
  cases step with
  | wrote phase | undecodableFirst phase | undecodableLater phase | wroteKept phase
  | undecodableKept phase =>
    rw [phase] at h
    simpa [Phase.Places] using h
  | refused | refusedKept => trivial
  | halted phase closing => exact .inl closing
  | took phase going queue | kept phase queue =>
    rw [phase] at h
    simpa [Phase.Places, queue] using h
  | ended phase going queue closed =>
    rw [phase] at h
    exact .inr (by simpa [Phase.Places, queue] using h)
  | collected phase queue closed =>
    rw [phase] at h
    simpa [Phase.Places, queue] using h
  | emptied phase =>
    rw [phase] at h
    exact .inr (by simpa using h.1)

omit [Sink κ] in
/-- A run that closes leaves the messages in their places. -/
theorem Phase.Places.shut {phase : Phase} (h : phase.Places entered out c f) :
    phase.Places entered out c.shutdown f := by
  cases phase with
  | finished result =>
    cases result with
    | ok n => exact .inl rfl
    | error e => trivial
  | _ => exact h

end Drain

/-- What workers send goes to the end of the queue, as long as the output listens. -/
theorem Supervision.Step.places {σ ρ : Type} [Client σ ρ] {s t : Supervision σ ρ}
    {a : Supervision.Action σ} {fs : List Event} {phase : Drain.Phase} {entered out : List Message}
    (step : Step s a fs t) (h : phase.Places entered out s.coordination s.funnel)
    (listening : phase.Listening s.coordination s.funnel) (counted : s.Counted)
    (not_take : a ≠ .take) (not_drop : a ≠ .dropReceiver) :
    phase.Places (entered ++ (forwarded fs).map (·.2)) (out ++ drawn fs) t.coordination
      t.funnel := by
  have queue : t.funnel.queue = s.funnel.queue ++ (forwarded fs).map (·.2) := by
    rcases (step.queue_eq not_take not_drop).2 with ⟨none_sent, same⟩ | ⟨x, sent, queue, _⟩
    · simp [none_sent, same]
    · simp [sent, queue]
  rw [step.drawn_eq not_take, List.append_nil]
  cases phase with
  | direct hand n | collecting w =>
    show _ = out ++ t.funnel.queue
    rw [queue, ← List.append_assoc, show entered = out ++ s.funnel.queue from h]
  | emptying rest n =>
    rw [step.forwarded_of_senders counted listening.2, List.map_nil, List.append_nil] at queue ⊢
    exact ⟨h.1, queue.trans h.2⟩
  | finished result =>
    cases result with
    | ok n =>
      rw [step.forwarded_of_sendsNothing (.inr listening.1), List.map_nil, List.append_nil]
      exact h.imp_left step.closing_mono
    | error e => trivial

namespace Run

variable {σ ρ κ : Type} [Client σ ρ] [Sink κ] {request : Request} {chain : Chain} {client : σ}
  {sink : κ} {actions more : List (Action σ)} {events later fs : List Event} {r s t : Run σ ρ κ}
  {a : Action σ}

/-- A run in which all readers have been opened. -/
structure Reading (r : Run σ ρ κ) : Prop where
  resolved : ∀ waiting bounds, r.stage ≠ .resolving waiting bounds
  opened : ∀ waiting done, r.supervision.stage ≠ .opening waiting done

theorem Reading.step (h : r.Reading) (step : Step r a fs t) : t.Reading ∧ openings fs = [] := by
  cases step with
  | unresolved stage => exact absurd stage (h.resolved _ _)
  | resolved stage => exact absurd stage (h.resolved _ _)
  | resolvedLast stage => exact absurd stage (h.resolved _ _)
  | supervised allowed step =>
    obtain ⟨opened, none_opened⟩ := step.openings_eq h.opened
    exact ⟨⟨h.resolved, opened⟩, none_opened⟩
  | drained active step =>
    refine ⟨⟨h.resolved, h.opened⟩, ?_⟩
    cases step <;> simp
  | outputEnded | outputFailed | returned => exact ⟨⟨by simp, h.opened⟩, rfl⟩

theorem Reading.reaches (h : r.Reading) (rest : Reaches Moves r more later s) :
    s.Reading ∧ openings later = [] := by
  induction rest with
  | refl => exact ⟨h, rfl⟩
  | next before move ih =>
    obtain ⟨reading, none_opened⟩ := ih.1.step (step_cases move)
    exact ⟨reading, by rw [openings_append, ih.2, none_opened]; rfl⟩

theorem workers_of_opening (run : Reaches Moves (begin request chain client sink) actions events r) :
    ∀ waiting done, r.supervision.stage = .opening waiting done → r.supervision.workers = [] := by
  induction run with
  | refl =>
    obtain ⟨client', stage, opening, same⟩ := begin_cases (ρ := ρ) request chain client sink
    intro _ _ _
    rw [same]
    rfl
  | next before move ih =>
    have accounts := accounts_of_reaches before
    cases step_cases move with
    | resolvedLast stage => exact fun _ _ _ => (accounts.resolving _ _ stage).1
    | supervised allowed step => exact step.workers_of_opening ih
    | _ => exact ih

/-- A run that has workers has opened all readers. -/
theorem reading_of_worker (run : Reaches Moves (begin request chain client sink) actions events r)
    {w : Worker ρ} (member : w ∈ r.supervision.workers) : r.Reading := by
  refine ⟨?_, ?_⟩
  · intro waiting bounds stage
    rw [((accounts_of_reaches run).resolving waiting bounds stage).1] at member
    cases member
  · intro waiting done stage
    rw [workers_of_opening run waiting done stage] at member
    cases member

theorem Step.places (step : Step r a fs t) (accounts : r.Accounts events)
    (h : r.drain.phase.Places (entered events) (drawn events) r.supervision.coordination
      r.supervision.funnel) :
    t.drain.phase.Places (entered (events ++ fs)) (drawn (events ++ fs))
      t.supervision.coordination t.supervision.funnel := by
  rw [entered_append, drawn_append]
  cases step with
  | drained active step => simpa [entered, step.forwarded_eq] using step.places h
  | supervised allowed step =>
    exact step.places h accounts.listening accounts.counted (by rintro rfl; cases allowed)
      (by rintro rfl; cases allowed)
  | outputFailed | returned => simpa [entered, shutdown] using h.shut
  | _ => simpa [entered] using h

theorem places_of_reaches
    (run : Reaches Moves (begin request chain client sink) actions events r) :
    r.drain.phase.Places (entered events) (drawn events) r.supervision.coordination
      r.supervision.funnel := by
  induction run with
  | refl =>
    obtain ⟨client', stage, opening, same⟩ := begin_cases (ρ := ρ) request chain client sink
    rw [same]
    cases request.tail <;> rfl
  | next before move ih => exact (step_cases move).places (accounts_of_reaches before) ih

omit [Client σ ρ] [Sink κ] in
/-- Output that has not ended has taken out all but what is queued. -/
theorem entered_eq (places : r.drain.phase.Places (entered events) (drawn events)
    r.supervision.coordination r.supervision.funnel) (going : r.drain.result? = none) :
    entered events = drawn events ++ r.supervision.funnel.queue := by
  cases phase : r.drain.phase with
  | direct | collecting =>
    rw [phase] at places
    exact places
  | emptying =>
    rw [phase] at places
    rw [places.2, List.append_nil]
    exact places.1
  | finished => simp [Drain.result?, phase] at going

/-- Output that ends well in a run that is not closing has taken out everything, and nobody can send
any more. -/
theorem all_drawn (run : Reaches Moves (begin request chain client sink) actions events r)
    (ended : r.drain.result?.isSome = true) (going : r.supervision.coordination.closing = false)
    (unrefused : refusals events = []) :
    drawn events = entered events ∧ r.supervision.funnel.receiving = false ∧
      r.supervision.funnel.senders = 0 := by
  have accounts := accounts_of_reaches run
  have places := places_of_reaches run
  have output := (recordsFailures_of_reaches run).output
  have listening := accounts.listening
  obtain ⟨result, ended⟩ := Option.isSome_iff_exists.mp ended
  rw [Drain.phase_of_result? ended] at output places listening
  cases result with
  | ok n =>
    have not_closing : r.supervision.coordination.closing ≠ true := by simp [going]
    exact ⟨(places.resolve_left not_closing).symm, listening.1,
      listening.2.resolve_left not_closing⟩
  | error e =>
    obtain ⟨x, _, refused⟩ := output
    simp [unrefused] at refused

/-- Nothing is sent any more by a run that is closing or whose output does not listen. -/
theorem Step.sendsNothing (step : Step r a fs t) (h : r.supervision.SendsNothing) :
    t.supervision.SendsNothing ∧ forwarded fs = [] := by
  cases step with
  | supervised allowed step =>
    refine ⟨h.imp step.closing_mono fun deaf => ?_, step.forwarded_of_sendsNothing h⟩
    exact (step.queue_eq (by rintro rfl; cases allowed) (by rintro rfl; cases allowed)).1.trans deaf
  | drained active step =>
    refine ⟨h.imp step.closing_mono fun deaf => ?_, step.forwarded_eq⟩
    cases step <;> first | rfl | exact deaf
  | outputFailed | returned => exact ⟨.inl rfl, rfl⟩
  | _ => exact ⟨h, rfl⟩

theorem sendsNothing_of_reaches (h : r.supervision.SendsNothing) (rest : Reaches Moves r more later s) :
    s.supervision.SendsNothing ∧ forwarded later = [] := by
  induction rest with
  | refl => exact ⟨h, rfl⟩
  | next before move ih =>
    obtain ⟨shut, silent⟩ := (step_cases move).sendsNothing ih.1
    exact ⟨shut, by rw [forwarded_append, ih.2, silent]; rfl⟩

/-- Readers are asked for messages only after all of them were opened. Output that ends undisturbed
does so when all workers have ended and the funnel is empty. -/
theorem phases_in_order (run : Reaches Moves (begin request chain client sink) actions events r) :
    (r.supervision.workers ≠ [] ∨ received events ≠ [] →
      r.Reading ∧ ∀ more later s, Reaches Moves r more later s → s.Reading ∧ openings later = []) ∧
    (r.drain.result? = none →
      (r.supervision.funnel.isClosed = true ↔
        r.supervision.stage = .running ∧ (∀ w ∈ r.supervision.workers, w.isLive = false) ∧
          drawn events = entered events)) ∧
    (r.drain.result?.isSome = true → r.supervision.coordination.closing = false →
      refusals events = [] →
      r.supervision.stage = .running ∧ (∀ w ∈ r.supervision.workers, w.isLive = false) ∧
        drawn events = entered events ∧
          ∀ more later s, Reaches Moves r more later s → forwarded later = []) := by
  have accounts := accounts_of_reaches run
  have senders := Supervision.senders_eq_zero_iff accounts.counted
  refine ⟨?_, ?_, ?_⟩
  · intro asked
    have working : r.supervision.workers ≠ [] := by
      refine asked.elim id fun some none_works => some ?_
      obtain ⟨x, member⟩ := List.exists_mem_of_ne_nil _ some
      have silent := (accounts.ledger.silent x.1 (by simp [none_works])).2
      have delivered : x.2 ∈ ofPartition x.1 (received events) := mem_ofPartition.mpr member
      simp [silent] at delivered
    obtain ⟨w, member⟩ := List.exists_mem_of_ne_nil _ working
    have reading := reading_of_worker run member
    exact ⟨reading, fun _ _ _ rest => reading.reaches rest⟩
  · intro going
    have entered_eq := entered_eq (places_of_reaches run) going
    rw [← and_assoc, ← senders, entered_eq, Funnel.isClosed]
    simp [and_comm]
  · intro ended open_ unrefused
    obtain ⟨everything, deaf, none_left⟩ := all_drawn run ended open_ unrefused
    obtain ⟨running, done⟩ := senders.mp none_left
    exact ⟨running, done, everything, fun _ _ _ rest => (sendsNothing_of_reaches (.inr deaf) rest).2⟩

/-- One partition cannot be opened, and two messages of the other one are read up to its end. -/
def halfOpened : Run Script (List Script.Step) Memory :=
  begin { topic := "t", fromBeginning := true, exit := true } .default
    (faulty (.failing (.opening 0 "no leader"))) {}

/-- Its steps up to the one in which the output ends. -/
def halfOpenedSteps : List (Action Script) :=
  untilRejected 0 ++ [.drain, .drain, .supervise (.advance 10), .supervise (.work 0),
    .supervise (.work 0), .drain, .drain, .drain]

/-- Both messages have been taken out when the output ends, and no worker is left. -/
theorem halfOpened_in_order :
    ∃ (r : Run Script (List Script.Step) Memory) (events : List Event),
      Reaches Moves halfOpened halfOpenedSteps events r ∧
      openings events = [(0, 0), (1, 0)] ∧ (entered events).map (·.offset) = [0, 1] ∧
      drawn events = entered events ∧ r.supervision.workers.length = 1 ∧ r.Reading ∧
      ∀ w ∈ r.supervision.workers, w.isLive = false := by
  have replayed : (halfOpened.replay halfOpenedSteps).any (fun (r, events) =>
      r.drain.result?.isSome && r.supervision.coordination.closing = false &&
        refusals events = [] && openings events = [(0, 0), (1, 0)] &&
          (entered events).map (·.offset) = [0, 1] &&
            r.supervision.workers.length = 1) = true := by
    cbv
  obtain ⟨r, events, run, seen⟩ := exists_of_replay replayed
  simp only [Bool.and_eq_true, decide_eq_true_eq] at seen
  obtain ⟨⟨⟨⟨⟨ended, going⟩, unrefused⟩, opened⟩, offsets⟩, one⟩ := seen
  obtain ⟨asked, _, closed⟩ := phases_in_order run
  obtain ⟨_, done, everything, _⟩ := closed ended going unrefused
  have working : r.supervision.workers ≠ [] := by
    intro none_works
    simp [none_works] at one
  exact ⟨r, events, run, opened, offsets, everything, one, (asked (.inl working)).1, done⟩

end Run
end TopicReader
