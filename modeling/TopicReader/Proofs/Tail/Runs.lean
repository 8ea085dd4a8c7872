import TopicReader.Proofs.Tail.Output
import TopicReader.Proofs.Tail.Selection

/-! A run that shows the last messages of a topic and that nothing hinders. It reads only the end of
each log, and yet writes the latest messages of all. -/
namespace TopicReader

/-- A sink that takes everything still does so after it has taken some records. -/
theorem Sink.Accepts.after {κ : Type} [Sink κ] {sink next : κ} (h : Accepts sink)
    {records : List Record} (took : after? sink records = some next) : Accepts next := by
  induction records generalizing sink with
  | nil =>
    cases took
    exact h
  | cons r rest ih =>
    obtain ⟨after, given, accepts⟩ := h.emit r
    rw [after?, given] at took
    exact ih accepts took

/-- Where all messages can be decoded, each has a record with its timestamp. -/
theorem map_timestamp_records {chain : Chain} {ms : List Message}
    (decoded : ∀ m ∈ ms, ∃ r, chain.record m = .ok r) :
    (ms.filterMap chain.record?).map (·.timestamp) = ms.map (·.timestamp) := by
  induction ms with
  | nil => rfl
  | cons m rest ih =>
    obtain ⟨r, ok⟩ := decoded m List.mem_cons_self
    have shorter := ih fun x member => decoded x (List.mem_cons_of_mem m member)
    rw [List.filterMap_cons_some (Chain.record?_of_ok ok), List.map_cons, List.map_cons, shorter,
      (Chain.record_fields ok).2.2]

namespace Drain

variable {κ : Type} [Sink κ] {n : Nat} {chain : Chain} {sink : κ} {d : Drain κ} {c : Coordination}
  {f : Funnel} {entered : List Message} {written : List Record} {o : Outcome κ}

/-- How many steps the output of a tail may take without taking another message. -/
def rest (d : Drain κ) : Nat :=
  match d.phase with
  | .collecting w => w.entries.length + 2
  | .emptying rest _ => rest.length + 1
  | _ => 0

/-- Output that has failed or been told to stop has not got so far: if it has ended, it has written
the newest messages. -/
theorem Standing.ended_well (h : Standing n chain sink d c f entered written)
    (accepts : Sink.Accepts sink) {result : Except RunError Nat} (ended : d.phase = .finished result) :
    (∃ k, result = .ok k) ∧ f.senders = 0 ∧
      written = (TailWindow.newest n entered).filterMap chain.record? := by
  cases h with
  | collecting phase => simp [phase] at ended
  | emptying phase => simp [phase] at ended
  | @ended written k phase closed decoded =>
    rw [phase] at ended
    cases ended
    exact ⟨⟨k, rfl⟩, closed, decoded⟩
  | broken phase closed newest decoded took next refused =>
    obtain ⟨after, given, _⟩ := (accepts.after took).emit _
    rw [refused] at given
    cases given

/-- Where every message can be decoded and every record is taken, nothing goes wrong. -/
theorem Standing.calm (h : Standing n d.chain sink d {} f entered written)
    (accepts : Sink.Accepts sink) (decodes : ∀ m ∈ entered, ∃ r, d.chain.record m = .ok r)
    (step : Step d {} f o) :
    o.coordination = {} ∧ o.funnel.capacity = f.capacity ∧
      o.drain.rest + 2 * o.funnel.queue.length < d.rest + 2 * f.queue.length := by
  cases h with
  | collecting phase =>
    cases step with
    | @kept w m rest holding queue =>
      have grown := length_insert_le w m
      refine ⟨rfl, rfl, ?_⟩
      simp only [Drain.rest, holding, queue, List.length_cons]
      omega
    | @collected w holding queue closed =>
      refine ⟨rfl, rfl, ?_⟩
      simp only [Drain.rest, holding, queue, length_ascending]
      omega
    | _ => simp_all
  | emptying phase closed newest decoded count took =>
    have decodable {m : Message} {rest : List Message} {k : Nat}
        (holding : d.phase = .emptying (m :: rest) k) : ∃ r, d.chain.record m = .ok r := by
      obtain ⟨rfl, rfl⟩ := Phase.emptying.inj (phase.symm.trans holding)
      refine decodes m (TailWindow.mem_of_mem_newest (n := n) ?_)
      simp [newest]
    cases step with
    | wroteKept holding =>
      refine ⟨rfl, rfl, ?_⟩
      simp only [Drain.rest, holding, List.length_cons]
      omega
    | refusedKept holding ok broken =>
      obtain ⟨after, given, _⟩ := (accepts.after took).emit _
      rw [broken] at given
      cases given
    | undecodableKept holding failed =>
      obtain ⟨r, ok⟩ := decodable holding
      rw [failed] at ok
      cases ok
    | emptied holding =>
      refine ⟨rfl, rfl, ?_⟩
      simp only [Drain.rest, holding, Funnel.dropReceiver, List.length_nil]
      omega
    | _ => simp_all
  | ended phase => exact absurd phase (step.unfinished _)
  | broken phase => exact absurd phase (step.unfinished _)

end Drain

namespace Run

variable {κ : Type} [Sink κ] {n : Nat} {init : LogStore} {request : Request} {chain : Chain}
  {sink : κ} {r t : Run LogStore LogReader κ} {events fs : List Event}

/-- A valid request for the last messages, of partitions that the topic has. Nothing stands in the way
of reading them: their logs have no gaps and do not get older, no failure has been planted, their
messages can be decoded, and the sink takes all records. -/
structure Unobstructed (n : Nat) (init : LogStore) (request : Request) (chain : Chain) (sink : κ) :
    Prop where
  tail : request.tail = some n
  valid : request.validate = .ok ()
  held : ∃ p, (init.log? request.topic p).isSome = true
  known : ∀ p ∈ request.partitions, (init.log? request.topic p).isSome = true
  steady : ∀ p log, init.log? request.topic p = some log → log.Steady
  openings : init.openFailures = []
  offsets : init.offsetFailures = []
  decodes : ∀ p log, init.log? request.topic p = some log → ∀ m ∈ log.messages,
    ∃ r, chain.record m = .ok r
  accepts : Sink.Accepts sink

/-- A bound on the steps of the run itself that are left. -/
def remaining (n : Nat) (init : LogStore) (request : Request) (r : Run LogStore LogReader κ) : Nat :=
  ahead init (init.tailed request n) r + r.drain.rest

/-- A run that is under way with the bounds of a tail, with everything in its place. -/
structure Gathers (n : Nat) (init : LogStore) (request : Request) (chain : Chain) (sink : κ)
    (r : Run LogStore LogReader κ) (events : List Event) : Prop where
  asked : r.request = request
  underway : Underway init (init.tailed request n) r events
  tailing : r.Tailing n chain sink events

/-- Of each log no more than its end has been read. -/
def ReadsEnds (n : Nat) (init : LogStore) (request : Request) (events : List Event) : Prop :=
  ∀ p, ∀ m ∈ ofPartition p (received events),
    max (init.logOf request.topic p).oldest ((init.logOf request.topic p).newest - n) ≤ m.offset

/-- A run that has ended well and has written the latest messages. -/
structure Shows (n : Nat) (init : LogStore) (request : Request) (r : Run LogStore LogReader κ)
    (events : List Event) : Prop where
  stage : r.stage = .returned (.ok ())
  latest : (emitted events).map (·.timestamp) =
    TailWindow.latest n ((init.selected request).map (·.timestamp))
  ends : ReadsEnds n init request events

namespace Unobstructed

theorem steady_logOf (h : Unobstructed n init request chain sink) (p : Int) :
    (init.logOf request.topic p).Steady :=
  LogStore.logOf_induction ⟨by simp, Int.le_refl 0, fun _ => rfl, by simp, .nil⟩ (h.steady p)

theorem decodes_logOf (h : Unobstructed n init request chain sink) {p : Int} {m : Message}
    (member : m ∈ (init.logOf request.topic p).messages) : ∃ r, chain.record m = .ok r :=
  LogStore.logOf_induction (motive := fun log => ∀ m ∈ log.messages, ∃ r, chain.record m = .ok r)
    (by simp) (h.decodes p) m member

theorem begin_gathers (h : Unobstructed n init request chain sink) :
    Gathers n init request chain sink (begin request chain init sink) [] := by
  refine ⟨?_, underway_begin h.valid h.held h.known h.openings h.offsets rfl rfl,
    tailing_of_reaches h.tail .refl⟩
  rw [begin_eq h.valid h.held]

end Unobstructed

namespace Gathers

variable (h : Gathers n init request chain sink r events)
  (unobstructed : Unobstructed n init request chain sink)

include h unobstructed

/-- What has entered the funnel was in the logs, so it can be decoded. -/
theorem decodes {m : Message} (member : m ∈ entered events) : ∃ record, chain.record m = .ok record := by
  obtain ⟨⟨p, m⟩, sent, rfl⟩ := List.mem_map.mp member
  have ledger := h.underway.accounts.ledger
  have delivered := (ledger.forwarded_front p).subset (mem_ofPartition.mpr sent)
  exact unobstructed.decodes_logOf (h.underway.tracks.mem_logOf ledger delivered)

theorem readsEnds : ReadsEnds n init request events := by
  intro p m delivered
  have steady := unobstructed.steady_logOf p
  obtain ⟨held, late⟩ := List.mem_filter.mp
    (h.underway.tracks.mem_onward h.underway.accounts.ledger delivered)
  have known : (init.log? request.topic p).isSome = true := by
    cases found : init.log? request.topic p with
    | none => simp [LogStore.logOf, LogStore.tailed, found] at held
    | some log => rfl
  simp only [decide_eq_true_eq] at late
  rw [LogStore.boundOf_tailed known, steady.tail_start] at late
  have newest := steady.newest_eq
  omega

theorem serves : r.Serves Drain.rest := by
  have standing := h.tailing.output
  refine ⟨?_, ?_, ?_⟩
  · intro going
    have listening := h.underway.accounts.listening
    generalize emitted events = written at standing
    cases standing with
    | collecting phase =>
      rw [phase] at listening
      exact listening
    | emptying _ closed => exact absurd closed going
    | ended _ closed => exact absurd closed going
    | broken _ closed => exact absurd closed going
  · intro result phase
    obtain ⟨well, closed, _⟩ := standing.ended_well unobstructed.accepts phase
    exact ⟨well, closed⟩
  · intro o step
    rw [h.underway.tracks.calm, ← h.tailing.chained] at standing
    refine standing.calm unobstructed.accepts (fun m member => ?_) step
    rw [h.tailing.chained]
    exact h.decodes unobstructed member

/-- A bound is found in the store as it was. -/
theorem answer {p : Int} (waits : p ∈ r.stage.waiting) :
    (r.request.resolve p : Query LogStore Bound).run r.supervision.client =
      (.ok (init.boundOf (init.tailed request n) p),
        { r.supervision.client with fetches := r.supervision.client.fetches + 1 }) := by
  have selected := h.underway.selected waits
  have known : (init.log? request.topic p).isSome = true := selected.1
  have grown : init.Grown request.topic r.stage.waiting r.supervision.client :=
    h.underway.tracks.grown
  rw [h.asked, LogStore.resolve_tail unobstructed.valid unobstructed.tail grown.offsets
    (grown.known p known), grown.logOf_eq waits, LogStore.boundOf_tailed known]

/-- When a run returns, the messages that entered the funnel were the last ones of each log. -/
theorem shows_latest {k : Nat} (stage : r.stage = .joining (.ok k))
    (finished : r.supervision.isFinished = true) (well : t.stage = .returned (.ok ())) :
    Shows n init request t (events ++ [.closing]) := by
  have sent (p : Int) : ofPartition p (forwarded events) = init.demanded (init.tailed request n) p :=
    h.underway.forwarded_eq (fun p => (unobstructed.steady_logOf p).regular) stage finished p
  have chosen {p : Int} : p ∈ init.selection request ↔ init.Selects request p :=
    mem_selection unobstructed.known p
  have arrived : (entered events).Perm ((init.selection request).flatMap fun p =>
      (init.logOf request.topic p).last n) := by
    refine (perm_ofPartition (distinct_nodup _) ?_).trans (.of_eq (List.flatMap_congr ?_))
    · rintro ⟨p, m⟩ member
      rw [← mem_ofPartition, sent] at member
      have selects : init.Selects (init.tailed request n) p := LogStore.selects_of_demanded member
      exact chosen.mpr selects
    · intro p member
      rw [sent, LogStore.demanded_tailed (unobstructed.steady_logOf p) (chosen.mp member)]
  have written := (h.tailing.output.ended_well unobstructed.accepts
    (h.underway.accounts.joining _ stage)).2.2
  have decoded (m : Message) (member : m ∈ TailWindow.newest n (entered events)) :=
    h.decodes unobstructed (TailWindow.mem_of_mem_newest member)
  have same : emitted (events ++ [.closing]) = emitted events := by simp
  have ends := h.readsEnds unobstructed
  refine ⟨well, ?_, by simpa [ReadsEnds] using ends⟩
  rw [same, written, map_timestamp_records decoded, TailWindow.map_timestamp_newest,
    LogStore.latest_selected unobstructed.steady_logOf arrived]

theorem step {a : Action LogStore} (move : Proceeds r a fs t) :
    (Gathers n init request chain sink t (events ++ fs) ∨
        Shows n init request t (events ++ fs)) ∧
      remaining n init request t + (if a.isOwn then 1 else 0) ≤ remaining n init request r := by
  have step := step_cases move.1
  obtain ⟨state, fewer⟩ := h.underway.step (h.serves unobstructed)
    (fun p => (unobstructed.steady_logOf p).regular) (by rw [h.asked]; rfl)
    (fun p waits => h.answer unobstructed waits) move
  refine ⟨?_, fewer⟩
  rcases state with next | well
  · exact .inl ⟨step.frame.1.trans h.asked, next, h.tailing.step h.underway.accounts step⟩
  · obtain ⟨rfl, finished, _, k, stage⟩ := step.ended_well well
    exact .inr (h.shows_latest unobstructed stage finished well)

end Gathers

/-- Whatever happens beside it, a run that nothing obstructs is under way or has done its work, and each
of its steps so far was one of those that were left at its beginning. -/
theorem gathers_of_reaches (h : Unobstructed n init request chain sink)
    {actions : List (Action LogStore)}
    (run : Reaches Proceeds (begin request chain init sink) actions events r) :
    (Gathers n init request chain sink r events ∨ Shows n init request r events) ∧
      actions.countP Action.isOwn + remaining n init request r ≤
        remaining n init request (begin request chain init sink : Run LogStore LogReader κ) :=
  run.descent h.begin_gathers
    (fun _ _ _ _ _ shows move => (step_cases move.1).not_returned _ shows.stage)
    fun _ _ _ _ _ gathers move => gathers.step h move

/-- An unobstructed run for the last messages is bound to return without an error. It reads only the
ends of the logs, and yet writes the latest timestamps of all messages, in ascending order. -/
theorem tail_writes_latest (h : Unobstructed n init request chain sink) :
    ∃ bound, ∀ (actions : List (Action LogStore)) (events : List Event)
        (s : Run LogStore LogReader κ),
      Reaches Proceeds (begin request chain init sink) actions events s →
      actions.countP Action.isOwn ≤ bound ∧
      (s.result? = none → ∃ a fs t, a.isOwn = true ∧ Proceeds s a fs t) ∧
      ReadsEnds n init request events ∧
      ∀ result, s.result? = some result → result = .ok () ∧
        (emitted events).length = min n (init.selected request).length ∧
        (emitted events).map (·.timestamp) =
          TailWindow.latest n ((init.selected request).map (·.timestamp)) := by
  refine ⟨remaining n init request (begin request chain init sink : Run LogStore LogReader κ), ?_⟩
  intro actions events s run
  obtain ⟨state, counted⟩ := gathers_of_reaches h run
  refine ⟨by omega, ?_, ?_, ?_⟩
  · intro unfinished
    rcases state with gathers | shows
    · exact gathers.underway.exists_step (gathers.serves h)
        (fun p => (h.steady_logOf p).regular)
    · simp [result?, shows.stage] at unfinished
  · exact state.elim (fun gathers => gathers.readsEnds h) fun shows => shows.ends
  · intro result returned
    have ended := stage_of_result? returned
    rcases state with gathers | shows
    · exact absurd ended (gathers.underway.going result)
    · rw [shows.stage] at ended
      cases ended
      refine ⟨rfl, ?_, shows.latest⟩
      have lengths := congrArg List.length shows.latest
      simpa [TailWindow.length_latest] using lengths

/-- A message that says nothing but when it was written. -/
def timed (partition offset : Int) (seconds : Option Int) : Message :=
  { partition, offset, timestamp := seconds.map (⟨·, 0⟩) }

/-- A topic with two partitions. The first begins with a message without a timestamp. -/
def staggered : LogStore :=
  { logs := [(("t", 0), .ofMessages [timed 0 3 none, timed 0 4 (some 1), timed 0 5 (some 2)]),
      (("t", 1), .ofMessages [timed 1 0 (some 2)])] }

theorem staggered_logs {p : Int} {log : Log} (known : staggered.log? "t" p = some log) :
    log.Steady ∧ ∀ m ∈ log.messages, ∃ r, Chain.default.record m = .ok r := by
  have either : log = .ofMessages [timed 0 3 none, timed 0 4 (some 1), timed 0 5 (some 2)] ∨
      log = .ofMessages [timed 1 0 (some 2)] := by
    have held := LogStore.mem_logs_of_log? known
    simp only [staggered, List.mem_cons, Prod.mk.injEq, List.not_mem_nil, or_false] at held
    exact held.imp And.right And.right
  have decodes (p offset : Int) (seconds : Option Int) :
      ∃ r, Chain.default.record (timed p offset seconds) = .ok r := ⟨_, rfl⟩
  rcases either with rfl | rfl
  · refine ⟨⟨?_, by decide, by simp [Log.ofMessages], by decide, by decide⟩,
      by simp [Log.ofMessages, decodes]⟩
    intro i m found
    match i, found with
    | 0, rfl => rfl
    | 1, rfl => rfl
    | 2, rfl => rfl
  · refine ⟨⟨?_, by decide, by simp [Log.ofMessages], by decide, by decide⟩,
      by simp [Log.ofMessages, decodes]⟩
    intro i m found
    match i, found with
    | 0, rfl => rfl

theorem staggered_unobstructed :
    Unobstructed 2 staggered lastTwo .default ({} : Memory) where
  tail := rfl
  valid := by decide
  held := ⟨0, by decide⟩
  known := by simp [lastTwo]
  steady := fun p log known => (staggered_logs known).1
  openings := rfl
  offsets := rfl
  decodes := fun p log known => (staggered_logs known).2
  accepts := Sink.memory_accepts _

/-- The message of the second partition comes between those of the first. -/
def staggeredSteps : List (Action LogStore) :=
  [.resolve 0, .resolve 0, .supervise (.openReader 0), .supervise (.openReader 0),
    .supervise .start, .supervise .start, .supervise .start, .supervise (.work 0),
    .supervise (.work 0), .drain, .supervise (.work 1), .supervise (.work 1),
    .supervise (.work 0), .drain, .supervise (.work 0), .drain, .drain, .drain, .drain, .drain,
    .settle, .settle]

/-- Of the same time as the last message of the first partition, it is written as well. -/
theorem staggered_last_two :
    ∃ (s : Run LogStore LogReader Memory) (events : List Event),
      Reaches Proceeds (begin lastTwo .default staggered {}) staggeredSteps events s ∧
      s.result? = some (.ok ()) ∧
      (emitted events).map (fun r => (r.partition, r.offset)) = [(1, 0), (0, 5)] ∧
      (emitted events).map (·.timestamp) =
        TailWindow.latest 2 ((staggered.selected lastTwo).map (·.timestamp)) := by
  have replayed : ((begin (ρ := LogReader) lastTwo .default staggered ({} : Memory)).replay
      staggeredSteps).any (fun (s, events) => s.result? = some (.ok ()) &&
        (emitted events).map (fun r => (r.partition, r.offset)) = [(1, 0), (0, 5)]) = true := by
    cbv
  obtain ⟨⟨s, events⟩, last, seen⟩ := (Option.any_eq_true _ _).mp replayed
  simp only [Bool.and_eq_true, decide_eq_true_eq] at seen
  have run : Reaches Proceeds (begin lastTwo .default staggered {}) staggeredSteps events s :=
    (reaches_of_replay last (by decide)).mono fun step => ⟨step.1, .inl step.2⟩
  obtain ⟨bound, ends⟩ := tail_writes_latest staggered_unobstructed
  exact ⟨s, events, run, seen.1, seen.2, ((ends _ _ _ run).2.2.2 _ seen.1).2.2⟩

end Run
end TopicReader
