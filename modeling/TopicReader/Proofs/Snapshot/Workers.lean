import TopicReader.Proofs.Client.Stores
import TopicReader.Proofs.Engine.Effects

/-! Workers that read a store up to the ends that its logs had when the bounds were found. Each
follows its log message by message, whatever is appended meanwhile, and stops at the boundary. -/
namespace TopicReader

/-- The bound that a request with an end has in a partition of a store. -/
def LogStore.boundOf (s : LogStore) (request : Request) (p : Int) : Bound :=
  (s.logOf request.topic p).bound request p

/-- The bound of a partition as a store had it, with something to read. -/
structure LogStore.Wants (init : LogStore) (request : Request) (b : Bound) : Prop where
  same : b = init.boundOf request b.partition
  some : b.isEmpty = false

/-- Where a worker stands in the log that it reads, and what its reader has delivered by then. -/
def Worker.Phase.Follows (log : Log) (topic : String) (b : Bound) (clock : Nat)
    (delivered : List Message) : Worker.Phase LogReader → Prop
  | .receiving reader since =>
    since ≤ clock ∧ reader.topic = topic ∧ reader.partition = b.partition ∧
      b.start ≤ reader.next ∧ reader.next < log.newest ∧
        delivered = log.between b.start reader.next
  | .sending reader m =>
    reader.topic = topic ∧ reader.partition = b.partition ∧ reader.next = m.offset + 1 ∧
      b.start ≤ m.offset ∧ m ∈ log.messages ∧ delivered = log.between b.start (m.offset + 1)
  | .stopped _ => delivered = log.onward b.start
  | .crashed _ => False

namespace LogStore.Wants

variable {init : LogStore} {request : Request} {b : Bound}

theorem last (h : init.Wants request b) (regular : (init.logOf request.topic b.partition).Regular) :
    b.last = Option.some ((init.logOf request.topic b.partition).newest - 1) := by
  rw [← regular.offsetBefore_newest]
  exact congrArg Bound.last h.same

theorem inside (h : init.Wants request b) (regular : (init.logOf request.topic b.partition).Regular) :
    0 < (init.logOf request.topic b.partition).newest ∧
      b.start < (init.logOf request.topic b.partition).newest := by
  have some := h.some
  rw [Bound.isEmpty, h.last regular] at some
  simp only [Option.any_some, Bool.or_eq_false_iff, decide_eq_false_iff_not] at some
  omega

theorem reachedBy (h : init.Wants request b)
    (regular : (init.logOf request.topic b.partition).Regular) (offset : Int) :
    b.reachedBy offset = true ↔ (init.logOf request.topic b.partition).newest ≤ offset + 1 := by
  rw [Bound.reachedBy, h.last regular]
  simp only [Option.any_some, decide_eq_true_eq]
  omega

end LogStore.Wants

namespace Supervision

/-- A supervision in which nothing has gone wrong. All bounds are those that the store had, and every
reader stands where its worker needs it. -/
structure Tracks (init : LogStore) (request : Request) (still : List Int)
    (s : Supervision LogStore LogReader) (events : List Event) : Prop where
  topic : s.topic = request.topic
  grown : init.Grown request.topic still s.client
  calm : s.coordination = {}
  room : 0 < s.funnel.capacity
  opening : ∀ waiting opened, s.stage = .opening waiting opened → waiting ≠ []
  bounds : ∀ b ∈ s.stage.bounds, init.Wants request b
  readers : ∀ x ∈ s.stage.readers, x.2.topic = request.topic ∧ x.2.partition = x.1.partition ∧
    x.2.next = x.1.start
  workers : ∀ w ∈ s.workers, init.Wants request w.bound ∧
    w.phase.Follows (init.logOf request.topic w.bound.partition) request.topic w.bound s.clock
      (ofPartition w.bound.partition (received events))

/-- The steps of a supervision in which nothing goes wrong. -/
inductive Smooth (init : LogStore) (s : Supervision LogStore LogReader) :
    Action LogStore → List Event → Supervision LogStore LogReader → Prop where
  | opened {i waiting done b} (stage : s.stage = .opening waiting done)
      (next : waiting[i]? = some b) :
      Smooth init s (.openReader i) [.opening b.partition b.start]
        { s with
          client := { s.client with opened := s.client.opened ++ [(b.partition, b.start)] }
          stage := .after (waiting.eraseIdx i)
            (done ++ [(b, ⟨s.topic, b.partition, b.start, s.client.version⟩)]) }
  | started {b reader rest} (stage : s.stage = .starting ((b, reader) :: rest)) :
      Smooth init s .start []
        { s with
          workers := s.workers ++ [⟨b, .receiving reader s.clock⟩]
          funnel := s.funnel.addSender
          stage := .starting rest }
  | allStarted (stage : s.stage = .starting []) :
      Smooth init s .start [] { s with funnel := s.funnel.dropSender, stage := .running }
  | delivered {i b reader since m} (worker : s.workers[i]? = some ⟨b, .receiving reader since⟩)
      (first : (init.logOf reader.topic b.partition).from? reader.next = some m) :
      Smooth init s (.work i) [.received b.partition m]
        (s.setWorker i b
          (.sending { reader with next := offsetAfter m.offset, seen := s.client.version } m))
  | sent {i b reader m} (worker : s.workers[i]? = some ⟨b, .sending reader m⟩)
      (within : b.reachedBy m.offset = false) :
      Smooth init s (.work i) [.forwarded b.partition m]
        ({ s with funnel := s.funnel.push m }.setWorker i b (.receiving reader s.clock))
  | boundaryReached {i b reader m} (worker : s.workers[i]? = some ⟨b, .sending reader m⟩)
      (last : b.reachedBy m.offset = true) :
      Smooth init s (.work i) [.forwarded b.partition m, .stopped b.partition .boundaryReached]
        (Supervision.stop { s with funnel := s.funnel.push m } i b .boundaryReached).1

namespace Tracks

variable {init : LogStore} {request : Request} {still : List Int}
  {s t : Supervision LogStore LogReader} {es fs : List Event} {a : Action LogStore}

theorem worker (h : s.Tracks init request still es) {i : Nat} {b : Bound}
    {phase : Worker.Phase LogReader} (worker : s.workers[i]? = some ⟨b, phase⟩) :
    init.Wants request b ∧ phase.Follows (init.logOf request.topic b.partition) request.topic b
      s.clock (ofPartition b.partition (received es)) :=
  h.workers _ (List.mem_of_getElem? worker)

/-- A reader delivers only what the store had, from the start of its bound on. -/
theorem mem_onward (h : s.Tracks init request still es) (ledger : s.Ledger es) {p : Int}
    {m : Message} (delivered : m ∈ ofPartition p (received es)) :
    m ∈ (init.logOf request.topic p).onward (init.boundOf request p).start := by
  by_cases known : p ∈ s.workers.map (·.bound.partition)
  · obtain ⟨w, member, rfl⟩ := List.mem_map.mp known
    obtain ⟨b, phase⟩ := w
    obtain ⟨wants, follows⟩ := h.workers _ member
    rw [← wants.same]
    cases phase with
    | receiving reader since =>
      obtain ⟨_, _, _, _, _, same⟩ := follows
      rw [same] at delivered
      exact Log.between_subset_onward delivered
    | sending reader m =>
      obtain ⟨_, _, _, _, _, same⟩ := follows
      rw [same] at delivered
      exact Log.between_subset_onward delivered
    | stopped reason =>
      have same : _ = _ := follows
      rwa [same] at delivered
    | crashed reported => exact follows.elim
  · rw [(ledger.silent p known).2] at delivered
    cases delivered

theorem mem_logOf (h : s.Tracks init request still es) (ledger : s.Ledger es) {p : Int}
    {m : Message} (delivered : m ∈ ofPartition p (received es)) :
    m ∈ (init.logOf request.topic p).messages :=
  (List.mem_filter.mp (h.mem_onward ledger delivered)).1

/-- A worker that waits for a message gets the next one of its log. -/
theorem answer (h : s.Tracks init request still es)
    (regular : ∀ p, (init.logOf request.topic p).Regular) {i : Nat} {b : Bound}
    {reader : LogReader} {since : Nat}
    (worker : s.workers[i]? = some ⟨b, .receiving reader since⟩) :
    ∃ m, (init.logOf reader.topic b.partition).from? reader.next = some m ∧
      s.answer? reader since =
        some ⟨0, .message m, { reader with next := offsetAfter m.offset, seen := s.client.version }⟩ := by
  obtain ⟨wanted, early, topic, partition, _, inside, _⟩ := h.worker worker
  obtain ⟨m, first⟩ := (regular b.partition).exists_next (wanted.inside (regular _)).1 inside
  have found : s.client.respond reader =
      some ⟨0, .message m, { reader with next := offsetAfter m.offset, seen := s.client.version }⟩ :=
    h.grown.respond topic (partition ▸ first)
  refine ⟨m, topic ▸ first, ?_⟩
  unfold answer?
  show Option.filter _ (s.client.respond reader) = _
  rw [found]
  simp [early]

theorem answer_eq (h : s.Tracks init request still es)
    (regular : ∀ p, (init.logOf request.topic p).Regular) {i : Nat} {b : Bound}
    {reader : LogReader} {since : Nat} {r : Response LogReader}
    (worker : s.workers[i]? = some ⟨b, .receiving reader since⟩)
    (answer : s.answer? reader since = some r) :
    ∃ m, (init.logOf reader.topic b.partition).from? reader.next = some m ∧
      r = ⟨0, .message m, { reader with next := offsetAfter m.offset, seen := s.client.version }⟩ := by
  obtain ⟨m, first, found⟩ := h.answer regular worker
  rw [found] at answer
  cases answer
  exact ⟨m, first, rfl⟩

/-- Nothing goes wrong in a step of the supervision itself, as long as the output listens. -/
theorem smooth (h : s.Tracks init request still es)
    (regular : ∀ p, (init.logOf request.topic p).Regular) (counted : s.Counted)
    (heard : s.funnel.senders ≠ 0 → s.funnel.receiving = true) (own : a.isOwn = true)
    (step : Step s a fs t) : Smooth init s a fs t := by
  have going : s.coordination.closing ≠ true := by simp [h.calm]
  have opens {b : Bound} : Client.openReader s.topic b.partition b.start s.client =
      (.opened ⟨s.topic, b.partition, b.start, s.client.version⟩,
        { s.client with opened := s.client.opened ++ [(b.partition, b.start)] }) := by
    simp [Client.openReader, LogStore.openReader, h.grown.openings]
  cases step with
  | opened stage next answer =>
    rw [opens] at answer
    cases answer
    exact .opened stage next
  | openFailed stage next answer =>
    rw [opens] at answer
    cases answer
  | openCrashed stage next answer =>
    rw [opens] at answer
    cases answer
  | started stage => exact .started stage
  | allStarted stage => exact .allStarted stage
  | delivered worker _ answer message =>
    obtain ⟨m, first, rfl⟩ := h.answer_eq regular worker answer
    cases message
    exact .delivered worker first
  | exhausted worker _ answer ended =>
    obtain ⟨m, _, rfl⟩ := h.answer_eq regular worker answer
    cases ended
  | readerFailed worker _ answer failed =>
    obtain ⟨m, _, rfl⟩ := h.answer_eq regular worker answer
    cases failed
  | workerCrashed worker _ answer crashed =>
    obtain ⟨m, _, rfl⟩ := h.answer_eq regular worker answer
    cases crashed
  | idled worker _ silent =>
    obtain ⟨m, _, found⟩ := h.answer regular worker
    rw [found] at silent
    cases silent
  | sent worker _ _ _ within => exact .sent worker within
  | boundaryReached worker _ _ _ last => exact .boundaryReached worker last
  | funnelClosed worker _ deaf =>
    have open_ : s.funnel.senders ≠ 0 := by
      intro none_left
      have live := no_live_of_senders counted none_left (List.mem_of_getElem? worker)
      cases live
    have listening := heard open_
    rw [deaf] at listening
    cases listening
  | stopsReceiving _ closing => exact absurd closing going
  | stopsSending _ closing => exact absurd closing going
  | joined worker => exact (h.worker worker).2.elim
  | _ => cases own

/-- A step of one worker, after which that worker still follows its log. -/
theorem update (h : s.Tracks init request still es) (ledger : s.Ledger es) {i : Nat} {b : Bound}
    {old new : Worker.Phase LogReader} (worker : s.workers[i]? = some ⟨b, old⟩)
    (workers : t.workers = s.workers.set i ⟨b, new⟩) (topic : t.topic = s.topic)
    (grown : init.Grown request.topic still t.client) (calm : t.coordination = s.coordination)
    (room : t.funnel.capacity = s.funnel.capacity) (stage : t.stage = s.stage)
    (clock : t.clock = s.clock) (own : ∀ p ≠ b.partition, ofPartition p (received fs) = [])
    (follows : new.Follows (init.logOf request.topic b.partition) request.topic b s.clock
      (ofPartition b.partition (received (es ++ fs)))) :
    t.Tracks init request still (es ++ fs) := by
  refine ⟨topic.trans h.topic, grown, calm.trans h.calm, room ▸ h.room, stage ▸ h.opening,
    stage ▸ h.bounds, stage ▸ h.readers, ?_⟩
  intro w member
  rw [workers] at member
  obtain ⟨j, found⟩ := List.mem_iff_getElem?.mp member
  rw [clock]
  by_cases here : i = j
  · subst here
    rw [List.getElem?_set_self (List.getElem?_eq_some_iff.mp worker).1] at found
    cases found
    exact ⟨(h.worker worker).1, follows⟩
  · rw [List.getElem?_set_ne here] at found
    have other := own w.bound.partition (ledger.apart worker found here).symm
    simpa [other] using h.workers w (List.mem_of_getElem? found)

/-- A reader that is opened stands at the start of its bound. -/
theorem opened (h : s.Tracks init request still es) {i : Nat} {waiting : List Bound}
    {done : List (Bound × LogReader)} {b : Bound} {seen : Nat} {client : LogStore}
    (stage : s.stage = .opening waiting done) (next : waiting[i]? = some b)
    (grown : init.Grown request.topic still client) (none_received : received fs = []) :
    Tracks init request still
      { s with
        client
        stage := .after (waiting.eraseIdx i) (done ++ [(b, ⟨s.topic, b.partition, b.start, seen⟩)]) }
      (es ++ fs) := by
  refine ⟨h.topic, grown, h.calm, h.room, fun _ _ => opening_after, ?_, ?_, ?_⟩
  · intro c member
    refine h.bounds c ?_
    rw [stage]
    exact (bounds_opened next).mem_iff.mp member
  · intro x member
    rcases List.mem_append.mp (mem_readers_after.mp member) with old | new
    · exact h.readers x (by rw [stage]; exact old)
    · obtain rfl := List.mem_singleton.mp new
      exact ⟨h.topic, rfl, rfl⟩
  · simpa [none_received] using h.workers

theorem started (h : s.Tracks init request still es)
    (regular : ∀ p, (init.logOf request.topic p).Regular) (ledger : s.Ledger es) {b : Bound}
    {reader : LogReader} {rest : List (Bound × LogReader)}
    (stage : s.stage = .starting ((b, reader) :: rest)) :
    Tracks init request still
      { s with
        workers := s.workers ++ [⟨b, .receiving reader s.clock⟩]
        funnel := s.funnel.addSender
        stage := .starting rest } es := by
  have bounds := h.bounds
  have readers := h.readers
  simp only [stage, Stage.bounds, Stage.readers, List.map_cons, List.forall_mem_cons] at bounds readers
  refine ⟨h.topic, h.grown, h.calm, h.room, by simp, bounds.2, readers.2, ?_⟩
  intro w member
  rcases List.mem_append.mp member with old | new
  · exact h.workers w old
  · obtain rfl := List.mem_singleton.mp new
    obtain ⟨topic, partition, next⟩ := readers.1
    refine ⟨bounds.1, Nat.le_refl _, topic, partition, ?_, ?_, ?_⟩
    · exact Int.le_of_eq next.symm
    · rw [next]
      exact (bounds.1.inside (regular _)).2
    · rw [next, Log.between_start (Int.le_refl _)]
      exact (ledger.fresh stage).2

/-- Every step of the supervision itself keeps its workers on their way. -/
theorem step (h : s.Tracks init request still es)
    (regular : ∀ p, (init.logOf request.topic p).Regular) (ledger : s.Ledger es)
    (smooth : Smooth init s a fs t) : t.Tracks init request still (es ++ fs) := by
  cases smooth with
  | opened stage next => exact h.opened stage next (h.grown.of_logs rfl rfl rfl) rfl
  | started stage =>
    rw [List.append_nil]
    exact h.started regular ledger stage
  | allStarted stage =>
    rw [List.append_nil]
    exact ⟨h.topic, h.grown, h.calm, h.room, by simp, by simp [Stage.bounds],
      by simp [Stage.readers], h.workers⟩
  | @delivered i b reader since m worker first =>
    obtain ⟨_, _, topic, partition, begun, _, delivered⟩ := h.worker worker
    rw [topic] at first
    refine h.update ledger worker rfl rfl h.grown rfl rfl rfl rfl ?_ ?_
    · intro p foreign
      simp [ofPartition_other foreign.symm]
    · obtain ⟨before, after, shape, reached, _⟩ := (regular b.partition).split first
      have held : m ∈ (init.logOf request.topic b.partition).messages := by simp [shape]
      have next := offsetAfter_of_lt ((regular b.partition).below m held)
      refine ⟨topic, partition, next, by omega, held, ?_⟩
      rw [received_append, ofPartition_append, delivered,
        (regular b.partition).between_next first begun]
      simp
  | @sent i b reader m worker within =>
    obtain ⟨wanted, topic, partition, next, begun, _, delivered⟩ := h.worker worker
    have inside := mt (wanted.reachedBy (regular _) m.offset).mpr (by simp [within])
    refine h.update ledger worker rfl rfl h.grown rfl rfl rfl rfl (by simp) ?_
    refine ⟨Nat.le_refl _, topic, partition, ?_, ?_, ?_⟩
    · omega
    · omega
    · rw [next]
      simpa using delivered
  | @boundaryReached i b reader m worker last =>
    obtain ⟨wanted, _, _, _, _, member, delivered⟩ := h.worker worker
    have reached := (wanted.reachedBy (regular _) m.offset).mp last
    have whole : m.offset + 1 = (init.logOf request.topic b.partition).newest := by
      have inside := (regular b.partition).lt_newest member
      omega
    refine h.update ledger worker rfl rfl (h.grown.of_logs rfl rfl rfl) rfl rfl rfl rfl (by simp) ?_
    rw [whole, (regular b.partition).between_newest] at delivered
    simpa [Worker.Phase.Follows] using delivered

/-- When all are done, each partition that got a worker has been read up to its end. -/
theorem complete (h : s.Tracks init request still es) (ledger : s.Ledger es)
    (finished : s.isFinished = true) (p : Int) :
    (p ∈ s.partitions → ofPartition p (received es) =
      (init.logOf request.topic p).onward (init.boundOf request p).start) ∧
    (p ∉ s.partitions → ofPartition p (received es) = []) := by
  obtain ⟨running, settled⟩ := isFinished_iff.mp finished
  have none_waits : s.partitions = s.workers.map (·.bound.partition) := by
    rw [partitions, running]
    rfl
  rw [none_waits]
  constructor
  · intro known
    obtain ⟨⟨b, phase⟩, member, rfl⟩ := List.mem_map.mp known
    obtain ⟨wanted, follows⟩ := h.workers _ member
    have done := settled _ member
    cases phase with
    | stopped reason =>
      rw [← wanted.same]
      exact follows
    | crashed reported => exact follows.elim
    | _ => cases done
  · intro unknown
    exact (ledger.silent p unknown).2

/-- Appends do not disturb the workers. -/
theorem changed (h : s.Tracks init request still es) {client : LogStore} {more : List Int}
    (grown : init.Grown request.topic more client) :
    Tracks init request more { s with client } es :=
  ⟨h.topic, grown, h.calm, h.room, h.opening, h.bounds, h.readers, h.workers⟩

/-- Nor does the time that passes. -/
theorem advanced (h : s.Tracks init request still es) {clock : Nat} (later : s.clock < clock) :
    Tracks init request still { s with clock } es := by
  refine ⟨h.topic, h.grown, h.calm, h.room, h.opening, h.bounds, h.readers, ?_⟩
  rintro ⟨b, phase⟩ member
  obtain ⟨wanted, follows⟩ := h.workers _ member
  refine ⟨wanted, ?_⟩
  cases phase with
  | receiving reader since =>
    obtain ⟨early, rest⟩ := follows
    exact ⟨Nat.le_trans early (Nat.le_of_lt later), rest⟩
  | sending reader m => exact follows
  | stopped reason => exact follows
  | crashed reported => exact follows

end Tracks

/-- No partition is lost. -/
theorem Smooth.partitions_perm {init : LogStore} {s t : Supervision LogStore LogReader}
    {a : Action LogStore} {fs : List Event} (smooth : Smooth init s a fs t) :
    t.partitions.Perm s.partitions := by
  have replaced {i : Nat} {b : Bound} {old new : Worker.Phase LogReader}
      (worker : s.workers[i]? = some ⟨b, old⟩) :
      (s.workers.set i ⟨b, new⟩).map (·.bound.partition) = s.workers.map (·.bound.partition) := by
    rw [List.map_set]
    exact set_of_getElem? (by simp [worker])
  unfold partitions
  cases smooth with
  | @opened i waiting done b stage next =>
    rw [stage]
    exact ((bounds_opened next).map _).append_right _
  | @started b reader rest stage =>
    rw [stage]
    simp only [Stage.bounds, List.map_append, List.map_cons, List.map_nil, ← List.append_assoc]
    exact List.perm_append_singleton _ _
  | allStarted stage =>
    rw [stage]
    exact List.Perm.refl _
  | delivered worker => exact (List.Perm.refl _).append (List.Perm.of_eq (replaced worker))
  | sent worker => exact (List.Perm.refl _).append (List.Perm.of_eq (replaced worker))
  | boundaryReached worker => exact (List.Perm.refl _).append (List.Perm.of_eq (replaced worker))

end Supervision
end TopicReader
