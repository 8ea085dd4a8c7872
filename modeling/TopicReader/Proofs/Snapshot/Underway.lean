import TopicReader.Proofs.Snapshot.Runs

/-! Runs that read a store up to the ends that its logs had, whatever becomes of the messages. Their
bounds are those of a request with an end. -/
namespace TopicReader

namespace Run

/-- A bound on the steps of the run itself that are left at a stage, apart from those of its workers
and its output. -/
def Stage.left (init : LogStore) (request : Request) : Stage → Nat
  | .resolving waiting bounds =>
    (waiting.map fun p =>
        4 * init.ahead request.topic p (init.boundOf request p).start + 3).sum +
      (bounds.map fun b => 4 * init.ahead request.topic b.partition b.start + 2).sum + 3
  | .draining => 2
  | .joining _ => 1
  | .returned _ => 0

variable {κ : Type} {init : LogStore} {request : Request} {r t : Run LogStore LogReader κ}
  {events fs : List Event}

/-- A bound on the steps of the run itself that are left, apart from those of the output. -/
def ahead (init : LogStore) (request : Request) (r : Run LogStore LogReader κ) : Nat :=
  r.stage.left init request + r.supervision.left init

/-- A run that is under way with the bounds of a request, its workers on their way through the
logs. -/
structure Underway (init : LogStore) (request : Request) (r : Run LogStore LogReader κ)
    (events : List Event) : Prop where
  accounts : r.Accounts events
  tracks : r.supervision.Tracks init request r.stage.waiting events
  going : ∀ result, r.stage ≠ .returned result
  resolving : ∀ waiting bounds, r.stage = .resolving waiting bounds → waiting ≠ [] ∧
    (∀ b ∈ bounds, b = init.boundOf request b.partition) ∧
      ∀ p, p ∈ waiting ∨ p ∈ bounds.map (·.partition) ↔ init.Selects request p
  covered : r.isActive = true → ∀ p, p ∈ r.supervision.partitions ↔
    init.Selects request p ∧ (init.boundOf request p).isEmpty = false

section
variable {i : Nat} {waiting : List Int} {bounds : List Bound} {p : Int}

theorem found (same : ∀ b ∈ bounds, b = init.boundOf request b.partition)
    (selects : ∀ p, p ∈ waiting ∨ p ∈ bounds.map (·.partition) ↔ init.Selects request p)
    (next : waiting[i]? = some p) :
    (∀ b ∈ bounds ++ [init.boundOf request p], b = init.boundOf request b.partition) ∧
      ∀ q, q ∈ waiting.eraseIdx i ∨ q ∈ (bounds ++ [init.boundOf request p]).map (·.partition) ↔
        init.Selects request q := by
  constructor
  · intro b member
    rcases List.mem_append.mp member with old | new
    · exact same b old
    · obtain rfl := List.mem_singleton.mp new
      rfl
  · intro q
    have perm := Supervision.perm_of_eraseIdx next (bounds.map (·.partition))
    rw [← selects q, ← List.mem_append, ← List.mem_append, List.map_append]
    exact perm.mem_iff

/-- The partitions that have something to read get their workers. -/
theorem covers (same : ∀ b ∈ bounds, b = init.boundOf request b.partition)
    (selects : ∀ p, p ∈ waiting ∨ p ∈ bounds.map (·.partition) ↔ init.Selects request p)
    (none_waits : waiting = []) (p : Int) :
    p ∈ ((boundsInOrder bounds).filter fun b => !b.isEmpty).map (·.partition) ↔
      init.Selects request p ∧ (init.boundOf request p).isEmpty = false := by
  rw [← selects p, none_waits]
  constructor
  · intro listed
    obtain ⟨b, member, rfl⟩ := List.mem_map.mp listed
    obtain ⟨sorted, some⟩ := List.mem_filter.mp member
    have found : b ∈ bounds := List.mem_mergeSort.mp sorted
    refine ⟨.inr (List.mem_map.mpr ⟨b, found, rfl⟩), ?_⟩
    rw [← same b found]
    simpa using some
  · rintro ⟨none_left | listed, some⟩
    · cases none_left
    · obtain ⟨b, found, rfl⟩ := List.mem_map.mp listed
      rw [← same b found] at some
      refine List.mem_map.mpr ⟨b, List.mem_filter.mpr ⟨List.mem_mergeSort.mpr found, ?_⟩, rfl⟩
      simpa using some

theorem sum_ready (f : Bound → Nat) (bounds : List Bound) (b : Bound) :
    (((boundsInOrder (bounds ++ [b])).filter fun b => !b.isEmpty).map f).sum ≤
      (bounds.map f).sum + f b := by
  have sorted := ((List.mergeSort_perm (bounds ++ [b])
    fun a b => a.partition ≤ b.partition).map f).sum_nat
  rw [List.map_append, List.sum_append_nat, List.map_singleton, List.sum_singleton] at sorted
  exact Nat.le_trans (sum_filter_le f _) (Nat.le_of_eq sorted)

/-- Of a partition without a worker nothing is demanded. -/
theorem demanded_eq (regular : ∀ p, (init.logOf request.topic p).Regular) (p : Int) :
    (init.Selects request p ∧ (init.boundOf request p).isEmpty = false →
      init.demanded request p =
        (init.logOf request.topic p).onward (init.boundOf request p).start) ∧
    (¬ (init.Selects request p ∧ (init.boundOf request p).isEmpty = false) →
      init.demanded request p = []) := by
  unfold LogStore.demanded
  constructor
  · intro wanted
    exact if_pos wanted.1.2
  · intro unwanted
    split
    · rename_i chosen
      cases known : init.log? request.topic p with
      | none => simp [LogStore.logOf, known, Log.onward]
      | some log =>
        apply (regular p).onward_of_isEmpty
        cases empty : (init.boundOf request p).isEmpty with
        | true => exact empty
        | false => exact absurd ⟨⟨by rw [known]; rfl, chosen⟩, empty⟩ unwanted
    · rfl

end

variable [Sink κ]

/-- A run is under way from its beginning on, with the bounds of any request for the same
partitions. -/
theorem underway_begin {asked : Request} {chain : Chain} {sink : κ}
    (valid : asked.validate = .ok ()) (held : ∃ p, (init.log? asked.topic p).isSome = true)
    (known : ∀ p ∈ asked.partitions, (init.log? asked.topic p).isSome = true)
    (openings : init.openFailures = []) (offsets : init.offsetFailures = [])
    (topic : request.topic = asked.topic) (partitions : request.partitions = asked.partitions) :
    Underway init request (begin asked chain init sink) [] := by
  have accounts := accounts_of_reaches
    (.refl : Reaches Moves (begin asked chain init sink : Run LogStore LogReader κ) [] [] _)
  rw [begin_eq valid held] at accounts ⊢
  have start : (Supervision.ofBounds (ρ := LogReader) init asked.topic
      (if asked.isBounded then .some asked.idle else none) []).stage = .starting [] := by
    simp [Supervision.ofBounds, Supervision.Stage.after, Supervision.openedInOrder]
  refine ⟨accounts, ?_, by simp, ?_, by simp [isActive]⟩
  · refine ⟨topic.symm, .refl openings offsets, rfl, Nat.one_pos, ?_, ?_, ?_, ?_⟩
    · simp [start]
    · simp [start, Supervision.Stage.bounds]
    · simp [start, Supervision.Stage.readers]
    · simp [Supervision.ofBounds]
  · intro waiting bounds same
    cases same
    refine ⟨selection_ne_nil held, by simp, ?_⟩
    intro p
    rw [List.map_nil, mem_selection known p, LogStore.Selects, LogStore.Selects, topic, partitions]
    simp

/-- A step keeps the request, and only a step of the output touches the output. -/
theorem Step.frame {a : Action LogStore} (step : Step r a fs t) :
    t.request = r.request ∧ (t.drain = r.drain ∨ ∃ o, t.drain = o.drain ∧
      Drain.Step r.drain r.supervision.coordination r.supervision.funnel o) := by
  cases step with
  | drained active step => exact ⟨rfl, .inr ⟨_, rfl, step⟩⟩
  | _ => exact ⟨rfl, .inl rfl⟩

/-- What a run needs of its output: that it listens as long as somebody may send and ends only then,
that it ends well, and that in none of its steps anything goes wrong. Each step leaves it with less to
do. -/
structure Serves (rest : Drain κ → Nat) (r : Run LogStore LogReader κ) : Prop where
  heard : r.supervision.funnel.senders ≠ 0 → r.supervision.funnel.receiving = true
  ended : ∀ result, r.drain.phase = .finished result →
    (∃ n, result = .ok n) ∧ r.supervision.funnel.senders = 0
  calm : ∀ o, Drain.Step r.drain {} r.supervision.funnel o →
    o.coordination = {} ∧ o.funnel.capacity = r.supervision.funnel.capacity ∧
      rest o.drain + 2 * o.funnel.queue.length <
        rest r.drain + 2 * r.supervision.funnel.queue.length

namespace Underway

omit [Sink κ] in
/-- Bounds are found for the partitions that the request reads. -/
theorem selected (h : Underway init request r events) {p : Int} (waits : p ∈ r.stage.waiting) :
    init.Selects request p := by
  cases stage : r.stage with
  | resolving waiting bounds =>
    rw [stage] at waits
    exact ((h.resolving waiting bounds stage).2.2 p).mp (.inl waits)
  | _ =>
    rw [stage] at waits
    cases waits

/-- The supervision goes on by itself. -/
theorem supervised (h : Underway init request r events)
    (regular : ∀ p, (init.logOf request.topic p).Regular)
    (heard : r.supervision.funnel.senders ≠ 0 → r.supervision.funnel.receiving = true)
    {a : Supervision.Action LogStore} {supervision : Supervision LogStore LogReader}
    (own : a.isOwn = true) (step : Supervision.Step r.supervision a fs supervision)
    (allowed : r.allows a = true) :
    Underway init request { r with supervision } (events ++ fs) ∧
      ahead init request { r with supervision } < ahead init request r := by
  have smooth := h.tracks.smooth regular h.accounts.counted heard own step
  refine ⟨⟨h.accounts.step (.supervised allowed step),
    h.tracks.step regular h.accounts.ledger smooth, h.going, h.resolving, ?_⟩, ?_⟩
  · intro active p
    rw [smooth.partitions_perm.mem_iff]
    exact h.covered active p
  · have fewer := smooth.left_lt h.tracks regular
    simp only [ahead]
    omega

/-- What happens beside the run leaves it in its place. -/
theorem beside (h : Underway init request r events) (topic : r.request.topic = request.topic)
    {a : Supervision.Action LogStore} {supervision : Supervision LogStore LogReader}
    (beside : Beside r a) (step : Supervision.Step r.supervision a fs supervision)
    (allowed : r.allows a = true) :
    Underway init request { r with supervision } (events ++ fs) ∧
      supervision.left init = r.supervision.left init := by
  have accounts := h.accounts.step (.supervised allowed step)
  cases beside with
  | advance clock =>
    cases step with
    | advanced later =>
      rw [List.append_nil] at *
      exact ⟨⟨accounts, h.tracks.advanced later, h.going, h.resolving, h.covered⟩, rfl⟩
  | push m queried =>
    cases step
    rw [List.append_nil] at *
    rw [topic] at queried
    exact ⟨⟨accounts, h.tracks.changed (h.tracks.grown.push queried), h.going, h.resolving,
      h.covered⟩, rfl⟩
  | bump =>
    cases step
    rw [List.append_nil] at *
    exact ⟨⟨accounts, h.tracks.changed (h.tracks.grown.of_logs rfl rfl rfl), h.going, h.resolving,
      h.covered⟩, rfl⟩

/-- A step of the output in which nothing goes wrong. -/
theorem drained (h : Underway init request r events) {o : Drain.Outcome κ}
    (active : r.isActive = true)
    (step : Drain.Step r.drain r.supervision.coordination r.supervision.funnel o)
    (calm : o.coordination = {}) (capacity : o.funnel.capacity = r.supervision.funnel.capacity) :
    Underway init request { r with
      drain := o.drain
      supervision.coordination := o.coordination
      supervision.funnel := o.funnel } (events ++ o.events) := by
  refine ⟨h.accounts.step (.drained active step), ?_, h.going, h.resolving, h.covered⟩
  refine ⟨h.tracks.topic, h.tracks.grown, calm, ?_, h.tracks.opening, h.tracks.bounds,
    h.tracks.readers, ?_⟩
  · rw [capacity]
    exact h.tracks.room
  · simpa [step.received_eq] using h.tracks.workers

/-- The output has ended well, and the workers are waited for. -/
theorem joining (h : Underway init request r events) {n : Nat} (stage : r.stage = .draining)
    (result : r.drain.result? = some (.ok n)) :
    Underway init request { r with stage := .joining (.ok n) } events ∧
      ahead init request { r with stage := .joining (.ok n) } < ahead init request r := by
  have accounts := h.accounts.step (.outputEnded stage result)
  have tracks := h.tracks
  rw [stage] at tracks
  rw [List.append_nil] at accounts
  refine ⟨⟨accounts, tracks, by simp, by simp, ?_⟩, ?_⟩
  · intro _
    exact h.covered (by simp [isActive, stage])
  · simp only [ahead, stage, Stage.left]
    omega

/-- A bound is found, and with the last one the workers begin. -/
theorem resolved (h : Underway init request r events)
    (answers : ∀ p ∈ r.stage.waiting, (r.request.resolve p : Query LogStore Bound).run
      r.supervision.client = (.ok (init.boundOf request p),
        { r.supervision.client with fetches := r.supervision.client.fetches + 1 }))
    {i : Nat} (step : Step r (.resolve i) fs t) :
    Underway init request t (events ++ fs) ∧ ahead init request t < ahead init request r := by
  have accounts := h.accounts.step step
  have found_in {waiting : List Int} {bounds : List Bound} {p : Int} {answer : Except RunError Bound}
      {client : LogStore} (stage : r.stage = .resolving waiting bounds) (next : waiting[i]? = some p)
      (given : (r.request.resolve p : Query LogStore Bound).run r.supervision.client =
        (answer, client)) :
      answer = .ok (init.boundOf request p) ∧
        client = { r.supervision.client with fetches := r.supervision.client.fetches + 1 } := by
    have waits : p ∈ r.stage.waiting := by
      rw [stage]
      exact List.mem_of_getElem? next
    rw [answers p waits] at given
    cases given
    exact ⟨rfl, rfl⟩
  cases step with
  | unresolved stage next answer => cases (found_in stage next answer).1
  | @resolved i waiting bounds p b client stage next more answer =>
    obtain ⟨found_bound, rfl⟩ := found_in stage next answer
    cases found_bound
    obtain ⟨_, same, selects⟩ := h.resolving waiting bounds stage
    have tracks := h.tracks
    rw [stage] at tracks
    have grown := (tracks.grown.less (List.eraseIdx_subset (k := i))).of_logs (t :=
      { r.supervision.client with fetches := r.supervision.client.fetches + 1 }) rfl rfl rfl
    rw [List.append_nil] at *
    refine ⟨⟨accounts, tracks.changed grown, by simp, ?_, by simp [isActive]⟩, ?_⟩
    · intro waiting' bounds' stage'
      cases stage'
      exact ⟨more, found same selects next⟩
    · have fewer := sum_eraseIdx
        (fun p => 4 * init.ahead request.topic p (init.boundOf request p).start + 3) next
      have placed : (init.boundOf request p).partition = p := rfl
      simp only [ahead, stage, Stage.left, Supervision.left, List.map_append, List.map_cons,
        List.map_nil, List.sum_append_nat, List.sum_cons, List.sum_nil, placed]
      omega
  | @resolvedLast i waiting bounds p b client stage next last answer =>
    obtain ⟨found_bound, rfl⟩ := found_in stage next answer
    cases found_bound
    obtain ⟨_, same, selects⟩ := h.resolving waiting bounds stage
    obtain ⟨same, selects⟩ := found same selects next
    obtain ⟨idle, start, _⟩ := h.accounts.resolving waiting bounds stage
    have covered := covers same selects last
    have grown := (h.tracks.grown.less (List.nil_subset _)).of_logs (t :=
      { r.supervision.client with fetches := r.supervision.client.fetches + 1 }) rfl rfl rfl
    rw [List.append_nil] at *
    refine ⟨⟨accounts, ?_, by simp, by simp, ?_⟩, ?_⟩
    · refine ⟨h.tracks.topic, grown, h.tracks.calm, h.tracks.room,
        fun _ _ => Supervision.opening_after, ?_, ?_, h.tracks.workers⟩
      · intro c member
        have ready := (Supervision.bounds_after _ _).mem_iff.mp member
        rw [List.map_nil, List.append_nil] at ready
        obtain ⟨sorted, some⟩ := List.mem_filter.mp ready
        exact ⟨same c (List.mem_mergeSort.mp sorted), by simpa using some⟩
      · intro x member
        cases Supervision.mem_readers_after.mp member
    · intro _ q
      rw [← covered q]
      have perm := (Supervision.bounds_after (ρ := LogReader) ((boundsInOrder
        (bounds ++ [init.boundOf request p])).filter fun b => !b.isEmpty) []).map (·.partition)
      rw [List.map_nil, List.append_nil] at perm
      simpa only [Supervision.partitions, idle, List.map_nil, List.append_nil] using perm.mem_iff
    · have fewer := sum_eraseIdx
        (fun p => 4 * init.ahead request.topic p (init.boundOf request p).start + 3) next
      have ready := sum_ready (fun b => 4 * init.ahead request.topic b.partition b.start + 2) bounds
        (init.boundOf request p)
      have placed : (init.boundOf request p).partition = p := rfl
      simp only [ahead, stage, Stage.left, Supervision.left, Supervision.left_after, idle, start,
        h.tracks.topic]
      simp only [Supervision.Stage.left, List.map_nil, List.sum_nil, placed] at ready ⊢
      omega

/-- Every step of the run itself brings it nearer to its end, and none beside it takes it away. -/
theorem step {rest : Drain κ → Nat} (h : Underway init request r events) (serves : r.Serves rest)
    (regular : ∀ p, (init.logOf request.topic p).Regular)
    (topic : r.request.topic = request.topic)
    (answers : ∀ p ∈ r.stage.waiting, (r.request.resolve p : Query LogStore Bound).run
      r.supervision.client = (.ok (init.boundOf request p),
        { r.supervision.client with fetches := r.supervision.client.fetches + 1 }))
    {a : Action LogStore} (move : Proceeds r a fs t) :
    (Underway init request t (events ++ fs) ∨ t.stage = .returned (.ok ())) ∧
      ahead init request t + rest t.drain + (if a.isOwn then 1 else 0) ≤
        ahead init request r + rest r.drain := by
  obtain ⟨move, source⟩ := move
  have step := step_cases move
  cases a with
  | resolve i =>
    obtain ⟨next, fewer⟩ := h.resolved answers step
    have kept : t.drain = r.drain := by cases step <;> rfl
    refine ⟨.inl next, ?_⟩
    simp only [kept, Action.isOwn, if_true]
    omega
  | supervise b =>
    cases step with
    | supervised allowed step =>
      rcases source with own | ⟨_, same, outside⟩
      · obtain ⟨next, fewer⟩ := h.supervised regular serves.heard own step allowed
        refine ⟨.inl next, ?_⟩
        rw [if_pos own]
        show ahead init request { r with supervision := _ } + rest r.drain + 1 ≤ _
        omega
      · cases same
        obtain ⟨next, same⟩ := h.beside topic outside step allowed
        have foreign : (Action.supervise b).isOwn = false := by cases outside <;> rfl
        refine ⟨.inl next, ?_⟩
        simp [ahead, foreign, same]
  | drain =>
    cases step with
    | @drained o active step =>
      obtain ⟨calm, capacity, fewer⟩ := serves.calm o (h.tracks.calm ▸ step)
      refine ⟨.inl (h.drained active step calm capacity), ?_⟩
      simp only [ahead, Supervision.left, Action.isOwn, if_true]
      omega
  | settle =>
    cases step with
    | outputEnded stage result =>
      obtain ⟨next, fewer⟩ := h.joining stage result
      rw [List.append_nil]
      refine ⟨.inl next, ?_⟩
      simp only [Action.isOwn, if_true]
      omega
    | outputFailed stage result =>
      obtain ⟨n, impossible⟩ := (serves.ended _ (Drain.phase_of_result? result)).1
      cases impossible
    | returned stage finished =>
      obtain ⟨n, rfl⟩ := (serves.ended _ (h.accounts.joining _ stage)).1
      refine ⟨.inr (by simp [outcome, h.tracks.calm]), ?_⟩
      simp only [ahead, stage, Stage.left, shutdown, Supervision.left, Action.isOwn, if_true]
      omega

/-- Until it returns, the run can always go on by itself. -/
theorem exists_step {rest : Drain κ → Nat} (h : Underway init request r events)
    (serves : r.Serves rest) (regular : ∀ p, (init.logOf request.topic p).Regular) :
    ∃ (a : Action LogStore) (fs : List Event) (t : Run LogStore LogReader κ),
      a.isOwn = true ∧ Proceeds r a fs t := by
  have possible (a : Action LogStore) (own : a.isOwn = true) (some : (r.step a).isSome = true) :
      ∃ (a : Action LogStore) (fs : List Event) (t : Run LogStore LogReader κ),
        a.isOwn = true ∧ Proceeds r a fs t := by
    obtain ⟨⟨t, fs⟩, next⟩ := Option.isSome_iff_exists.mp some
    exact ⟨a, fs, t, own, next, .inl own⟩
  cases stage : r.stage with
  | resolving waiting bounds =>
    obtain ⟨some, _⟩ := h.resolving waiting bounds stage
    obtain ⟨p, rest, rfl⟩ := List.exists_cons_of_ne_nil some
    exact possible (.resolve 0) rfl (by simp [Run.step, stage])
  | draining =>
    have active : r.isActive = true := by simp [isActive, stage]
    cases result : r.drain.result? with
    | some result' =>
      refine possible .settle rfl ?_
      cases result' <;> simp [Run.step, settle, stage, result]
    | none =>
      cases next : r.drain.step r.supervision.coordination r.supervision.funnel with
      | some o => exact possible .drain rfl (by simp [Run.step, active, next])
      | none =>
        obtain ⟨empty, going⟩ := Drain.waits_of_stuck result next
        obtain ⟨a, own, some⟩ := h.tracks.exists_step regular h.accounts.counted
          (serves.heard going) empty going
        have allowed : r.allows a = true := by
          cases a <;> first | exact active | cases own
        exact possible (.supervise a) own (by simpa [Run.step, allowed] using some)
  | joining drained =>
    have none_left := (serves.ended _ (h.accounts.joining drained stage)).2
    have finished := h.tracks.finished h.accounts.counted none_left
    exact possible .settle rfl (by simp [Run.step, settle, stage, finished])
  | returned result => exact absurd stage (h.going result)

omit [Sink κ] in
/-- When all workers are done, they have sent on all that was demanded of each partition. -/
theorem forwarded_eq (h : Underway init request r events)
    (regular : ∀ p, (init.logOf request.topic p).Regular) {n : Nat}
    (stage : r.stage = .joining (.ok n)) (finished : r.supervision.isFinished = true) (p : Int) :
    ofPartition p (forwarded events) = init.demanded request p := by
  have none_cut : ∀ w ∈ r.supervision.workers, ¬ w.CutOff := by
    intro w member cut
    rcases h.accounts.cutOff w member cut with closing | ⟨e, failed⟩
    · rw [h.tracks.calm] at closing
      cases closing
    · rw [h.accounts.joining _ stage] at failed
      cases failed
  have covered := h.covered (by simp [isActive, stage]) p
  obtain ⟨read, unread⟩ := h.tracks.complete h.accounts.ledger finished p
  obtain ⟨wanted, unwanted⟩ := demanded_eq regular p
  rw [h.accounts.sent_all finished none_cut p]
  by_cases known : p ∈ r.supervision.partitions
  · rw [read known, wanted (covered.mp known)]
  · rw [unread known, unwanted (mt covered.mpr known)]

end Underway
end Run
end TopicReader
