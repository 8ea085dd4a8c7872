import TopicReader.Proofs.Phases.Order

/-! What a run learns of its partitions before anybody is at work. Each partition is asked for its
bound once, in any order; the first question that fails ends the run, and once all bounds are known
the partitions that have something to read are opened, each of them once. -/
namespace TopicReader

/-- Where a reader is opened to read within a bound. -/
def Bound.place (b : Bound) : Int × Int := (b.partition, b.start)

/-- A bound as the answer to the question for it. -/
def Bound.answer (b : Bound) : Int × Except RunError Bound := (b.partition, .ok b)

namespace Supervision

variable {σ ρ : Type}

/-- The bounds that wait, and those that have a worker. -/
def bounds (s : Supervision σ ρ) : List Bound := s.stage.bounds ++ s.workers.map (·.bound)

theorem bounds_set {s : Supervision σ ρ} {i : Nat} {b : Bound} {old new : Worker.Phase ρ}
    (worker : s.workers[i]? = some ⟨b, old⟩) :
    (s.workers.set i ⟨b, new⟩).map (·.bound) = s.workers.map (·.bound) := by
  rw [List.map_set]
  exact set_of_getElem? (by simp [worker])

variable [Client σ ρ] {s t : Supervision σ ρ} {a : Action σ} {fs : List Event}

namespace Step

/-- Nothing is read but within bounds that were there from the beginning. -/
theorem bounds_subset (step : Step s a fs t) : ∀ b ∈ t.bounds, b ∈ s.bounds := by
  have opened {i : Nat} {waiting : List Bound} {kept done : List (Bound × ρ)} {b : Bound}
      (stage : s.stage = .opening waiting done) (next : waiting[i]? = some b)
      (fewer : ∀ c ∈ kept.map (·.1), c ∈ done.map (·.1) ∨ c = b) :
      ∀ c ∈ (Stage.after (waiting.eraseIdx i) kept).bounds ++ s.workers.map (·.bound),
        c ∈ s.bounds := by
    intro c member
    rw [bounds, stage]
    refine List.mem_append.mpr ((List.mem_append.mp member).imp_left fun waits => ?_)
    rcases List.mem_append.mp ((bounds_after _ _).mem_iff.mp waits) with still | taken
    · exact List.mem_append_left _ (List.mem_of_mem_eraseIdx still)
    · rcases fewer c taken with before | rfl
      · exact List.mem_append_right _ before
      · exact List.mem_append_left _ (List.mem_of_getElem? next)
  have stays {i : Nat} {b : Bound} {old new : Worker.Phase ρ}
      (worker : s.workers[i]? = some ⟨b, old⟩) :
      ∀ c ∈ s.stage.bounds ++ (s.workers.set i ⟨b, new⟩).map (·.bound), c ∈ s.bounds := by
    rw [bounds_set worker]
    exact fun _ => id
  cases step with
  | opened stage next answer => exact opened stage next (by simp)
  | openFailed stage next answer => exact opened stage next fun c => .inl
  | openCrashed stage next answer => exact opened stage next fun c => .inl
  | @started b reader rest stage =>
    intro c member
    rw [bounds, stage]
    simp [bounds, Stage.bounds] at member ⊢
    tauto
  | allStarted stage =>
    intro c member
    exact List.mem_append_right _ (by simpa [bounds, Stage.bounds] using member)
  | taken | deafened | shutDown | changed | advanced => exact fun _ => id
  | delivered worker | exhausted worker | readerFailed worker | workerCrashed worker | idled worker
  | sent worker | boundaryReached worker | funnelClosed worker | stopsReceiving worker
  | stopsSending worker | joined worker => exact stays worker

/-- A partition that is asked to open no longer waits for it. -/
theorem openings_perm (step : Step s a fs t) :
    (openings fs ++ t.stage.waiting.map Bound.place).Perm (s.stage.waiting.map Bound.place) := by
  have opened {i : Nat} {waiting : List Bound} {done kept : List (Bound × ρ)} {b : Bound}
      (stage : s.stage = .opening waiting done) (next : waiting[i]? = some b)
      (asked : openings fs = [b.place]) :
      (openings fs ++ (Stage.after (waiting.eraseIdx i) kept).waiting.map Bound.place).Perm
        (s.stage.waiting.map Bound.place) := by
    obtain ⟨bound, rfl⟩ := List.getElem?_eq_some_iff.mp next
    rw [asked, waiting_after, stage, List.singleton_append, ← List.map_cons]
    exact (List.getElem_cons_eraseIdx_perm bound).map _
  cases step with
  | opened stage next answer => exact opened stage next rfl
  | openFailed stage next answer => exact opened stage next (by simp [recordEvents, Bound.place])
  | openCrashed stage next answer => exact opened stage next (by simp [recordEvents, Bound.place])
  | started stage => simp [Stage.waiting, stage]
  | allStarted stage => simp [Stage.waiting, stage]
  | readerFailed | joined => simp [recordEvents, stop, setWorker, record]
  | _ => exact .refl _

end Step
end Supervision

theorem Drain.Step.openings_eq {κ : Type} [Sink κ] {d : Drain κ} {c : Coordination} {f : Funnel}
    {o : Drain.Outcome κ} (step : Drain.Step d c f o) : openings o.events = [] := by
  cases step <;> simp

namespace Run

variable {σ ρ κ : Type} [Client σ ρ] [Sink κ] {request : Request} {chain : Chain} {client : σ}
  {sink : κ} {actions more : List (Action σ)} {events fs : List Event} {r s t : Run σ ρ κ}
  {a : Action σ} {targets : List Int} {told : List (Int × Except RunError Bound)}

/-- The partition that a step asks for its bound, and what the client answers. -/
def answer? (r : Run σ ρ κ) : Action σ → Option (Int × Except RunError Bound)
  | .resolve i =>
    match r.stage with
    | .resolving waiting _ =>
      waiting[i]?.map fun p =>
        (p, ((r.request.resolve p : Query σ Bound).run r.supervision.client).1)
    | _ => none
  | _ => none

/-- The partitions that are asked for their bounds while a run takes some actions, with the answers,
in order. -/
def resolutions (r : Run σ ρ κ) : List (Action σ) → List (Int × Except RunError Bound)
  | [] => []
  | a :: rest =>
    (r.answer? a).toList ++
      match r.step a with
      | some (t, _) => t.resolutions rest
      | none => []

theorem resolutions_append (run : Reaches Moves r actions events t) :
    r.resolutions (actions ++ more) = r.resolutions actions ++ t.resolutions more := by
  induction run generalizing more with
  | refl => rfl
  | @next as _ u a _ v before move ih =>
    have last (rest : List (Action σ)) :
        u.resolutions (a :: rest) = (u.answer? a).toList ++ v.resolutions rest := by
      rw [resolutions, show u.step a = some (v, _) from move]
    rw [List.append_assoc, ih, ih, List.singleton_append, last, last, resolutions, List.append_nil,
      List.append_assoc]

theorem resolutions_snoc (before : Reaches Moves r actions events s) (move : Moves s a fs t) :
    r.resolutions (actions ++ [a]) = r.resolutions actions ++ (s.answer? a).toList := by
  rw [resolutions_append before, resolutions, show s.step a = some (t, fs) from move]
  simp only [resolutions, List.append_nil]

/-- Nobody has been at work: nothing was opened, delivered, written or recorded, and only requests
from outside have closed the run. -/
structure Traceless (sink : κ) (r : Run σ ρ κ) (actions : List (Action σ)) (events : List Event) :
    Prop where
  seen : ∀ e ∈ events, e = .closing ∧ .supervise .shutdown ∈ actions
  workers : r.supervision.workers = []
  sink : r.drain.sink = sink
  firstError : r.supervision.coordination.firstError = none
  closing : r.supervision.coordination.closing = true → .supervise .shutdown ∈ actions

omit [Client σ ρ] [Sink κ] in
/-- What nobody has done has left no event of any kind. -/
theorem Traceless.none_seen {α : Type} (h : r.Traceless sink actions events) {kind : Event → Option α}
    (other : kind .closing = none) : events.filterMap kind = [] := by
  refine List.filterMap_eq_nil_iff.mpr ?_
  intro e member
  rw [(h.seen e member).1]
  exact other

omit [Client σ ρ] [Sink κ] in
theorem Traceless.unopened (h : r.Traceless sink actions events) : openings events = [] :=
  h.none_seen rfl

/-- What a run has learned of its partitions: some wait for their bounds, or a question has failed,
or all bounds are known and those with something to read are asked for or wait to be opened. -/
inductive Learned (sink : κ) (targets : List Int) (r : Run σ ρ κ) (actions : List (Action σ))
    (events : List Event) (told : List (Int × Except RunError Bound)) : Prop where
  | asking {waiting : List Int} {found : List Bound} (stage : r.stage = .resolving waiting found)
      (answers : told = found.map Bound.answer)
      (asked : (waiting ++ found.map (·.partition)).Perm targets)
      (traceless : r.Traceless sink actions events)
  | failed {found : List Bound} {p : Int} {e : RunError} (stage : r.stage = .returned (.error e))
      (answers : told = found.map Bound.answer ++ [(p, .error e)])
      (traceless : r.Traceless sink actions events)
  | working {found : List Bound} (begun : ∀ waiting done, r.stage ≠ .resolving waiting done)
      (answers : told = found.map Bound.answer)
      (asked : (found.map (·.partition)).Perm targets)
      (opened : (openings events ++ r.supervision.stage.waiting.map Bound.place).Perm
        ((found.filter fun b => !b.isEmpty).map Bound.place))
      (within : ∀ b ∈ r.supervision.bounds, b ∈ found ∧ b.isEmpty = false)
      (finished : ∀ result, r.stage = .returned result → r.supervision.isFinished = true)

omit [Client σ ρ] [Sink κ] in
/-- A step that shows nothing and leaves output, workers and coordination alone. -/
theorem Traceless.frame (h : r.Traceless sink actions events)
    (workers : t.supervision.workers = r.supervision.workers) (drain : t.drain = r.drain)
    (coordination : t.supervision.coordination = r.supervision.coordination) :
    t.Traceless sink (actions ++ [a]) (events ++ []) := by
  refine ⟨?_, workers.trans h.workers, drain ▸ h.sink, coordination ▸ h.firstError, ?_⟩
  · intro e member
    rw [List.append_nil] at member
    obtain ⟨closing, outside⟩ := h.seen e member
    exact ⟨closing, List.mem_append_left _ outside⟩
  · rw [coordination]
    exact fun closing => List.mem_append_left _ (h.closing closing)

omit [Sink κ] in
/-- Before the workers begin, only what comes from outside may happen to them. -/
theorem Traceless.supervised {b : Supervision.Action σ} {supervision : Supervision σ ρ}
    {waiting : List Int} {found : List Bound} (h : r.Traceless sink actions events)
    (stage : r.stage = .resolving waiting found) (allowed : r.allows b = true)
    (step : Supervision.Step r.supervision b fs supervision) :
    Traceless sink { r with supervision } (actions ++ [.supervise b]) (events ++ fs) := by
  cases step with
  | shutDown =>
    have asked : Action.supervise Supervision.Action.shutdown ∈
        actions ++ [.supervise .shutdown] := List.mem_append_right _ (List.mem_singleton.mpr rfl)
    refine ⟨?_, h.workers, h.sink, h.firstError, fun _ => asked⟩
    intro e member
    rcases List.mem_append.mp member with old | new
    · exact ⟨(h.seen e old).1, asked⟩
    · exact ⟨List.mem_singleton.mp new, asked⟩
  | changed => exact h.frame rfl rfl rfl
  | advanced => exact h.frame rfl rfl rfl
  | _ => simp [allows, isActive, stage] at allowed

omit [Client σ ρ] [Sink κ] in
/-- The workers are about to begin. -/
theorem Learned.begins {i : Nat} {waiting : List Int} {found : List Bound} {p : Int} {b : Bound}
    {client : σ} (asked : (waiting ++ found.map (·.partition)).Perm targets)
    (traceless : r.Traceless sink actions events) (next : waiting[i]? = some p)
    (last : waiting.eraseIdx i = []) (same : b.partition = p) :
    Learned sink targets { r with
      supervision.client := client
      supervision.stage := .after ((boundsInOrder (found ++ [b])).filter fun b => !b.isEmpty) []
      stage := .draining } (actions ++ [a]) events ((found ++ [b]).map Bound.answer) := by
  have ready : ((boundsInOrder (found ++ [b])).filter fun b => !b.isEmpty).Perm
      ((found ++ [b]).filter fun b => !b.isEmpty) := (List.mergeSort_perm _ _).filter _
  refine .working (by simp) rfl ?_ ?_ ?_ (by simp)
  · have moved := Supervision.perm_of_eraseIdx next (found.map (·.partition))
    rw [last, List.nil_append, ← same] at moved
    rw [List.map_append]
    exact moved.trans asked
  · rw [traceless.unopened, List.nil_append, Supervision.waiting_after]
    exact ready.map _
  · intro c member
    simp only [Supervision.bounds, traceless.workers, List.map_nil, List.append_nil] at member
    have inside := ready.mem_iff.mp (by simpa using (Supervision.bounds_after _ _).mem_iff.mp member)
    simpa using List.mem_filter.mp inside

theorem Learned.step (h : r.Learned sink targets actions events told) (step : Step r a fs t) :
    t.Learned sink targets (actions ++ [a]) (events ++ fs) (told ++ (r.answer? a).toList) := by
  cases h with
  | @asking waiting found stage answers asked traceless =>
    subst answers
    cases step with
    | @unresolved i waiting' bounds p e client stage' next answer =>
      obtain ⟨rfl, rfl⟩ := Stage.resolving.inj (stage.symm.trans stage')
      have new : r.answer? (.resolve i) = some (p, .error e) := by simp [answer?, stage, next, answer]
      rw [new]
      exact .failed rfl rfl (traceless.frame rfl rfl rfl)
    | @resolved i waiting' bounds p b client stage' next more answer =>
      obtain ⟨rfl, rfl⟩ := Stage.resolving.inj (stage.symm.trans stage')
      have own := Request.resolve_partition answer
      have new : r.answer? (.resolve i) = some b.answer := by
        simp [answer?, stage, next, answer, Bound.answer, own]
      rw [new]
      refine .asking rfl (by simp) ?_ (traceless.frame rfl rfl rfl)
      rw [List.map_append, List.map_singleton, own]
      exact (Supervision.perm_of_eraseIdx next _).trans asked
    | @resolvedLast i waiting' bounds p b client stage' next last answer =>
      obtain ⟨rfl, rfl⟩ := Stage.resolving.inj (stage.symm.trans stage')
      have own := Request.resolve_partition answer
      have new : r.answer? (.resolve i) = some b.answer := by
        simp [answer?, stage, next, answer, Bound.answer, own]
      rw [new, List.append_nil]
      simpa using Learned.begins asked traceless next last own
    | supervised allowed step =>
      exact .asking stage (by simp [answer?]) asked (traceless.supervised stage allowed step)
    | drained active => simp [isActive, stage] at active
    | outputEnded other | outputFailed other | returned other => simp [stage] at other
  | failed stage => exact absurd stage (step.not_returned _)
  | @working found begun answers asked opened within finished =>
    subst answers
    cases step with
    | unresolved stage | resolved stage | resolvedLast stage => exact absurd stage (begun _ _)
    | supervised allowed step =>
      refine .working begun (by simp [answer?]) asked ?_ ?_ ?_
      · rw [openings_append, List.append_assoc]
        exact (step.openings_perm.append_left _).trans opened
      · exact fun b member => within b (step.bounds_subset b member)
      · exact fun result stage => absurd stage ((Step.supervised allowed step).not_returned result)
    | drained active step =>
      refine .working begun (by simp [answer?]) asked ?_ within ?_
      · simpa [step.openings_eq] using opened
      · exact fun result stage => absurd stage ((Step.drained active step).not_returned result)
    | outputEnded | outputFailed =>
      exact .working (by simp) (by simp [answer?]) asked (by simpa [shutdown] using opened) within
        (by simp)
    | returned stage ended =>
      exact .working (by simp) (by simp [answer?]) asked (by simpa [shutdown] using opened) within
        fun _ _ => ended

omit [Sink κ] in
theorem traceless_begin :
    (begin request chain client sink : Run σ ρ κ).Traceless sink [] [] := by
  obtain ⟨client', stage, opening, same⟩ := begin_cases (ρ := ρ) request chain client sink
  rw [same]
  refine ⟨by simp, rfl, ?_, rfl, fun closing => by cases closing⟩
  cases request.tail <;> rfl

omit [Sink κ] in
theorem begin_request : (begin request chain client sink : Run σ ρ κ).request = request := by
  obtain ⟨_, _, _, same⟩ := begin_cases (ρ := ρ) request chain client sink
  rw [same]

/-- What a run has learned, in every state that it reaches. -/
theorem learned_of_reaches (run : Reaches Moves (begin request chain client sink) actions events r)
    (waits : (begin request chain client sink : Run σ ρ κ).stage = .resolving targets []) :
    r.Learned sink targets actions events
      ((begin request chain client sink : Run σ ρ κ).resolutions actions) := by
  induction run with
  | refl => exact .asking waits rfl (by simp) traceless_begin
  | next before move ih =>
    rw [resolutions_snoc before move]
    exact ih.step (step_cases move)

/-- A run that has just begun, with nobody at work. -/
def fresh (request : Request) (chain : Chain) (client : σ) (sink : κ) (stage : Stage) : Run σ ρ κ :=
  ⟨request, .ofBounds client request.topic (if request.isBounded then some request.idle else none) [],
    .ofTail chain sink request.tail, stage⟩

omit [Sink κ] in
/-- A valid request for some partitions begins by asking for their bounds. -/
theorem begin_of_targets {client' : σ} (valid : request.validate = .ok ())
    (listed : (partitions request : Query σ (List Int)).run client = (.ok targets, client'))
    (some : targets ≠ []) :
    (begin request chain client sink : Run σ ρ κ) =
      fresh request chain client' sink (.resolving targets []) := by
  unfold begin
  rw [valid, listed]
  cases targets with
  | nil => exact absurd rfl some
  | cons p rest => rfl

omit [Sink κ] in
/-- A topic without partitions is read at once. -/
theorem begin_of_nothing {client' : σ} (valid : request.validate = .ok ())
    (listed : (partitions request : Query σ (List Int)).run client = (.ok [], client')) :
    (begin request chain client sink : Run σ ρ κ) =
      fresh request chain client' sink (.returned (.ok ())) := by
  unfold begin
  rw [valid, listed]
  rfl

omit [Sink κ] in
theorem begin_of_invalid {e : RunError} (invalid : request.validate = .error e) :
    (begin request chain client sink : Run σ ρ κ) =
      fresh request chain client sink (.returned (.error e)) := by
  unfold begin
  rw [invalid]
  rfl

omit [Sink κ] in
theorem begin_of_unlisted {client' : σ} {e : RunError} (valid : request.validate = .ok ())
    (failure : (partitions request : Query σ (List Int)).run client = (.error e, client')) :
    (begin request chain client sink : Run σ ρ κ) =
      fresh request chain client' sink (.returned (.error e)) := by
  unfold begin
  rw [valid, failure]
  rfl

omit [Sink κ] in
/-- A run that waits for bounds has a valid request, and waits for the partitions that it names or
that the client lists. -/
theorem targets_of_begin
    (stage : (begin request chain client sink : Run σ ρ κ).stage = .resolving targets []) :
    request.validate = .ok () ∧ ∃ client',
      (partitions request : Query σ (List Int)).run client = (.ok targets, client') := by
  unfold begin at stage
  cases valid : request.validate with
  | error e =>
    rw [valid] at stage
    cases stage
  | ok _ =>
    rw [valid] at stage
    simp only at stage
    split at stage
    · cases stage
    · cases stage
    · rename_i listed client' _ answer
      cases stage
      exact ⟨rfl, client', answer⟩

theorem Step.request_eq (step : Step r a fs t) : t.request = r.request := by
  cases step <;> rfl

/-- Each answer is what the client gave to the question for the bound of that partition. -/
theorem mem_resolutions {x : Int × Except RunError Bound} (member : x ∈ r.resolutions actions) :
    ∃ client, ((r.request.resolve x.1 : Query σ Bound).run client).1 = x.2 := by
  induction actions generalizing r with
  | nil => cases member
  | cons a rest ih =>
    rcases List.mem_append.mp member with now | later
    · have now := Option.mem_toList.mp now
      unfold answer? at now
      split at now
      · split at now
        · obtain ⟨p, _, rfl⟩ := Option.map_eq_some_iff.mp now
          exact ⟨_, rfl⟩
        · cases now
      · cases now
    · split at later
      · rename_i t _ move
        rw [← (step_cases move).request_eq]
        exact ih later
      · cases later

/-- A run that has begun at its end stays as it is. -/
theorem ended_of_returned (run : Reaches Moves (begin request chain client sink) actions events r)
    {result : Except RunError Unit}
    (stage : (begin request chain client sink : Run σ ρ κ).stage = .returned result) :
    actions = [] ∧ events = [] ∧ r = begin request chain client sink := by
  induction run with
  | refl => exact ⟨rfl, rfl, rfl⟩
  | next before move ih =>
    obtain ⟨_, _, rfl⟩ := ih
    exact absurd stage ((step_cases move).not_returned result)

/-- What has returned before it asked for any bound has done nothing. -/
theorem ended_of_fresh {client' : σ} {result : Except RunError Unit}
    (begun : (begin request chain client sink : Run σ ρ κ) =
      fresh request chain client' sink (.returned result))
    (run : Reaches Moves (begin request chain client sink) actions events r) :
    actions = [] ∧ events = [] ∧ r.result? = some result ∧ r.supervision.client = client' ∧
      r.Traceless sink actions events := by
  have stage : (begin request chain client sink : Run σ ρ κ).stage = .returned result := by
    rw [begun]
    rfl
  obtain ⟨rfl, rfl, rfl⟩ := ended_of_returned run stage
  refine ⟨rfl, rfl, ?_, ?_, traceless_begin⟩
  · rw [begun]
    rfl
  · rw [begun]
    rfl

/-- A run that has not begun at its end learns of its partitions. -/
theorem learned_cases (run : Reaches Moves (begin request chain client sink) actions events r) :
    (∃ result, (begin request chain client sink : Run σ ρ κ).stage = .returned result ∧
      actions = [] ∧ events = [] ∧ r = begin request chain client sink) ∨
    ∃ targets, targets ≠ [] ∧ targets.Nodup ∧
      (begin request chain client sink : Run σ ρ κ).stage = .resolving targets [] ∧
      r.Learned sink targets actions events
        ((begin request chain client sink : Run σ ρ κ).resolutions actions) := by
  obtain ⟨client', stage, opening, same⟩ := begin_cases (ρ := ρ) request chain client sink
  have stage_eq : (begin request chain client sink : Run σ ρ κ).stage = stage := by rw [same]
  cases opening with
  | refused e => exact .inl ⟨_, stage_eq, ended_of_returned run stage_eq⟩
  | empty => exact .inl ⟨_, stage_eq, ended_of_returned run stage_eq⟩
  | waiting some distinct =>
    exact .inr ⟨_, some, distinct, stage_eq, learned_of_reaches run stage_eq⟩

end Run
end TopicReader
