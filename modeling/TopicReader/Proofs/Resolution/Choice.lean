import Mathlib.Data.List.Sort
import TopicReader.Client.Script
import TopicReader.Proofs.Resolution.Answers

/-! Which partitions are named. What a run does depends on the set of partitions that its request
names, and neither on their order nor on how often each of them is named. A request that names none
stands for the partitions that the client lists. -/
namespace TopicReader

namespace Run

/-- What is in ascending order and loses its repetitions ascends at each step. -/
theorem pairwise_eraseDups : (l : List Int) → l.Pairwise (· ≤ ·) → l.eraseDups.Pairwise (· < ·)
  | [], _ => by simp
  | a :: rest, sorted => by
    obtain ⟨least, tail⟩ := List.pairwise_cons.mp sorted
    rw [List.eraseDups_cons, List.pairwise_cons]
    constructor
    · intro b member
      obtain ⟨inside, other⟩ := List.mem_filter.mp (List.mem_eraseDups.mp member)
      have different : b ≠ a := by simpa using other
      exact lt_of_le_of_ne (least b inside) different.symm
    · exact pairwise_eraseDups (rest.filter _) (tail.filter _)
  termination_by l => l.length
  decreasing_by exact Nat.lt_succ_of_le (List.length_filter_le _ _)

theorem distinct_ascends (ps : List Int) : (distinct ps).Pairwise (· < ·) :=
  pairwise_eraseDups _ (List.pairwise_mergeSort' (· ≤ ·) ps)

/-- There is one way to put down a set of partitions. -/
theorem distinct_eq_of_mem_iff {ps qs : List Int} (same : ∀ p, p ∈ ps ↔ p ∈ qs) :
    distinct ps = distinct qs := by
  apply (distinct_ascends ps).eq_of_mem_iff (distinct_ascends qs)
  intro p
  rw [mem_distinct, mem_distinct]
  exact same p

theorem distinct_ne_nil {ps : List Int} (some : ps ≠ []) : distinct ps ≠ [] := by
  intro none
  obtain ⟨p, member⟩ := List.exists_mem_of_ne_nil ps some
  have inside := mem_distinct.mpr member
  rw [none] at inside
  cases inside

section
variable {σ ρ κ : Type} {r s t : Run σ ρ κ} {ps qs : List Int}

/-- The run as it is when its request has named other partitions. -/
def naming (ps : List Int) (r : Run σ ρ κ) : Run σ ρ κ :=
  { r with request.partitions := ps }

@[simp] theorem naming_naming : (r.naming ps).naming qs = r.naming qs := rfl

@[simp] theorem naming_self : r.naming r.request.partitions = r := rfl

@[simp] theorem naming_request : (r.naming ps).request = { r.request with partitions := ps } := rfl

@[simp] theorem naming_stage : (r.naming ps).stage = r.stage := rfl

@[simp] theorem naming_supervision : (r.naming ps).supervision = r.supervision := rfl

@[simp] theorem naming_drain : (r.naming ps).drain = r.drain := rfl

variable [Client σ ρ] [Sink κ] {actions : List (Action σ)} {events fs : List Event} {a : Action σ}

omit [Sink κ] in
theorem naming_resolve (waiting : List Int) (found : List Bound) (p : Int) :
    (r.naming ps).resolve waiting found p = (r.resolve waiting found p).naming ps := by
  have question : (({ r.request with partitions := ps } : Request).resolve p : Query σ Bound) =
      r.request.resolve p := rfl
  simp only [resolve, naming_request, naming_supervision, question]
  cases (r.request.resolve p : Query σ Bound).run r.supervision.client with
  | mk answer client =>
    cases answer with
    | error e => rfl
    | ok b => cases waiting <;> rfl

/-- No step looks at the partitions that were named. -/
theorem naming_step (a : Action σ) :
    (r.naming ps).step a = (r.step a).map fun (t, fs) => (t.naming ps, fs) := by
  cases a with
  | resolve i =>
    simp only [step, naming_stage]
    cases r.stage with
    | resolving waiting found =>
      simp only [naming_resolve]
      cases waiting[i]? <;> rfl
    | draining | joining | returned => rfl
  | supervise b =>
    have allowed : (r.naming ps).allows b = r.allows b := by cases b <;> rfl
    simp only [step, allowed, naming_supervision]
    split
    · cases r.supervision.step b <;> rfl
    · rfl
  | drain =>
    have active : (r.naming ps).isActive = r.isActive := rfl
    simp only [step, active, naming_supervision, naming_drain]
    split
    · cases r.drain.step r.supervision.coordination r.supervision.funnel <;> rfl
    · rfl
  | settle =>
    simp only [step, settle, naming_stage, naming_supervision, naming_drain]
    cases r.stage with
    | draining =>
      simp only
      cases r.drain.result? with
      | none => rfl
      | some result => cases result <;> rfl
    | joining drained =>
      have closed : (r.naming ps).shutdown = r.shutdown.naming ps := rfl
      simp only [closed, apply_ite (Option.map _)]
      rfl
    | resolving | returned => rfl

theorem naming_resolutions (actions : List (Action σ)) :
    (r.naming ps).resolutions actions = r.resolutions actions := by
  induction actions generalizing r with
  | nil => rfl
  | cons a rest ih =>
    have answer : (r.naming ps).answer? a = r.answer? a := by cases a <;> rfl
    simp only [resolutions, answer, naming_step]
    cases r.step a with
    | none => rfl
    | some next => simp only [Option.map_some, ih]

theorem naming_reaches (ps : List Int) (run : Reaches Moves r actions events t) :
    Reaches Moves (r.naming ps) actions events (t.naming ps) := by
  apply run.map (naming ps)
  intro u a fs v move
  rw [Moves, naming_step, show u.step a = some (v, fs) from move]
  rfl

/-- What may come of a run: what it has written, and what it has returned. -/
def outcomes (s : Run σ ρ κ) : Set (List Record × Option (Except RunError Unit)) :=
  {outcome | ∃ actions events r, Reaches Moves s actions events r ∧
    outcome = (emitted events, r.result?)}

/-- Two runs that are the same but for the partitions that were named. Both ask the same questions and
get the same answers, and whatever the one does, the other can do, up to the same state. -/
structure Alike (s t : Run σ ρ κ) : Prop where
  answers : ∀ actions, s.resolutions actions = t.resolutions actions
  goes : ∀ {actions events r}, Reaches Moves s actions events r →
    Reaches Moves t actions events (r.naming t.request.partitions)
  comes : ∀ {actions events r}, Reaches Moves t actions events r →
    Reaches Moves s actions events (r.naming s.request.partitions)
  outcomes : s.outcomes = t.outcomes

theorem outcomes_subset (goes : ∀ {actions events r}, Reaches Moves s actions events r →
    Reaches Moves t actions events (r.naming ps)) : s.outcomes ⊆ t.outcomes := by
  rintro _ ⟨actions, events, r, run, rfl⟩
  exact ⟨actions, events, r.naming ps, goes run, rfl⟩

theorem alike_naming (ps : List Int) (r : Run σ ρ κ) : Alike r (r.naming ps) := by
  have comes {actions : List (Action σ)} {events : List Event} {t : Run σ ρ κ}
      (run : Reaches Moves (r.naming ps) actions events t) :
      Reaches Moves r actions events (t.naming r.request.partitions) := by
    have back := naming_reaches r.request.partitions run
    rwa [naming_naming, naming_self] at back
  constructor
  · intro actions
    exact (naming_resolutions actions).symm
  · exact naming_reaches ps
  · exact comes
  · exact Set.Subset.antisymm (outcomes_subset (naming_reaches ps)) (outcomes_subset comes)

end

section
variable {σ ρ κ : Type} {r : Run σ ρ κ} {sink : κ} {targets : List Int} {actions : List (Action σ)}
  {events : List Event} {told : List (Int × Except RunError Bound)} {p : Int}

/-- How readers are opened for some partitions, given what was told of their bounds. Each reader is for
another one of them, and begins where its bound does. Once a run has returned without an error among
the bounds, every partition has one, and a reader if there is something to read. -/
structure Opens (ps : List Int) (r : Run σ ρ κ) (told : List (Int × Except RunError Bound))
    (events : List Event) : Prop where
  once : ((openings events).map (·.1)).Nodup
  named : ∀ x ∈ openings events, x.1 ∈ ps ∧
    ∃ b, (x.1, .ok b) ∈ told ∧ b.isEmpty = false ∧ b.place = x
  all : r.request.validate = .ok () → r.result?.isSome → (∀ p e, (p, .error e) ∉ told) →
    ∀ p ∈ ps, ∃ b, (p, .ok b) ∈ told ∧ (p ∈ (openings events).map (·.1) ↔ b.isEmpty = false)

theorem Learned.opened_once (h : r.Learned sink targets actions events told)
    (distinct : targets.Nodup) : ((openings events).map (·.1)).Nodup := by
  cases h with
  | asking _ _ _ traceless => simp [traceless.unopened]
  | failed _ _ traceless => simp [traceless.unopened]
  | @working found _ _ asked opened =>
    have nodup : (found.map (·.partition)).Nodup := asked.nodup_iff.mpr distinct
    have ready : (((found.filter fun b => !b.isEmpty).map Bound.place).map (·.1)).Nodup := by
      rw [List.map_map]
      exact nodup.sublist ((List.filter_sublist).map _)
    have all := (opened.map (·.1)).nodup_iff.mpr ready
    rw [List.map_append] at all
    exact all.of_append_left

theorem Learned.found_of_opened (h : r.Learned sink targets actions events told) {x : Int × Int}
    (opening : x ∈ openings events) :
    x.1 ∈ targets ∧ ∃ b, (x.1, .ok b) ∈ told ∧ b.isEmpty = false ∧ b.place = x := by
  cases h with
  | asking _ _ _ traceless => simp [traceless.unopened] at opening
  | failed _ _ traceless => simp [traceless.unopened] at opening
  | @working found _ answers asked opened =>
    obtain ⟨b, ready, rfl⟩ := List.mem_map.mp (opened.subset (List.mem_append_left _ opening))
    obtain ⟨inside, some⟩ := List.mem_filter.mp ready
    constructor
    · exact asked.subset (List.mem_map.mpr ⟨b, inside, rfl⟩)
    · exact ⟨b, answers ▸ List.mem_map.mpr ⟨b, inside, rfl⟩, by simpa using some, rfl⟩

theorem Learned.opened_iff (h : r.Learned sink targets actions events told) (distinct : targets.Nodup)
    (returned : r.result?.isSome) (well : ∀ q e, (q, .error e) ∉ told) (member : p ∈ targets) :
    ∃ b, (p, .ok b) ∈ told ∧ (p ∈ (openings events).map (·.1) ↔ b.isEmpty = false) := by
  cases h with
  | asking stage => simp [result?, stage] at returned
  | @failed found q e _ answers =>
    subst answers
    exact absurd (List.mem_append_right _ (List.mem_singleton.mpr rfl)) (well q e)
  | @working found _ answers asked opened _ finished =>
    have nodup : (found.map (·.partition)).Nodup := asked.nodup_iff.mpr distinct
    obtain ⟨b, inside, rfl⟩ := List.mem_map.mp (asked.mem_iff.mpr member)
    refine ⟨b, answers ▸ List.mem_map.mpr ⟨b, inside, rfl⟩, ?_, ?_⟩
    · intro opening
      obtain ⟨x, at_place, same⟩ := List.mem_map.mp opening
      obtain ⟨c, ready, rfl⟩ := List.mem_map.mp (opened.subset (List.mem_append_left _ at_place))
      obtain ⟨known, some⟩ := List.mem_filter.mp ready
      obtain rfl := List.inj_on_of_nodup_map nodup known inside same
      simpa using some
    · intro some
      have done : r.supervision.isFinished = true := by
        cases stage : r.stage with
        | returned result => exact finished result stage
        | resolving | draining | joining => simp [result?, stage] at returned
      have place : b.place ∈ openings events ++ r.supervision.stage.waiting.map Bound.place :=
        opened.mem_iff.mpr (List.mem_map.mpr ⟨b, List.mem_filter.mpr ⟨inside, by simp [some]⟩, rfl⟩)
      have nobody : r.supervision.stage.waiting = [] := by
        rw [(Supervision.isFinished_iff.mp done).1]
        rfl
      rw [nobody, List.map_nil, List.append_nil] at place
      exact List.mem_map.mpr ⟨_, place, rfl⟩

end

section
variable {σ ρ κ : Type} [Client σ ρ] {request : Request} {chain : Chain} {client client' : σ} {sink : κ}
  {ps qs listed : List Int}

omit [Client σ ρ] in
theorem validate_naming (ps : List Int) :
    ({ request with partitions := ps } : Request).validate = request.validate := rfl

theorem partitions_of_named (named : ps ≠ []) :
    (partitions { request with partitions := ps } : Query σ (List Int)).run client =
      (.ok (distinct ps), client) := by
  rw [partitions, if_neg named]
  rfl

theorem partitions_of_listed
    (answer : (Client.partitions request.topic : Query σ (List Int)).run client =
      (.ok listed, client')) :
    (partitions { request with partitions := [] } : Query σ (List Int)).run client =
      (.ok (distinct listed), client') := by
  rw [partitions, if_pos rfl, map_eq_pure_bind, Query.run_bind, answer]
  rfl

/-- A valid request that names partitions begins with each of them once. -/
theorem begin_of_named (valid : request.validate = .ok ()) (named : ps ≠ []) :
    (begin { request with partitions := ps } chain client sink : Run σ ρ κ) =
      fresh { request with partitions := ps } chain client sink (.resolving (distinct ps) []) := by
  rw [← validate_naming ps] at valid
  exact begin_of_targets valid (partitions_of_named named) (distinct_ne_nil named)

/-- An invalid request is refused, whatever it names. -/
theorem begin_naming_of_invalid {e : RunError} (invalid : request.validate = .error e)
    (ps qs : List Int) :
    (begin { request with partitions := qs } chain client sink : Run σ ρ κ) =
      (begin { request with partitions := ps } chain client sink : Run σ ρ κ).naming qs := by
  rw [begin_of_invalid ((validate_naming qs).trans invalid),
    begin_of_invalid ((validate_naming ps).trans invalid)]
  rfl

/-- Where the same partitions are named, a run begins in the same way. -/
theorem begin_naming (named : ps ≠ []) (others : qs ≠ []) (same : ∀ p, p ∈ ps ↔ p ∈ qs) :
    (begin { request with partitions := qs } chain client sink : Run σ ρ κ) =
      (begin { request with partitions := ps } chain client sink : Run σ ρ κ).naming qs := by
  cases valid : request.validate with
  | error e => exact begin_naming_of_invalid valid ps qs
  | ok _ =>
    rw [begin_of_named valid named, begin_of_named valid others, distinct_eq_of_mem_iff same]
    rfl

/-- Where no partition is named, a run begins as if those that the client lists had been. -/
theorem begin_naming_listed (valid : request.validate = .ok ()) (some : listed ≠ [])
    (answer : (Client.partitions request.topic : Query σ (List Int)).run client =
      (.ok listed, client')) :
    (begin { request with partitions := listed } chain client' sink : Run σ ρ κ) =
      (begin { request with partitions := [] } chain client sink : Run σ ρ κ).naming listed := by
  rw [begin_of_named valid some, begin_of_targets ((validate_naming []).trans valid)
    (partitions_of_listed answer) (distinct_ne_nil some)]
  rfl

end

section
variable {σ ρ κ : Type} [Client σ ρ] [Sink κ]

/-- Requests that name the same partitions have the same runs, however often each is named, and one
that names none has those of the listed ones. Partitions with nothing to read are not opened. -/
theorem partitions_as_set (request : Request) (chain : Chain) (client : σ) (sink : κ) :
    (∀ ps qs, ps ≠ [] → qs ≠ [] → (∀ p, p ∈ ps ↔ p ∈ qs) →
      Alike (begin { request with partitions := ps } chain client sink : Run σ ρ κ)
        (begin { request with partitions := qs } chain client sink)) ∧
    (∀ ps actions events (r : Run σ ρ κ), ps ≠ [] →
      Reaches Moves (begin { request with partitions := ps } chain client sink) actions events r →
      r.Opens ps ((begin { request with partitions := ps } chain client sink :
        Run σ ρ κ).resolutions actions) events) ∧
    (∀ listed client', request.validate = .ok () →
      (Client.partitions request.topic : Query σ (List Int)).run client = (.ok listed, client') →
      (listed ≠ [] →
        Alike (begin { request with partitions := [] } chain client sink : Run σ ρ κ)
          (begin { request with partitions := listed } chain client' sink)) ∧
      (listed = [] → ∀ actions events (r : Run σ ρ κ),
        Reaches Moves (begin { request with partitions := [] } chain client sink) actions events r →
        actions = [] ∧ events = [] ∧ r.result? = some (.ok ()) ∧ r.supervision.client = client' ∧
          r.drain.sink = sink)) ∧
    ∀ e ps qs, request.validate = .error e →
      Alike (begin { request with partitions := ps } chain client sink : Run σ ρ κ)
        (begin { request with partitions := qs } chain client sink) := by
  refine ⟨?_, ?_, ?_, ?_⟩
  · intro ps qs named others same
    rw [begin_naming named others same]
    exact alike_naming qs _
  · intro ps actions events r named run
    rcases learned_cases run with ⟨_, stage, rfl, rfl, rfl⟩ | ⟨targets, _, nodup, stage, learned⟩
    · refine ⟨List.nodup_nil, by simp, fun valid => ?_⟩
      rw [begin_request] at valid
      rw [begin_of_named valid named] at stage
      cases stage
    · obtain ⟨_, _, listed⟩ := targets_of_begin stage
      rw [partitions_of_named named] at listed
      cases listed
      constructor
      · exact learned.opened_once nodup
      · intro x opening
        exact (learned.found_of_opened opening).imp_left mem_distinct.mp
      · intro _ returned well p member
        exact learned.opened_iff nodup returned well (mem_distinct.mpr member)
  · intro listed client' valid answer
    constructor
    · intro some
      rw [begin_naming_listed valid some answer]
      exact alike_naming listed _
    · rintro rfl actions events r run
      have nothing := partitions_of_listed answer
      rw [show distinct [] = [] by simp [distinct]] at nothing
      obtain ⟨still, silent, result, asked, traceless⟩ :=
        ended_of_fresh (begin_of_nothing ((validate_naming []).trans valid) nothing) run
      exact ⟨still, silent, result, asked, traceless.sink⟩
  · intro e ps qs invalid
    rw [begin_naming_of_invalid invalid ps qs]
    exact alike_naming qs _

end

/-- Two partitions, of which the second is named twice. -/
def twiceNamed : Request :=
  { topic := "t", partitions := [1, 0, 1], fromBeginning := true, exit := true }

/-- Nothing is in the first partition, and one message in the second. -/
def halfEmpty : Script :=
  { parts := [{ id := 0, oldest := some 0, newest := some 0 },
      { id := 1, oldest := some 0, newest := some 1,
        steps := [.deliver (.message ⟨1, 0, none, some [97], none, []⟩)] }] }

def halfEmptySteps : List (Action Script) :=
  [.resolve 0, .resolve 0, .supervise (.openReader 0), .supervise .start, .supervise .start,
    .supervise (.work 0), .supervise (.work 0), .drain, .drain, .drain, .settle, .settle]

theorem halfEmpty_read : ∃ (r : Run Script (List Script.Step) Memory) (events : List Event),
    Reaches Moves (begin twiceNamed .default halfEmpty {}) halfEmptySteps events r ∧
      r.result? = some (.ok ()) ∧ openings events = [(1, 0)] ∧ (emitted events).length = 1 := by
  have replayed : ((begin (ρ := List Script.Step) twiceNamed .default halfEmpty
      ({} : Memory)).replay halfEmptySteps).any (fun (r, events) =>
        r.result? = some (.ok ()) && openings events = [(1, 0)] &&
          (emitted events).length = 1) = true := by
    cbv
  obtain ⟨r, events, run, seen⟩ := exists_of_replay replayed
  simp only [Bool.and_eq_true, decide_eq_true_eq] at seen
  exact ⟨r, events, run, seen.1.1, seen.1.2, seen.2⟩

/-- No reader is opened for a partition that was named and has nothing to read. -/
theorem empty_left_unopened : ∃ (r : Run Script (List Script.Step) Memory) (events : List Event),
    Reaches Moves (begin twiceNamed .default halfEmpty {}) halfEmptySteps events r ∧
      r.result? = some (.ok ()) ∧
      ∃ p ∈ twiceNamed.partitions, ((openings events).map (·.1)).count p ≠ 1 := by
  obtain ⟨r, events, run, well, opened, _⟩ := halfEmpty_read
  refine ⟨r, events, run, well, 0, by decide, ?_⟩
  rw [opened]
  decide

/-- The same comes of the run where each partition is named once, and where none is named. -/
theorem halfEmpty_as_set :
    (∃ (r : Run Script (List Script.Step) Memory) (events : List Event),
      Reaches Moves (begin { twiceNamed with partitions := [0, 1] } .default halfEmpty {})
        halfEmptySteps events r ∧ r.result? = some (.ok ()) ∧ (emitted events).length = 1 ∧
      ((openings events).map (·.1)).Nodup) ∧
    Alike
      (begin { twiceNamed with partitions := [] } .default halfEmpty {} :
        Run Script (List Script.Step) Memory)
      (begin { twiceNamed with partitions := [0, 1] } .default
        { halfEmpty with questions := [.list "t"] } {}) := by
  obtain ⟨alike, opened, listed, _⟩ :=
    partitions_as_set twiceNamed .default halfEmpty ({} : Memory)
  constructor
  · obtain ⟨r, events, run, well, _, written⟩ := halfEmpty_read
    have same := (alike [1, 0, 1] [0, 1] (by simp) (by simp) (by intro p; simp; tauto)).goes run
    have opens := opened [0, 1] _ _ _ (by simp) same
    exact ⟨_, events, same, well, written, opens.once⟩
  · have answer : (Client.partitions twiceNamed.topic : Query Script (List Int)).run halfEmpty =
        (.ok [0, 1], { halfEmpty with questions := [.list "t"] }) := by
      cbv
    exact (listed [0, 1] _ rfl answer).1 (by simp)

end Run
end TopicReader
