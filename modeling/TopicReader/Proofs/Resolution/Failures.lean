import TopicReader.Client.Script
import TopicReader.Proofs.Client.Calls
import TopicReader.Proofs.Resolution.Answers

/-! Failures before anybody is at work. An invalid request, a listing that fails and a bound that
cannot be found end a run with their error, and leave nothing behind. Only a run that has all its
bounds goes on. -/
namespace TopicReader

theorem Request.isConfig_of_invalid {request : Request} {e : RunError}
    (invalid : request.validate = .error e) : e.isConfig = true := by
  unfold validate at invalid
  split at invalid
  · cases invalid
    rfl
  · cases invalid

/-- The question is noted, whatever the answer. -/
theorem Script.oldest_run (topic : String) (p : Int) (s : Script) :
    (Script.oldest topic p).run s =
      ((match (s.part? p).bind (·.oldest) with
        | some n => .ok n
        | none => .error (.offsets p "no oldest")),
        { s with questions := s.questions ++ [.oldest p] }) := by
  have noted : (Script.ask (.oldest p) : Query Script Unit).run s =
      (.ok (), { s with questions := s.questions ++ [.oldest p] }) := rfl
  have read (t : Script) : (get : Query Script Script).run t = (.ok t, t) := rfl
  unfold Script.oldest
  rw [Query.run_bind, noted]
  simp only
  rw [Query.run_bind, read]
  simp only [Script.part?]
  cases (s.parts.find? (·.id = p)).bind (·.oldest) <;> rfl

namespace Run

section
variable {σ ρ κ : Type} [Client σ ρ] [Sink κ] {request : Request} {chain : Chain} {client : σ}
  {sink : κ} {actions more : List (Action σ)} {events fs : List Event} {r s t : Run σ ρ κ}
  {a : Action σ} {targets : List Int} {told : List (Int × Except RunError Bound)} {p : Int}
  {refusing : σ → Prop}

/-- A client that does not give the bound of a partition in some states, and that no question brings
out of them. -/
structure Refuses [Client σ ρ] (request : Request) (p : Int) (refusing : σ → Prop) : Prop where
  fails : ∀ client, refusing client →
    ∃ e, ((request.resolve p : Query σ Bound).run client).1 = .error e
  kept : ∀ client q, refusing client →
    refusing ((request.resolve q : Query σ Bound).run client).2

/-- A step that is not a change from outside to a client that answers again. -/
def MovesOn (refusing : σ → Prop) (r : Run σ ρ κ) (a : Action σ) (events : List Event)
    (t : Run σ ρ κ) : Prop :=
  Moves r a events t ∧
    ∀ f, a = .supervise (.change f) → ∀ client, refusing client → refusing (f client)

/-- A run that waits for a bound that the client refuses. -/
structure AwaitsRefusal (refusing : σ → Prop) (p : Int) (r : Run σ ρ κ) : Prop where
  waits : ∃ waiting found, r.stage = .resolving waiting found ∧ p ∈ waiting
  refuses : Refuses r.request p refusing
  client : refusing r.supervision.client
  unfinished : r.supervision.isFinished = false

/-- The partition keeps waiting until it is asked for its bound, and then at the latest the run
fails. -/
theorem AwaitsRefusal.step (h : r.AwaitsRefusal refusing p) (step : Step r a fs t)
    (outside : ∀ f, a = .supervise (.change f) → ∀ client, refusing client → refusing (f client)) :
    (t.AwaitsRefusal refusing p ∨
      (∃ e, t.stage = .returned (.error e)) ∧ t.supervision.isFinished = false) ∧
      t.stage.waiting.length + (if a.isOwn then 1 else 0) ≤ r.stage.waiting.length := by
  obtain ⟨waiting, found, stage, waits⟩ := h.waits
  have known {q : Int} {b : Bound} {client : σ}
      (answer : (r.request.resolve q : Query σ Bound).run r.supervision.client = (.ok b, client)) :
      p ≠ q := by
    rintro rfl
    obtain ⟨e, failure⟩ := h.refuses.fails _ h.client
    rw [answer] at failure
    cases failure
  have others {i : Nat} {q : Int} (next : waiting[i]? = some q) (other : p ≠ q) :
      p ∈ waiting.eraseIdx i := by
    obtain ⟨bound, rfl⟩ := List.getElem?_eq_some_iff.mp next
    have either := (List.getElem_cons_eraseIdx_perm bound).mem_iff.mpr waits
    exact (List.mem_cons.mp either).resolve_left other
  cases step with
  | unresolved stage' next answer =>
    refine ⟨.inr ⟨⟨_, rfl⟩, h.unfinished⟩, ?_⟩
    have some := List.length_pos_of_mem waits
    simp only [stage, Stage.waiting, List.length_nil, Action.isOwn, if_true]
    omega
  | @resolved i waiting' bounds q b client stage' next more answer =>
    obtain ⟨rfl, rfl⟩ := Stage.resolving.inj (stage.symm.trans stage')
    obtain ⟨bound, _⟩ := List.getElem?_eq_some_iff.mp next
    have after := h.refuses.kept _ q h.client
    rw [answer] at after
    refine ⟨.inl ⟨⟨_, _, rfl, others next (known answer)⟩, h.refuses, after, h.unfinished⟩, ?_⟩
    simp only [stage, Stage.waiting, List.length_eraseIdx_of_lt bound, Action.isOwn, if_true]
    omega
  | resolvedLast stage' next last answer =>
    obtain ⟨rfl, rfl⟩ := Stage.resolving.inj (stage.symm.trans stage')
    have left := others next (known answer)
    rw [last] at left
    cases left
  | supervised allowed step =>
    have going : ∃ waiting found, r.stage = .resolving waiting found ∧ p ∈ waiting :=
      ⟨waiting, found, stage, waits⟩
    have still (b : Supervision.Action σ) (other : Action.isOwn (.supervise b) = false) :
        r.stage.waiting.length + (if Action.isOwn (.supervise b) then 1 else 0) ≤
          r.stage.waiting.length := by simp [other]
    cases step with
    | shutDown => exact ⟨.inl ⟨going, h.refuses, h.client, h.unfinished⟩, still _ rfl⟩
    | changed =>
      exact ⟨.inl ⟨going, h.refuses, outside _ rfl _ h.client, h.unfinished⟩, still _ rfl⟩
    | advanced => exact ⟨.inl ⟨going, h.refuses, h.client, h.unfinished⟩, still _ rfl⟩
    | _ => simp [allows, isActive, stage] at allowed
  | drained active => simp [isActive, stage] at active
  | outputEnded other | outputFailed other | returned other => simp [stage] at other

theorem AwaitsRefusal.exists_step (h : r.AwaitsRefusal refusing p) :
    ∃ (a : Action σ) (fs : List Event) (t : Run σ ρ κ),
      a.isOwn = true ∧ MovesOn refusing r a fs t := by
  obtain ⟨waiting, found, stage, waits⟩ := h.waits
  cases waiting with
  | nil => cases waits
  | cons q rest =>
    refine ⟨.resolve 0, [], r.resolve rest found q, rfl, ?_, by simp⟩
    simp [Moves, Run.step, stage]

/-- Such a run waits, or it has failed, and each of its own steps leaves fewer partitions waiting. -/
theorem AwaitsRefusal.reaches (h : r.AwaitsRefusal refusing p)
    (run : Reaches (MovesOn refusing) r actions events s) :
    (s.AwaitsRefusal refusing p ∨
      (∃ e, s.stage = .returned (.error e)) ∧ s.supervision.isFinished = false) ∧
      actions.countP Action.isOwn + s.stage.waiting.length ≤ r.stage.waiting.length := by
  apply run.descent
  · exact h
  · rintro t es a fs u ⟨⟨e, returned⟩, _⟩ move
    exact (step_cases move.1).not_returned _ returned
  · intro t es a fs u awaits move
    exact awaits.step (step_cases move.1) move.2

omit [Client σ ρ] [Sink κ] in
/-- An error among the answers is the last of them, and the result of the run. -/
theorem Learned.failed_of_error {e : RunError} (h : r.Learned sink targets actions events told)
    (answer : (p, .error e) ∈ told) :
    r.stage = .returned (.error e) ∧ r.Traceless sink actions events := by
  have found_ok {found : List Bound} : (p, .error e) ∉ found.map Bound.answer := by
    simp [Bound.answer]
  cases h with
  | asking _ answers => exact absurd (answers ▸ answer) found_ok
  | failed stage answers traceless =>
    rw [answers] at answer
    have last := (List.mem_append.mp answer).resolve_left found_ok
    obtain ⟨rfl, same⟩ := Prod.mk.inj (List.mem_singleton.mp last)
    cases same
    exact ⟨stage, traceless⟩
  | working _ answers => exact absurd (answers ▸ answer) found_ok

omit [Client σ ρ] [Sink κ] in
/-- Whoever has left a trace belongs to a run that has all its bounds. -/
theorem Learned.all_found (h : r.Learned sink targets actions events told)
    (traces : ¬ r.Traceless sink actions events) : ∀ p ∈ targets, ∃ b, (p, .ok b) ∈ told := by
  cases h with
  | asking _ _ _ traceless => exact absurd traceless traces
  | failed _ _ traceless => exact absurd traceless traces
  | working _ answers asked =>
    subst answers
    intro p member
    obtain ⟨b, found, rfl⟩ := List.mem_map.mp (asked.mem_iff.mpr member)
    exact ⟨b, List.mem_map.mpr ⟨b, found, rfl⟩⟩

omit [Client σ ρ] [Sink κ] in
theorem Learned.traceless_of_resolving {waiting : List Int} {found : List Bound}
    (h : r.Learned sink targets actions events told) (stage : r.stage = .resolving waiting found) :
    r.Traceless sink actions events := by
  cases h with
  | asking _ _ _ traceless => exact traceless
  | failed returned => simp [stage] at returned
  | working begun => exact absurd stage (begun _ _)

omit [Client σ ρ] [Sink κ] in
/-- A run that has failed with workers that are not done has failed before they began. -/
theorem Learned.error_of_failed {e : RunError} (h : r.Learned sink targets actions events told)
    (stage : r.stage = .returned (.error e)) (unfinished : r.supervision.isFinished = false) :
    r.Traceless sink actions events ∧ ∃ p, (p, .error e) ∈ told := by
  cases h with
  | asking resolving => simp [stage] at resolving
  | @failed found p e' stage' answers traceless =>
    obtain rfl := Except.error.inj (Stage.returned.inj (stage.symm.trans stage'))
    exact ⟨traceless, p, answers ▸ List.mem_append_right _ (List.mem_singleton.mpr rfl)⟩
  | working _ _ _ _ _ finished =>
    rw [finished _ stage] at unfinished
    cases unfinished

end

section
variable {σ ρ κ : Type} [Client σ ρ] [Sink κ] {request : Request} {chain : Chain} {client : σ}
  {sink : κ} {actions : List (Action (Noted σ))} {events : List Event} {r : Run (Noted σ) ρ κ}

/-- An invalid request, a failed listing or a bound that cannot be found ends a run with its error
before anything was opened, delivered, written or recorded. -/
theorem failures_leave_no_trace
    (run : Reaches Moves (begin request chain (⟨client, []⟩ : Noted σ) sink) actions events r) :
    (∀ e, request.validate = .error e → e.isConfig = true ∧ actions = [] ∧
      r.result? = some (.error e) ∧ r.supervision.client = ⟨client, []⟩ ∧
      r.Traceless sink actions events) ∧
    (∀ e client', request.validate = .ok () → request.partitions = [] →
      (Client.partitions request.topic : Query σ (List Int)).run client = (.error e, client') →
      actions = [] ∧ r.result? = some (.error e) ∧
        r.supervision.client = ⟨client', [.partitions request.topic]⟩ ∧
        r.Traceless sink actions events) ∧
    (∀ p e, (p, .error e) ∈
        (begin request chain (⟨client, []⟩ : Noted σ) sink : Run _ ρ κ).resolutions actions →
      r.result? = some (.error e) ∧ r.Traceless sink actions events) ∧
    (¬ r.Traceless sink actions events → ∃ targets client',
      (partitions request : Query (Noted σ) (List Int)).run ⟨client, []⟩ = (.ok targets, client') ∧
        ∀ p ∈ targets, ∃ b, (p, .ok b) ∈
          (begin request chain (⟨client, []⟩ : Noted σ) sink : Run _ ρ κ).resolutions actions) ∧
    (∀ targets client' p refusing, request.validate = .ok () →
      (partitions request : Query (Noted σ) (List Int)).run ⟨client, []⟩ = (.ok targets, client') →
      p ∈ targets → Refuses request p refusing → refusing client' →
      ∀ (more : List (Action (Noted σ))) (later : List Event) (s : Run (Noted σ) ρ κ),
        Reaches (MovesOn refusing) (begin request chain (⟨client, []⟩ : Noted σ) sink) more later s →
        more.countP Action.isOwn ≤ targets.length ∧
        (s.result? = none → ∃ a fs t, a.isOwn = true ∧ MovesOn refusing s a fs t) ∧
        s.Traceless sink more later ∧
        ∀ result, s.result? = some result → ∃ q e, result = .error e ∧ (q, .error e) ∈
          (begin request chain (⟨client, []⟩ : Noted σ) sink : Run _ ρ κ).resolutions more) := by
  refine ⟨?_, ?_, ?_, ?_, ?_⟩
  · intro e invalid
    obtain ⟨still, _, result, uncalled, traceless⟩ := ended_of_fresh (begin_of_invalid invalid) run
    exact ⟨Request.isConfig_of_invalid invalid, still, result, uncalled, traceless⟩
  · intro e client' valid all failure
    have asked : (partitions request : Query (Noted σ) (List Int)).run ⟨client, []⟩ =
        (.error e, ⟨client', [.partitions request.topic]⟩) := by
      rw [partitions, if_pos all, map_eq_pure_bind, Query.run_bind, Noted.partitions_run, failure]
      rfl
    obtain ⟨still, _, result, called, traceless⟩ :=
      ended_of_fresh (begin_of_unlisted valid asked) run
    exact ⟨still, result, called, traceless⟩
  · intro p e answer
    rcases learned_cases run with ⟨_, _, rfl, rfl, _⟩ | ⟨targets, _, _, _, learned⟩
    · cases answer
    · obtain ⟨stage, traceless⟩ := learned.failed_of_error answer
      exact ⟨by simp [result?, stage], traceless⟩
  · intro traces
    rcases learned_cases run with ⟨_, _, rfl, rfl, rfl⟩ | ⟨targets, _, _, stage, learned⟩
    · exact absurd traceless_begin traces
    · obtain ⟨_, client', listed⟩ := targets_of_begin stage
      exact ⟨targets, client', listed, learned.all_found traces⟩
  · intro targets client' p refusing valid listed member refuses refused
    have begun : (begin request chain (⟨client, []⟩ : Noted σ) sink : Run _ ρ κ) =
        fresh request chain client' sink (.resolving targets []) :=
      begin_of_targets valid listed (List.ne_nil_of_mem member)
    have awaits : (fresh request chain client' sink (.resolving targets []) :
        Run _ ρ κ).AwaitsRefusal refusing p := ⟨⟨targets, [], rfl, member⟩, refuses, refused, rfl⟩
    rw [← begun] at awaits
    have stage : (begin request chain (⟨client, []⟩ : Noted σ) sink : Run _ ρ κ).stage =
        .resolving targets [] := by
      rw [begun]
      rfl
    intro more later s on
    obtain ⟨state, counted⟩ := awaits.reaches on
    rw [stage] at counted
    have learned := learned_of_reaches (on.mono And.left) stage
    refine ⟨Nat.le_of_add_right_le counted, ?_⟩
    rcases state with awaits | ⟨⟨e, returned⟩, unfinished⟩
    · obtain ⟨waiting, found, resolving, _⟩ := awaits.waits
      refine ⟨fun _ => awaits.exists_step, learned.traceless_of_resolving resolving, ?_⟩
      intro result returned
      simp [result?, resolving] at returned
    · obtain ⟨traceless, q, answer⟩ := learned.error_of_failed returned unfinished
      refine ⟨by simp [result?, returned], traceless, ?_⟩
      intro result same
      simp only [result?, returned, Option.some.injEq] at same
      exact ⟨q, e, same.symm, answer⟩

end

/-- All partitions from the beginning, without an end. -/
def fromStart : Request := { topic := "t", fromBeginning := true }

/-- A client that does not know where the second of three partitions begins. -/
def patchy : Noted Script :=
  ⟨{ parts := [{ id := 0, oldest := some 0 }, { id := 1 }, { id := 2, oldest := some 7 }] }, []⟩

/-- Where it does not know that, it never will by being asked. -/
theorem patchy_refuses : Refuses fromStart 1
    fun s : Noted Script => (s.client.part? 1).bind (·.oldest) = none := by
  have asked (p : Int) (s : Noted Script) :
      ((fromStart.resolve p : Query (Noted Script) Bound).run s).1 =
          (match (s.client.part? p).bind (·.oldest) with
          | some n => .ok ⟨p, n, none⟩
          | none => .error (.offsets p "no oldest")) ∧
        ((fromStart.resolve p : Query (Noted Script) Bound).run s).2.client.parts =
          s.client.parts := by
    have question : (fromStart.resolve p : Query (Noted Script) Bound) =
        Noted.ask (.oldest "t" p) (Script.oldest "t" p) >>= fun n => pure ⟨p, n, none⟩ := rfl
    have answer : (Noted.ask (.oldest "t" p) (Script.oldest "t" p)).run s =
        (((Script.oldest "t" p).run s.client).1,
          s.note (.oldest "t" p) ((Script.oldest "t" p).run s.client).2) := rfl
    rw [question, Query.run_bind, answer, Script.oldest_run]
    cases (s.client.part? p).bind (·.oldest) <;> exact ⟨rfl, rfl⟩
  constructor
  · intro s unknown
    rw [(asked 1 s).1, unknown]
    exact ⟨_, rfl⟩
  · intro s q unknown
    rw [Script.part?, (asked q s).2]
    exact unknown

/-- The third partition is asked first, and then the second one fails; the first one is never
asked. -/
theorem patchy_leaves_no_trace :
    (∃ (r : Run (Noted Script) (List Script.Step) Memory) (events : List Event),
      Reaches Moves (begin fromStart .default patchy {}) [.resolve 2, .resolve 1] events r ∧
      r.supervision.client.calls = [.partitions "t", .oldest "t" 2, .oldest "t" 1] ∧
      r.result? = some (.error (.offsets 1 "no oldest")) ∧
      r.Traceless {} [.resolve 2, .resolve 1] events) ∧
    ∀ (actions : List (Action (Noted Script))) (events : List Event)
        (r : Run (Noted Script) (List Script.Step) Memory),
      Reaches (MovesOn fun s => (s.client.part? 1).bind (·.oldest) = none)
        (begin fromStart .default patchy {}) actions events r →
      actions.countP Action.isOwn ≤ 3 ∧ r.result? ≠ some (.ok ()) := by
  have replayed : ((begin (ρ := List Script.Step) fromStart .default patchy ({} : Memory)).replay
      [.resolve 2, .resolve 1]).any (fun (r, _) => r.supervision.client.calls =
        [.partitions "t", .oldest "t" 2, .oldest "t" 1]) = true := by
    cbv
  obtain ⟨r, events, run, seen⟩ := exists_of_replay replayed
  have answers : (begin (ρ := List Script.Step) fromStart .default patchy ({} : Memory)).resolutions
      [.resolve 2, .resolve 1] =
        [(2, .ok ⟨2, 7, none⟩), (1, .error (.offsets 1 "no oldest"))] := by cbv
  have listed : (partitions fromStart : Query (Noted Script) (List Int)).run patchy =
      (.ok [0, 1, 2],
        ⟨{ patchy.client with questions := [.list "t"] }, [.partitions "t"]⟩) := by
    cbv
  obtain ⟨_, _, failed, _, returns⟩ := failures_leave_no_trace run
  constructor
  · have told : (1, .error (.offsets 1 "no oldest")) ∈
        (begin (ρ := List Script.Step) fromStart .default patchy ({} : Memory)).resolutions
          [.resolve 2, .resolve 1] := by
      rw [answers]
      exact List.mem_cons_of_mem _ List.mem_cons_self
    obtain ⟨result, traceless⟩ := failed _ _ told
    exact ⟨r, events, run, of_decide_eq_true seen, result, traceless⟩
  · intro actions events s on
    obtain ⟨few, _, _, failures⟩ :=
      returns _ _ 1 _ rfl listed (by decide) patchy_refuses rfl actions events s on
    refine ⟨few, fun well => ?_⟩
    obtain ⟨_, _, same, _⟩ := failures _ well
    cases same

end Run
end TopicReader
