import TopicReader.Proofs.Snapshot.Steps

/-! A run with an end that nothing hinders reads each partition up to the end that it had when its
watermarks were queried, writes exactly that, and returns. -/
namespace TopicReader

namespace Run

variable {κ : Type} [Sink κ] {init : LogStore} {request : Request} {chain : Chain} {sink : κ}
  {r t : Run LogStore LogReader κ} {events fs : List Event}

/-- Until it returns, the run can always go on by itself. -/
theorem Intact.exists_step (h : Intact init request chain r events)
    (unhindered : Unhindered init request chain sink) :
    ∃ (a : Action LogStore) (fs : List Event) (t : Run LogStore LogReader κ),
      a.isOwn = true ∧ Proceeds r a fs t :=
  h.underway.exists_step (h.serves unhindered) unhindered.logOf_regular

/-- Whatever happens beside it, a run that nothing hinders is under way or has done its work, and each
of its steps so far was one of those that were left at its beginning. -/
theorem intact_of_reaches (h : Unhindered init request chain sink) {actions : List (Action LogStore)}
    (run : Reaches Proceeds (begin request chain init sink) actions events r) :
    (Intact init request chain r events ∨ Fulfilled init request chain r events) ∧
      actions.countP Action.isOwn + left init r ≤
        left init (begin request chain init sink : Run LogStore LogReader κ) :=
  run.descent h.begin_intact
    (fun _ _ _ _ _ fulfilled move => (step_cases move.1).not_returned _ fulfilled.1)
    fun _ _ _ _ _ intact move => intact.step h move

/-- An unhindered run with an end is bound to return without an error. Of each partition it has then
written what the log held when its watermarks were queried, from the start on and in order. -/
theorem exit_writes_snapshot (h : Unhindered init request chain sink) :
    ∃ bound, ∀ (actions : List (Action LogStore)) (events : List Event)
        (s : Run LogStore LogReader κ),
      Reaches Proceeds (begin request chain init sink) actions events s →
      actions.countP Action.isOwn ≤ bound ∧
      (s.result? = none → ∃ a fs t, a.isOwn = true ∧ Proceeds s a fs t) ∧
      ∀ result, s.result? = some result → result = .ok () ∧ ∃ written,
        written.map (fun x => chain.record x.2) = (emitted events).map .ok ∧
          ∀ p, ofPartition p written = init.demanded request p ∧
            (ofPartition p written).Pairwise (·.offset < ·.offset) := by
  refine ⟨left init (begin request chain init sink : Run LogStore LogReader κ), ?_⟩
  intro actions events s run
  obtain ⟨state, counted⟩ := intact_of_reaches h run
  refine ⟨by omega, ?_, ?_⟩
  · intro unfinished
    rcases state with intact | ⟨stage, _⟩
    · exact intact.exists_step h
    · simp [result?, stage] at unfinished
  · intro result returned
    have ended := stage_of_result? returned
    rcases state with intact | ⟨stage, written, records_eq, complete⟩
    · exact absurd ended (intact.going result)
    · rw [stage] at ended
      cases ended
      refine ⟨rfl, written, records_eq, ?_⟩
      intro p
      refine ⟨complete p, ?_⟩
      rw [complete p]
      exact demanded_ascending h.logOf_regular p

/-- A message that says nothing. -/
def bare (partition offset : Int) : Message := { partition, offset }

theorem bare_record (p offset : Int) :
    Chain.default.record (bare p offset) = .ok { partition := p, offset } := rfl

/-- A topic with two partitions. The offsets of the first have gaps. -/
def sparse : LogStore :=
  { logs := [(("t", 0), .ofMessages [bare 0 0, bare 0 4, bare 0 9]),
      (("t", 1), .ofMessages [bare 1 0])] }

/-- The first partition, from an offset in the first gap on. -/
def fromGap : Request :=
  { topic := "t", partitions := [0], starts := [⟨0, .exactly 1⟩], exit := true }

theorem sparse_logs {p : Int} {log : Log} (known : sparse.log? "t" p = some log) :
    log.Regular ∧ ∀ m ∈ log.messages, ∃ r, Chain.default.record m = .ok r := by
  have either : log = .ofMessages [bare 0 0, bare 0 4, bare 0 9] ∨ log = .ofMessages [bare 1 0] := by
    have held := LogStore.mem_logs_of_log? known
    simp only [sparse, List.mem_cons, Prod.mk.injEq, List.not_mem_nil, or_false] at held
    exact held.imp And.right And.right
  rcases either with rfl | rfl
  · exact ⟨Log.regular_ofMessages (by decide) (by decide) (by decide),
      by simp [Log.ofMessages, bare_record]⟩
  · exact ⟨Log.regular_ofMessages (by decide) (by decide) (by decide),
      by simp [Log.ofMessages, bare_record]⟩

theorem sparse_unhindered : Unhindered sparse fromGap .default ({} : Memory) where
  ending := rfl
  direct := rfl
  begins := .inr (by simp [fromGap])
  named := by decide
  held := ⟨0, by decide⟩
  known := by
    intro p member
    obtain rfl := List.mem_singleton.mp member
    decide
  regular := fun p log known => (sparse_logs known).1
  openings := rfl
  offsets := rfl
  decodes := fun p log known => (sparse_logs known).2
  accepts := Sink.memory_accepts _

/-- The steps up to the one in which the first message is delivered, and those after it. -/
def untilDelivered : List (Action LogStore) :=
  [.resolve 0, .supervise (.openReader 0), .supervise .start, .supervise .start,
    .supervise (.work 0)]

def fromDelivered : List (Action LogStore) :=
  [.supervise (.work 0), .drain, .drain, .supervise (.work 0), .supervise (.work 0), .drain, .drain,
    .drain, .settle, .settle]

/-- A message is appended while the partition is read. -/
def appending : List (Action LogStore) :=
  [.supervise (.change (·.push "t" 0 (bare 0 0))), .supervise (.change LogStore.bump)]

/-- While a run is active messages may be appended. -/
theorem reaches_appending {r : Run LogStore LogReader κ} (active : r.isActive = true) :
    Reaches Proceeds r appending []
      { r with supervision.client := (r.supervision.client.push "t" 0 (bare 0 0)).bump } := by
  have queried : r.stage.waiting = [] := by
    cases stage : r.stage with
    | resolving => simp [isActive, stage] at active
    | _ => rfl
  have allowed (f : LogStore → LogStore) : r.allows (.change f) = true := by
    cases stage : r.stage with
    | returned => simp [isActive, stage] at active
    | _ => simp [allows, stage]
  have first : Proceeds r (.supervise (.change (·.push "t" 0 (bare 0 0)))) []
      { r with supervision.client := r.supervision.client.push "t" 0 (bare 0 0) } := by
    refine ⟨by simp [Moves, step, allowed, Supervision.step], .inr ⟨_, rfl, .push _ ?_⟩⟩
    simp [queried]
  have second : Proceeds
      { r with supervision.client := r.supervision.client.push "t" 0 (bare 0 0) }
      (.supervise (.change LogStore.bump)) []
      { r with supervision.client := (r.supervision.client.push "t" 0 (bare 0 0)).bump } := by
    have allowed := allowed LogStore.bump
    unfold allows at allowed
    exact ⟨by simp [Moves, step, allows, allowed, Supervision.step], .inr ⟨_, rfl, .bump⟩⟩
  exact .next (.next .refl first) second

/-- The message that is appended is not written, nor is the one before the start. -/
theorem sparse_snapshot :
    ∃ (s : Run LogStore LogReader Memory) (events : List Event),
      Reaches Proceeds (begin fromGap .default sparse {})
        (untilDelivered ++ appending ++ fromDelivered) events s ∧
      s.result? = some (.ok ()) ∧ (emitted events).map (·.offset) = [4, 9] ∧
      ∃ written, written.map (fun x => Chain.default.record x.2) = (emitted events).map .ok ∧
        ofPartition 0 written = sparse.demanded fromGap 0 := by
  have replayed : ((begin (ρ := LogReader) fromGap .default sparse ({} : Memory)).replay
      untilDelivered).any (fun (r, before) => r.isActive &&
        (replay { r with supervision.client := (r.supervision.client.push "t" 0 (bare 0 0)).bump }
          fromDelivered).any fun (s, after) =>
            s.result? = some (.ok ()) && (emitted (before ++ after)).map (·.offset) = [4, 9]) =
      true := by
    decide +kernel
  obtain ⟨⟨r, before⟩, first, rest⟩ := (Option.any_eq_true _ _).mp replayed
  obtain ⟨active, rest⟩ := Bool.and_eq_true_iff.mp rest
  obtain ⟨⟨s, after⟩, last, seen⟩ := (Option.any_eq_true _ _).mp rest
  simp only [Bool.and_eq_true, decide_eq_true_eq] at seen
  have own (actions : List (Action LogStore)) (all : ∀ a ∈ actions, a.isOwn = true)
      {r s : Run LogStore LogReader Memory} {events : List Event}
      (replayed : r.replay actions = some (s, events)) : Reaches Proceeds r actions events s :=
    (reaches_of_replay replayed all).mono fun step => ⟨step.1, .inl step.2⟩
  have run := ((own untilDelivered (by decide) first).trans (reaches_appending active)).trans
    (own fromDelivered (by decide) last)
  rw [List.append_nil] at run
  obtain ⟨bound, ends⟩ := exit_writes_snapshot sparse_unhindered
  obtain ⟨_, written, records_eq, complete⟩ := (ends _ _ _ run).2.2 _ seen.1
  exact ⟨s, before ++ after, run, seen.1, seen.2, written, records_eq, (complete 0).1⟩

end Run
end TopicReader
