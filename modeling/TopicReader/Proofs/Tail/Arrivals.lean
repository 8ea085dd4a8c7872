import Mathlib.Data.List.Rotate
import TopicReader.Proofs.Phases.Shutdown
import TopicReader.Proofs.Tail.Latest

/-! Orders of arrival. Which messages a window keeps, and how it puts them in order, depends on when
they came only where their timestamps do not tell them apart. So two runs that forward the same
messages write the same records, however their workers take turns. -/
namespace TopicReader

namespace Sink

variable {κ : Type} [Sink κ]

/-- The records that a sink takes when it is given some, one after the other, until it refuses one. -/
def accepted (sink : κ) : List Record → List Record
  | [] => []
  | r :: rest =>
    match (Sink.emit r).run sink with
    | (.ok (), next) => r :: accepted next rest
    | (.error _, _) => []

/-- What a sink has taken makes no difference but to the sink. -/
theorem accepted_append {sink next : κ} {records : List Record}
    (took : after? sink records = some next) (more : List Record) :
    accepted sink (records ++ more) = records ++ accepted next more := by
  induction records generalizing sink with
  | nil =>
    cases took
    rfl
  | cons r rest ih =>
    unfold after? at took
    split at took
    · rename_i after answer
      rw [List.cons_append, accepted, answer]
      exact congrArg (r :: ·) (ih took)
    · cases took

theorem accepted_eq_self {sink next : κ} {records : List Record}
    (took : after? sink records = some next) : accepted sink records = records := by
  have whole := accepted_append took []
  rwa [List.append_nil, accepted, List.append_nil] at whole

end Sink

namespace TailWindow

variable {n : Nat} {ms ms' : List Message}

theorem latest_perm {times times' : List (Option Instant)} (perm : times.Perm times') :
    latest n times = latest n times' := by
  refine List.map_injective_iff.mpr Instant.rank_injective ?_
  rw [map_rank_latest, map_rank_latest]
  exact greatest_perm (perm.map _)

/-- The same messages have the same latest timestamps, in whatever order they came. -/
theorem map_timestamp_newest_perm (perm : ms.Perm ms') :
    (newest n ms).map (·.timestamp) = (newest n ms').map (·.timestamp) := by
  rw [map_timestamp_newest, map_timestamp_newest]
  exact latest_perm (perm.map _)

/-- Messages that are told apart by their timestamps are known by them. -/
theorem newest_perm (perm : ms.Perm ms') (distinct : (ms.map (·.timestamp)).Nodup) :
    newest n ms = newest n ms' := by
  have same : List.Forall₂ (fun m m' : Message => m.timestamp = m'.timestamp)
      (newest n ms) (newest n ms') := by
    have times := map_timestamp_newest_perm (n := n) perm
    rw [← List.forall₂_eq_eq_eq, List.forall₂_map_left_iff, List.forall₂_map_right_iff] at times
    exact times
  have known (m : Message) (kept : m ∈ newest n ms) : m ∈ ms := mem_of_mem_newest kept
  have known' (m : Message) (kept : m ∈ newest n ms') : m ∈ ms :=
    perm.mem_iff.mpr (mem_of_mem_newest kept)
  generalize newest n ms = kept at same known
  generalize newest n ms' = kept' at same known'
  induction same with
  | nil => rfl
  | cons head tail ih =>
    have first := List.inj_on_of_nodup_map distinct (known _ List.mem_cons_self)
      (known' _ List.mem_cons_self) head
    have rest := ih (fun m member => known m (.tail _ member)) fun m member =>
      known' m (.tail _ member)
    rw [first, rest]

end TailWindow

namespace Drain

variable {κ : Type} [Sink κ] {n : Nat} {chain : Chain} {sink : κ} {d : Drain κ} {c : Coordination}
  {f : Funnel} {entered : List Message} {written : List Record}

/-- Output that has ended has written what its sink would take of the newest messages. -/
theorem Standing.written_of_finished (h : Standing n chain sink d c f entered written)
    {result : Except RunError Nat} (ended : d.phase = .finished result) :
    written = Sink.accepted sink ((TailWindow.newest n entered).filterMap chain.record?) := by
  cases h with
  | collecting phase => simp [phase] at ended
  | emptying phase => simp [phase] at ended
  | ended phase closed decoded count took => rw [← decoded, Sink.accepted_eq_self took]
  | @broken done m rest written r e before phase closed newest decoded took next refused =>
    have nothing : Sink.accepted before (r :: rest.filterMap chain.record?) = [] := by
      rw [Sink.accepted, refused]
    rw [newest, List.filterMap_append, ← decoded,
      List.filterMap_cons_some (Chain.record?_of_ok next), Sink.accepted_append took, nothing,
      List.append_nil]

end Drain

namespace Run

variable {σ ρ κ : Type} [Client σ ρ] [Sink κ] {request : Request} {chain : Chain} {client : σ}
  {sink : κ} {actions : List (Action σ)} {events : List Event} {r : Run σ ρ κ} {n : Nat}

/-- What a run that shows the last messages has written when it returns: what the sink would take of
the newest of all messages that its workers forwarded. -/
theorem emitted_of_returned (tail : request.tail = some n)
    (run : Reaches Moves (begin request chain client sink) actions events r)
    (returned : r.result?.isSome = true) :
    emitted events =
      Sink.accepted sink ((TailWindow.newest n (entered events)).filterMap chain.record?) := by
  rcases output_of_returned tail run returned with ⟨none_entered, none_written⟩ | ⟨drained, finished⟩
  · rw [none_entered, none_written, TailWindow.newest_nil]
    rfl
  · exact (tailing_of_reaches tail run).output.written_of_finished finished

/-- A run that shows the last `n` messages has returned: the messages that its workers forwarded, in
their order, and the records that it wrote. -/
inductive Returned (n : Nat) (chain : Chain) (sink : κ) : List Message → List Record → Prop where
  | intro {σ ρ : Type} [Client σ ρ] {request : Request} {client : σ} {actions : List (Action σ)}
      {events : List Event} {r : Run σ ρ κ} (tail : request.tail = some n)
      (run : Reaches Moves (begin request chain client sink) actions events r)
      (returned : r.result?.isSome = true) : Returned n chain sink (entered events) (emitted events)

theorem Returned.written {ms : List Message} {records : List Record}
    (h : Returned n chain sink ms records) :
    records = Sink.accepted sink ((TailWindow.newest n ms).filterMap chain.record?) := by
  obtain ⟨tail, run, returned⟩ := h
  exact emitted_of_returned tail run returned

/-- The timestamps that a window gives out do not depend on the order of arrival, nor do the messages
if their timestamps differ. The same holds of what runs for the last messages write. -/
theorem tail_ignores_arrival {ms ms' : List Message} (perm : ms.Perm ms') :
    (TailWindow.ofMessages n ms).ascending.map (·.timestamp) =
      (TailWindow.ofMessages n ms').ascending.map (·.timestamp) ∧
    ((ms.map (·.timestamp)).Nodup →
      (TailWindow.ofMessages n ms).ascending = (TailWindow.ofMessages n ms').ascending ∧
      ∀ {chain : Chain} {sink : κ} {records records' : List Record},
        Returned n chain sink ms records → Returned n chain sink ms' records' →
          records = records') := by
  rw [TailWindow.ascending_ofMessages, TailWindow.ascending_ofMessages]
  refine ⟨TailWindow.map_timestamp_newest_perm perm, ?_⟩
  intro distinct
  have kept := TailWindow.newest_perm (n := n) perm distinct
  refine ⟨kept, ?_⟩
  intro chain sink records records' first second
  rw [first.written, second.written, kept]

/-- The last two messages of the two partitions are read, and each time it is its turn a worker
forwards a message, which the output takes. -/
def turnsOf (order : List Nat) : List (Action Script) :=
  [.resolve 0, .resolve 0, .supervise (.openReader 0), .supervise (.openReader 0),
    .supervise .start, .supervise .start, .supervise .start] ++
  order.flatMap (fun i => [.supervise (.work i), .supervise (.work i), .drain]) ++
  [.drain, .drain, .drain, .drain, .settle, .settle]

theorem exists_returned (order : List Nat) {ms : List Message}
    (replayed : ((begin lastTwo .default mixed ({} : Memory)).replay (turnsOf order)).any
      (fun (s, events) => s.result?.isSome && entered events = ms) = true) :
    ∃ records, Returned 2 .default ({} : Memory) ms records := by
  obtain ⟨s, events, run, seen⟩ := exists_of_replay replayed
  simp only [Bool.and_eq_true, decide_eq_true_eq] at seen
  obtain ⟨returned, rfl⟩ := seen
  exact ⟨_, .intro rfl run returned⟩

/-- The messages of the first partition, and the one of the second that has no timestamp. -/
def arrivals : List Message := [
  { partition := 0, offset := 0, timestamp := some ⟨2, 0⟩ },
  { partition := 0, offset := 1, value := some [0x21], timestamp := some ⟨1, 0⟩ },
  { partition := 1, offset := 0 }]

/-- Whether the second partition comes last or first, the same records are written. -/
theorem arrivals_either_way :
    ∃ records : List Record, Returned 2 .default ({} : Memory) arrivals records ∧
      Returned 2 .default ({} : Memory) (arrivals.rotate 2) records ∧
      records.map (fun r => (r.partition, r.offset)) = [(0, 1), (0, 0)] := by
  have last : ∃ records, Returned 2 .default ({} : Memory) arrivals records :=
    exists_returned [0, 0, 1] (by cbv)
  have first : ∃ records, Returned 2 .default ({} : Memory) (arrivals.rotate 2) records :=
    exists_returned [1, 0, 0] (by cbv)
  obtain ⟨records, last⟩ := last
  obtain ⟨records', first⟩ := first
  have perm : arrivals.Perm (arrivals.rotate 2) := (List.rotate_perm _ _).symm
  have same := ((tail_ignores_arrival (n := 2) perm).2 (by decide)).2 last first
  refine ⟨records, last, same ▸ first, ?_⟩
  rw [last.written]
  cbv

end Run
end TopicReader
