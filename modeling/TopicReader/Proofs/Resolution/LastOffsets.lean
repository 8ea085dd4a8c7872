import TopicReader.Proofs.Resolution.Bounds
import TopicReader.Proofs.Resolution.Choice
import TopicReader.Proofs.Resolution.Rules

/-! The last offsets of a partition, up to a number. They are found in words of 64 bits although the
number may be larger than any offset, and there are none exactly where the partition is empty. -/
namespace TopicReader

/-- An offset as a word with a sign, if it fits. -/
def word? (n : Int) : Option Int := if leastOffset ≤ n ∧ n ≤ greatestOffset then some n else none

theorem word?_eq_some {n : Int} (least : leastOffset ≤ n) (greatest : n ≤ greatestOffset) :
    word? n = some n := if_pos ⟨least, greatest⟩

namespace Bound

variable {p oldest newest : Int} {count : Nat}

/-- The last `count` offsets as they are computed in words. The count is brought down to the greatest
word first; every other step has to fit, and no subtraction stops short. -/
def tailInWords? (p oldest newest : Int) (count : Nat) : Option Bound := do
  let wanted ← word? (min (count : Int) greatestOffset)
  let back ← word? (newest - wanted)
  let start ← word? (max oldest back)
  let last ← word? (newest - 1)
  return ⟨p, start, some last⟩

/-- No step leaves the words. -/
theorem tailInWords?_eq (natural : 0 ≤ oldest) (ordered : oldest ≤ newest)
    (fits : newest ≤ greatestOffset) :
    tailInWords? p oldest newest count = some (Bound.tail p oldest newest count) := by
  have wanted : word? (min (count : Int) greatestOffset) = some (min (count : Int) greatestOffset) := by
    apply word?_eq_some
    all_goals simp only [leastOffset, greatestOffset]; omega
  have back : word? (newest - min (count : Int) greatestOffset) =
      some (newest - min (count : Int) greatestOffset) := by
    apply word?_eq_some
    all_goals simp only [leastOffset, greatestOffset] at fits ⊢; omega
  have start : word? (max oldest (newest - min (count : Int) greatestOffset)) =
      some (max oldest (newest - min (count : Int) greatestOffset)) := by
    apply word?_eq_some
    all_goals simp only [leastOffset, greatestOffset] at fits ⊢; omega
  have last : word? (newest - 1) = some (newest - 1) := by
    apply word?_eq_some
    all_goals simp only [leastOffset, greatestOffset] at fits ⊢; omega
  have before : offsetBefore newest = newest - 1 :=
    offsetBefore_of_nonneg (Int.le_trans natural ordered)
  have whole : max leastOffset (newest - min (count : Int) greatestOffset) =
      newest - min (count : Int) greatestOffset := by
    simp only [leastOffset, greatestOffset]
    omega
  simp only [tailInWords?, Bound.tail, wanted, back, start, last, before, whole,
    Option.bind_eq_bind, Option.bind_some, Option.pure_def]

/-- A tail is as long as it was asked for, or as long as the partition. -/
theorem length_tail (natural : 0 ≤ oldest) (fits : newest ≤ greatestOffset) :
    (newest - 1) + 1 - (Bound.tail p oldest newest count).start =
      min (count : Int) (newest - oldest) := by
  rw [tail_eq p count (by simp only [leastOffset]; omega) (by omega)]
  simp only
  omega

/-- Some offset is left out only where there is none. -/
theorem tail_isEmpty_iff (some : 0 < count) (natural : 0 ≤ oldest) (ordered : oldest ≤ newest)
    (fits : newest ≤ greatestOffset) :
    (Bound.tail p oldest newest count).isEmpty = true ↔ oldest = newest := by
  rw [tail_eq p count (by simp only [leastOffset]; omega) (by omega)]
  have before := offsetBefore_of_nonneg (Int.le_trans natural ordered)
  simp only [isEmpty, before, Option.any_some, Bool.or_eq_true, decide_eq_true_eq]
  omega

end Bound

namespace Run

variable {σ ρ κ : Type} [Client σ ρ] [Sink κ] {request : Request} {r : Run σ ρ κ} {sink : κ}
  {targets : List Int} {actions : List (Action σ)} {events : List Event}
  {told : List (Int × Except RunError Bound)} {p : Int} {b : Bound}

omit [Client σ ρ] [Sink κ] in
/-- Where all bounds were found, a partition has been opened by the end if its bound is not empty. -/
theorem Learned.opened_of_answer (h : r.Learned sink targets actions events told)
    (distinct : targets.Nodup) (returned : r.result?.isSome)
    (well : ∀ q e, (q, .error e) ∉ told) (answer : (p, .ok b) ∈ told) :
    p ∈ (openings events).map (·.1) ↔ b.isEmpty = false := by
  have both := h
  cases h with
  | asking stage => simp [result?, stage] at returned
  | @failed found q e _ answers =>
    subst answers
    exact absurd (List.mem_append_right _ (List.mem_singleton.mpr rfl)) (well q e)
  | @working found _ answers asked =>
    subst answers
    have nodup : (found.map (·.partition)).Nodup := asked.nodup_iff.mpr distinct
    obtain ⟨inside, rfl⟩ := mem_of_answer answer
    obtain ⟨c, told, opened⟩ := both.opened_iff distinct returned well
      (asked.mem_iff.mp (List.mem_map.mpr ⟨b, inside, rfl⟩))
    obtain ⟨known, same⟩ := mem_of_answer told
    obtain rfl := List.inj_on_of_nodup_map nodup known inside same
    exact opened

omit [Sink κ] in
/-- The bound of a tail is made of watermarks that the client gave. -/
theorem marks_of_tail {count : Nat} {client client' : σ} (valid : request.validate = .ok ())
    (tail : request.tail = some count)
    (found : (request.resolve p : Query σ Bound).run client = (.ok b, client')) :
    ∃ oldest newest, (Client.watermarks request.topic p : Query σ (Int × Int)).run client =
      (.ok (oldest, newest), client') ∧ b = Bound.tail p oldest newest count := by
  rw [Request.resolve_tailed valid tail, map_eq_pure_bind] at found
  obtain ⟨⟨oldest, newest⟩, after, marks, made⟩ := Query.ok_of_bind found
  cases made
  exact ⟨oldest, newest, marks, rfl⟩

/-- The bound of a tail covers exactly the last offsets of its partition, as many as were asked for or
as many as there are, and no step of its computation leaves the words. -/
theorem tail_covers_last (request : Request) (count : Nat) (p : Int)
    (valid : request.validate = .ok ()) (tail : request.tail = some count) :
    (∀ (client client' : σ) (oldest newest : Int),
      (Client.watermarks request.topic p : Query σ (Int × Int)).run client =
        (.ok (oldest, newest), client') →
      0 ≤ oldest → oldest ≤ newest → newest ≤ greatestOffset →
      ∃ b, (request.resolve p : Query σ Bound).run client = (.ok b, client') ∧
        Bound.tailInWords? p oldest newest count = some b ∧ oldest ≤ b.start ∧
        b.last = some (newest - 1) ∧
        (newest - 1) + 1 - b.start = min (count : Int) (newest - oldest) ∧
        (b.isEmpty = true ↔ oldest = newest)) ∧
    ∀ (chain : Chain) (client : σ) (sink : κ) (actions : List (Action σ)) (events : List Event)
      (r : Run σ ρ κ), Reaches Moves (begin request chain client sink) actions events r →
      ∀ b, (p, .ok b) ∈ (begin request chain client sink : Run σ ρ κ).resolutions actions →
        (∃ asked after oldest newest,
          (Client.watermarks request.topic p : Query σ (Int × Int)).run asked =
            (.ok (oldest, newest), after) ∧ b = Bound.tail p oldest newest count) ∧
        (b.isEmpty = true → p ∉ (openings events).map (·.1) ∧
          ofPartition p (received events) = [] ∧ ofPartition p (forwarded events) = []) ∧
        (r.result?.isSome → (∀ q e, (q, .error e) ∉
            (begin request chain client sink : Run σ ρ κ).resolutions actions) →
          (p ∈ (openings events).map (·.1) ↔ b.isEmpty = false)) := by
  have some : 0 < count := by
    rcases Nat.eq_zero_or_pos count with rfl | positive
    · exact absurd tail (Request.validate_eq_ok_iff.mp valid).2.1
    · exact positive
  constructor
  · intro client client' oldest newest marks natural ordered fits
    have before := offsetBefore_of_nonneg (Int.le_trans natural ordered)
    refine ⟨Bound.tail p oldest newest count, ?_, Bound.tailInWords?_eq natural ordered fits, ?_,
      congrArg Option.some before, Bound.length_tail natural fits,
      Bound.tail_isEmpty_iff some natural ordered fits⟩
    · rw [Request.resolve_tailed valid tail, map_eq_pure_bind, Query.run_bind, marks]
      rfl
    · exact Int.le_max_left _ _
  · intro chain client sink actions events r run b answer
    obtain ⟨asked, found⟩ := mem_resolutions answer
    rw [begin_request] at found
    obtain ⟨oldest, newest, marks, made⟩ := marks_of_tail (p := p) valid tail (Prod.ext found rfl)
    refine ⟨⟨asked, _, oldest, newest, marks, made⟩, ?_⟩
    rcases learned_cases run with ⟨_, _, rfl, rfl, _⟩ | ⟨targets, _, distinct, _, learned⟩
    · cases answer
    · constructor
      · intro empty
        exact learned.silent distinct (accounts_of_reaches run).ledger answer empty
      · intro returned well
        exact learned.opened_of_answer distinct returned well answer

/-- The largest tail that can be asked for. -/
def boundless : Request := { topic := "t", tail := some 18446744073709551615 }

/-- A partition of which nothing was ever lost, up to the greatest offset, and an empty one. -/
def fullAndEmpty : Script :=
  { parts := [{ id := 0, oldest := some 0, newest := some greatestOffset },
      { id := 1, oldest := some 7, newest := some 7 }] }

/-- All offsets are covered, and only the partition that has some is opened. -/
theorem boundless_covers_all :
    (∃ b client', (boundless.resolve 0 : Query Script Bound).run fullAndEmpty = (.ok b, client') ∧
      b.last = some (greatestOffset - 1) ∧ (greatestOffset - 1) + 1 - b.start = greatestOffset) ∧
    ∃ (r : Run Script (List Script.Step) Memory) (events : List Event),
      Reaches Moves (begin boundless .default fullAndEmpty {})
        [.resolve 0, .resolve 0, .supervise (.openReader 0)] events r ∧
      openings events = [(0, 0)] ∧ 1 ∉ (openings events).map (·.1) := by
  constructor
  · obtain ⟨covers, _⟩ := tail_covers_last (κ := Memory) (σ := Script) boundless
      18446744073709551615 0 rfl rfl
    obtain ⟨b, found, _, _, last, length, _⟩ :=
      covers fullAndEmpty _ 0 greatestOffset rfl (by decide) (by decide) (by decide)
    exact ⟨b, _, found, last, length.trans (by decide)⟩
  · have replayed : ((begin (ρ := List Script.Step) boundless .default fullAndEmpty
        ({} : Memory)).replay [.resolve 0, .resolve 0, .supervise (.openReader 0)]).any
          (fun (_, events) => openings events = [(0, 0)]) = true := by
      cbv
    obtain ⟨r, events, run, seen⟩ := exists_of_replay replayed
    have told : (1, .ok ⟨1, 7, some 6⟩) ∈ (begin boundless .default fullAndEmpty
        ({} : Memory)).resolutions [.resolve 0, .resolve 0, .supervise (.openReader 0)] := by
      have answers : (begin boundless .default fullAndEmpty ({} : Memory)).resolutions
          [.resolve 0, .resolve 0, .supervise (.openReader 0)] =
            [(0, .ok ⟨0, 0, some (greatestOffset - 1)⟩), (1, .ok ⟨1, 7, some 6⟩)] := by
        cbv
      rw [answers]
      exact List.mem_cons_of_mem _ List.mem_cons_self
    obtain ⟨_, runs⟩ := tail_covers_last (κ := Memory) (σ := Script) boundless
      18446744073709551615 1 rfl rfl
    obtain ⟨_, empty, _⟩ := runs _ _ _ _ _ _ run _ told
    exact ⟨r, events, run, of_decide_eq_true seen, (empty (by decide)).1⟩

end Run
end TopicReader
