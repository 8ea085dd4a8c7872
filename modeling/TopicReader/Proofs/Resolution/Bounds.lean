import TopicReader.Client.Script
import TopicReader.Proofs.Resolution.Answers

/-! How a bound lies between the watermarks of its partition. A bound with an end ends before the
newest watermark, and it starts past that one only where a number past it was asked for. Where it
starts past its end the partition is never opened. -/
namespace TopicReader

namespace Request

variable {σ ρ : Type} [Client σ ρ] {r : Request} {p oldest newest : Int} {client client' : σ}

/-- With both watermarks known the start is found without another question. -/
theorem findStart_known (r : Request) (p oldest newest : Int) (client : σ) :
    ∃ start, (r.findStart p (some (oldest, newest)) : Query σ Int).run client = (.ok start, client) ∧
      (start = oldest ∨ start = newest ∨ r.position? p = some (.exactly start)) := by
  unfold findStart
  cases r.position? p with
  | none =>
    cases r.fromBeginning with
    | true => exact ⟨oldest, rfl, .inl rfl⟩
    | false => exact ⟨newest, rfl, .inr (.inl rfl)⟩
  | some position =>
    cases position with
    | exactly n => exact ⟨n, rfl, .inr (.inr rfl)⟩
    | oldest => exact ⟨oldest, rfl, .inl rfl⟩
    | newest => exact ⟨newest, rfl, .inr (.inl rfl)⟩

/-- A bound with an end comes from one question for both watermarks. -/
theorem resolve_bounded (valid : r.validate = .ok ()) (bounded : r.isBounded = true)
    (marks : (Client.watermarks r.topic p : Query σ (Int × Int)).run client =
      (.ok (oldest, newest), client')) :
    ∃ start, (r.resolve p : Query σ Bound).run client =
        (.ok ⟨p, start, some (offsetBefore newest)⟩, client') ∧
      (0 ≤ oldest → oldest ≤ newest → newest < start →
        r.tail = none ∧ r.position? p = some (.exactly start)) := by
  unfold resolve
  cases tail : r.tail with
  | some count =>
    refine ⟨max oldest (max leastOffset (newest - min (count : Int) greatestOffset)), ?_, ?_⟩
    · simp only [valid, Query.run_bind, marks]
      rfl
    · intro natural ordered past
      simp only [leastOffset, greatestOffset] at past
      omega
  | none =>
    have exit : r.exit = true := by simpa [isBounded, tail] using bounded
    obtain ⟨start, found, cause⟩ := findStart_known r p oldest newest client'
    refine ⟨start, ?_, ?_⟩
    · simp only [valid, exit, Query.run_bind, marks, found, if_true]
      rfl
    · intro natural ordered past
      refine ⟨rfl, ?_⟩
      rcases cause with old | new | asked
      · omega
      · omega
      · exact asked

/-- Where the watermarks cannot be had, no bound with an end is found. -/
theorem marks_of_finite {b : Bound} {last : Int}
    (found : (r.resolve p : Query σ Bound).run client = (.ok b, client'))
    (finite : b.last = some last) :
    r.validate = .ok () ∧ r.isBounded = true ∧ ∃ oldest newest,
      (Client.watermarks r.topic p : Query σ (Int × Int)).run client = (.ok (oldest, newest), client') ∧
        last = offsetBefore newest := by
  unfold resolve at found
  cases valid : r.validate with
  | error e =>
    rw [valid] at found
    cases found
  | ok _ =>
    rw [valid] at found
    simp only at found
    cases tail : r.tail with
    | some count =>
      rw [tail] at found
      obtain ⟨⟨oldest, newest⟩, after, marks, found⟩ := Query.ok_of_bind found
      cases found
      cases finite
      exact ⟨rfl, by simp [isBounded, tail], oldest, newest, marks, rfl⟩
    | none =>
      rw [tail] at found
      simp only at found
      split at found
      · rename_i exit
        obtain ⟨⟨oldest, newest⟩, after, marks, found⟩ := Query.ok_of_bind found
        obtain ⟨start, known, _⟩ := findStart_known r p oldest newest after
        rw [Query.run_bind, known] at found
        cases found
        cases finite
        exact ⟨rfl, by simp [isBounded, exit], oldest, newest, marks, rfl⟩
      · obtain ⟨start, after, _, found⟩ := Query.ok_of_bind found
        cases found
        cases finite

end Request

namespace Run

variable {σ ρ κ : Type} [Client σ ρ] [Sink κ] {request : Request} {chain : Chain} {client : σ}
  {sink : κ} {actions : List (Action σ)} {events : List Event} {r : Run σ ρ κ}
  {targets : List Int} {told : List (Int × Except RunError Bound)} {p : Int} {b : Bound}

/-- Every record was made from a message that entered the funnel. -/
theorem forwarded_of_emitted (run : Reaches Moves (begin request chain client sink) actions events r)
    {record : Record} (written : record ∈ emitted events) :
    ∃ x ∈ forwarded events, chain.record x.2 = .ok record := by
  cases tail : request.tail with
  | none =>
    obtain ⟨dealt, front, records_eq, _⟩ :=
      written_so_far (flows_of_reaches tail run) (accounts_of_reaches run)
    rw [records_eq] at written
    obtain ⟨x, member, decoded⟩ := List.mem_filterMap.mp written
    exact ⟨x, front.subset member, Chain.ok_of_record? decoded⟩
  | some n =>
    have kept {messages : List Message}
        (inside : ∀ m ∈ messages, m ∈ TailWindow.newest n (entered events))
        (made : record ∈ messages.filterMap chain.record?) :
        ∃ x ∈ forwarded events, chain.record x.2 = .ok record := by
      obtain ⟨m, member, decoded⟩ := List.mem_filterMap.mp made
      obtain ⟨x, sent, rfl⟩ := List.mem_map.mp (TailWindow.mem_of_mem_newest (inside m member))
      exact ⟨x, sent, Chain.ok_of_record? decoded⟩
    have output := (tailing_of_reaches tail run).output
    generalize emitted events = records at written output
    cases output with
    | collecting => cases written
    | emptying phase closed newest decoded =>
      exact kept (fun m member => newest ▸ List.mem_append_left _ member) (decoded ▸ written)
    | ended phase closed decoded => exact kept (fun m member => member) (decoded ▸ written)
    | broken phase closed newest decoded =>
      exact kept (fun m member => newest ▸ List.mem_append_left _ member) (decoded ▸ written)

omit [Client σ ρ] [Sink κ] in
theorem mem_of_answer {found : List Bound} (member : (p, .ok b) ∈ found.map Bound.answer) :
    b ∈ found ∧ b.partition = p := by
  obtain ⟨c, inside, same⟩ := List.mem_map.mp member
  simp only [Bound.answer, Prod.mk.injEq, Except.ok.injEq] at same
  exact ⟨same.2 ▸ inside, same.2 ▸ same.1⟩

omit [Client σ ρ] [Sink κ] in
/-- A partition with nothing to read is not opened and does nothing. -/
theorem Learned.silent (h : r.Learned sink targets actions events told) (distinct : targets.Nodup)
    (ledger : r.supervision.Ledger events) (answer : (p, .ok b) ∈ told) (empty : b.isEmpty = true) :
    p ∉ (openings events).map (·.1) ∧ ofPartition p (received events) = [] ∧
      ofPartition p (forwarded events) = [] := by
  have idle (traceless : r.Traceless sink actions events) :
      p ∉ (openings events).map (·.1) ∧ ofPartition p (received events) = [] ∧
        ofPartition p (forwarded events) = [] := by
    have undelivered : received events = [] := traceless.none_seen rfl
    have unsent : forwarded events = [] := traceless.none_seen rfl
    simp [traceless.unopened, undelivered, unsent]
  cases h with
  | asking _ _ _ traceless => exact idle traceless
  | failed _ _ traceless => exact idle traceless
  | @working found begun answers asked opened within finished =>
    subst answers
    obtain ⟨inside, rfl⟩ := mem_of_answer answer
    have nodup : (found.map (·.partition)).Nodup := asked.nodup_iff.mpr distinct
    have only {c : Bound} (member : c ∈ found) (some : c.isEmpty = false) :
        c.partition ≠ b.partition := by
      intro same
      obtain rfl := List.inj_on_of_nodup_map nodup member inside same
      rw [empty] at some
      cases some
    constructor
    · intro member
      obtain ⟨place, asked_for, same⟩ := List.mem_map.mp member
      obtain ⟨c, ready, rfl⟩ := List.mem_map.mp (opened.subset (List.mem_append_left _ asked_for))
      obtain ⟨known, some⟩ := List.mem_filter.mp ready
      exact only known (by simpa using some) same
    · refine (ledger.silent b.partition ?_).symm
      intro member
      obtain ⟨w, works, same⟩ := List.mem_map.mp member
      obtain ⟨known, some⟩ :=
        within w.bound (List.mem_append_right _ (List.mem_map.mpr ⟨w, works, rfl⟩))
      exact only known some same

/-- A bound with an end lies between the watermarks of its partition, unless a number past the newest
one was asked for. A partition whose bound starts past its end is never opened, and no record comes
from it. -/
theorem bounds_in_order (request : Request) (p : Int) :
    (∀ (client client' : σ) (oldest newest : Int), request.validate = .ok () →
      request.isBounded = true →
      (Client.watermarks request.topic p : Query σ (Int × Int)).run client =
        (.ok (oldest, newest), client') →
      0 ≤ oldest → oldest ≤ newest →
      ∃ b, (request.resolve p : Query σ Bound).run client = (.ok b, client') ∧ b.partition = p ∧
        b.last = some (newest - 1) ∧ (b.start ≤ (newest - 1) + 1 ∨
          request.tail = none ∧ request.position? p = some (.exactly b.start) ∧ newest < b.start)) ∧
    (∀ (client client' : σ) (b : Bound) (last : Int),
      (request.resolve p : Query σ Bound).run client = (.ok b, client') → b.last = some last →
      request.validate = .ok () ∧ request.isBounded = true ∧ ∃ oldest newest,
        (Client.watermarks request.topic p : Query σ (Int × Int)).run client =
          (.ok (oldest, newest), client') ∧ last = offsetBefore newest ∧
          (leastOffset < newest → last = newest - 1)) ∧
    ∀ (chain : Chain) (client : σ) (sink : κ) (actions : List (Action σ)) (events : List Event)
      (r : Run σ ρ κ), Reaches Moves (begin request chain client sink) actions events r →
      ∀ b, (p, .ok b) ∈ (begin request chain client sink : Run σ ρ κ).resolutions actions →
        (∃ client client', (request.resolve p : Query σ Bound).run client = (.ok b, client')) ∧
        ∀ last, b.last = some last → last < b.start →
          p ∉ (openings events).map (·.1) ∧ ofPartition p (received events) = [] ∧
            ofPartition p (forwarded events) = [] ∧
            (∀ record ∈ emitted events, ∃ x ∈ forwarded events, x.1 ≠ p ∧
              chain.record x.2 = .ok record) ∧
            ((∀ x ∈ received events, x.2.partition = x.1) →
              ∀ record ∈ emitted events, record.partition ≠ p) := by
  refine ⟨?_, ?_, ?_⟩
  · intro client client' oldest newest valid bounded marks natural ordered
    obtain ⟨start, found, past⟩ := Request.resolve_bounded valid bounded marks
    have last := offsetBefore_of_nonneg (Int.le_trans natural ordered)
    refine ⟨_, found, rfl, congrArg some last, ?_⟩
    by_cases before : newest < start
    · obtain ⟨direct, asked⟩ := past natural ordered before
      exact .inr ⟨direct, asked, before⟩
    · exact .inl (by simp only; omega)
  · intro client client' b last found finite
    obtain ⟨valid, bounded, oldest, newest, marks, rfl⟩ := Request.marks_of_finite found finite
    exact ⟨valid, bounded, oldest, newest, marks, rfl, offsetBefore_of_lt⟩
  · intro chain client sink actions events r run b answer
    obtain ⟨asked, found⟩ := mem_resolutions answer
    rw [begin_request] at found
    refine ⟨⟨asked, _, Prod.ext found rfl⟩, ?_⟩
    intro last finite past
    have empty : b.isEmpty = true := by
      simp only [Bound.isEmpty, finite, Option.any_some, Bool.or_eq_true, decide_eq_true_eq]
      exact .inr past
    have accounts := accounts_of_reaches run
    have silent : p ∉ (openings events).map (·.1) ∧ ofPartition p (received events) = [] ∧
        ofPartition p (forwarded events) = [] := by
      rcases learned_cases run with ⟨_, _, rfl, rfl, _⟩ | ⟨targets, _, distinct, _, learned⟩
      · cases answer
      · exact learned.silent distinct accounts.ledger answer empty
    obtain ⟨unopened, undelivered, unsent⟩ := silent
    have origin {x : Int × Message} (sent : x ∈ forwarded events) : x.1 ≠ p := by
      rintro rfl
      have member : x.2 ∈ ofPartition x.1 (forwarded events) := mem_ofPartition.mpr sent
      rw [unsent] at member
      cases member
    refine ⟨unopened, undelivered, unsent, ?_, ?_⟩
    · intro record written
      obtain ⟨x, sent, decoded⟩ := forwarded_of_emitted run written
      exact ⟨x, sent, origin sent, decoded⟩
    · intro own record written
      obtain ⟨x, sent, decoded⟩ := forwarded_of_emitted run written
      have delivered : x.2 ∈ ofPartition x.1 (received events) :=
        (accounts.ledger.forwarded_front x.1).subset (mem_ofPartition.mpr sent)
      rw [Chain.record_partition decoded, own x (mem_ofPartition.mp delivered)]
      exact origin sent

/-- Two partitions, of which the first is to be read from an offset past its newest one. -/
def beyond : Request :=
  { topic := "t", fromBeginning := true, exit := true, starts := [⟨0, .exactly 50⟩] }

/-- The first partition holds ten messages, and the second one holds one. -/
def tenAndOne : Script :=
  { parts := [{ id := 0, oldest := some 0, newest := some 10 },
      { id := 1, oldest := some 0, newest := some 1,
        steps := [.deliver (.message ⟨1, 0, none, some [97], none, []⟩)] }] }

/-- The number that was asked for is taken as it is, and not brought down to the end. -/
theorem start_past_end : ∃ (client client' : Script) (b : Bound) (last : Int),
    beyond.validate = .ok () ∧
    (Client.watermarks beyond.topic 0 : Query Script (Int × Int)).run client =
      (.ok (0, 10), client') ∧
    (beyond.resolve 0 : Query Script Bound).run client = (.ok b, client') ∧ b.last = some last ∧
      ¬ b.start ≤ last + 1 :=
  ⟨tenAndOne, _, ⟨0, 50, some 9⟩, 9, rfl, rfl, rfl, rfl, by decide⟩

/-- Both bounds are found, and only the second partition is opened and read. -/
def beyondSteps : List (Action Script) :=
  [.resolve 0, .resolve 0, .supervise (.openReader 0), .supervise .start, .supervise .start,
    .supervise (.work 0), .supervise (.work 0), .drain, .drain, .drain, .settle, .settle]

theorem beyond_in_order :
    (∃ b client', (beyond.resolve 1 : Query Script Bound).run tenAndOne = (.ok b, client') ∧
      b.last = some 0 ∧ b.start ≤ 0 + 1) ∧
    ∃ (r : Run Script (List Script.Step) Memory) (events : List Event),
      Reaches Moves (begin beyond .default tenAndOne {}) beyondSteps events r ∧
      r.result? = some (.ok ()) ∧ openings events = [(1, 0)] ∧
      (emitted events).map (·.partition) = [1] ∧
      (0, .ok ⟨0, 50, some 9⟩) ∈
        (begin beyond .default tenAndOne ({} : Memory)).resolutions beyondSteps ∧
      ofPartition 0 (received events) = [] ∧
      ∀ record ∈ emitted events, ∃ x ∈ forwarded events, x.1 ≠ 0 ∧
        Chain.default.record x.2 = .ok record := by
  constructor
  · obtain ⟨within, _, _⟩ := bounds_in_order (κ := Memory) (σ := Script) beyond 1
    obtain ⟨b, found, _, last, start⟩ := within tenAndOne _ 0 1 rfl rfl rfl (by decide) (by decide)
    refine ⟨b, _, found, last, ?_⟩
    rcases start with early | ⟨_, asked, _⟩
    · exact early
    · cases asked
  · have replayed : ((begin (ρ := List Script.Step) beyond .default tenAndOne
        ({} : Memory)).replay beyondSteps).any (fun (r, events) =>
          r.result? = some (.ok ()) && openings events = [(1, 0)] &&
            (emitted events).map (·.partition) = [1]) = true := by
      cbv
    obtain ⟨r, events, run, seen⟩ := exists_of_replay replayed
    simp only [Bool.and_eq_true, decide_eq_true_eq] at seen
    obtain ⟨⟨well, opened⟩, written⟩ := seen
    have told : (0, .ok ⟨0, 50, some 9⟩) ∈
        (begin beyond .default tenAndOne ({} : Memory)).resolutions beyondSteps := by
      have answers : (begin beyond .default tenAndOne ({} : Memory)).resolutions beyondSteps =
          [(0, .ok ⟨0, 50, some 9⟩), (1, .ok ⟨1, 0, some 0⟩)] := by cbv
      rw [answers]
      exact List.mem_cons_self
    obtain ⟨_, _, empty⟩ := bounds_in_order (κ := Memory) (σ := Script) beyond 0
    obtain ⟨_, silent⟩ := empty _ _ _ _ _ _ run _ told
    obtain ⟨_, undelivered, _, others, _⟩ := silent 9 rfl (by decide)
    exact ⟨r, events, run, well, opened, written, told, undelivered, others⟩

end Run
end TopicReader
