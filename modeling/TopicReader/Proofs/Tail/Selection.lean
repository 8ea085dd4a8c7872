import TopicReader.Proofs.Snapshot.Underway
import TopicReader.Proofs.Tail.Latest

/-! What is read of a selection of logs to find their latest messages. Where no log has gaps and none
gets older from one message to the next, the last messages of each log are enough. -/
namespace TopicReader

namespace Log

/-- A log whose offsets have no gaps and whose messages never get older. All its offsets lie below
the greatest one. -/
structure Steady (log : Log) : Prop where
  offsets : ∀ (i : Nat) m, log.messages[i]? = some m → m.offset = log.oldest + i
  natural : 0 ≤ log.oldest
  empty : log.messages = [] → log.oldest = 0
  below : ∀ m ∈ log.messages, m.offset < greatestOffset
  aging : log.messages.Pairwise (·.time ≤ ·.time)

/-- The last messages of a log, up to a number. -/
def last (log : Log) (n : Nat) : List Message := log.messages.drop (log.messages.length - n)

namespace Steady

variable {log : Log} {n : Nat}

theorem regular (h : log.Steady) : log.Regular := by
  refine ⟨⟨List.pairwise_iff_getElem.mpr ?_, h.below⟩, ?_, h.empty⟩
  · intro i j hi hj before
    rw [h.offsets i _ (List.getElem?_eq_getElem hi), h.offsets j _ (List.getElem?_eq_getElem hj)]
    omega
  · intro m member
    obtain ⟨i, found⟩ := List.mem_iff_getElem?.mp member
    have place := h.offsets i m found
    have natural := h.natural
    omega

theorem newest_eq (h : log.Steady) : log.newest = log.oldest + log.messages.length := by
  by_cases none : log.messages = []
  · simp [newest, none]
  · have positive := List.length_pos_iff.mpr none
    have place := h.offsets (log.messages.length - 1) (log.messages.getLast none)
      (by rw [← List.getLast?_eq_getElem?, List.getLast?_eq_some_getLast none])
    rw [h.regular.newest_of_ne_nil none, place]
    omega

/-- The start of a tail is that of the last messages. -/
theorem tail_start (h : log.Steady) (p : Int) :
    (Bound.tail p log.oldest log.newest n).start =
      log.oldest + (log.messages.length - n : Nat) := by
  have natural := h.natural
  have newest := h.newest_eq
  have bounded : log.newest ≤ greatestOffset := by
    by_cases none : log.messages = []
    · have zero := h.empty none
      simp [newest, none, zero, greatestOffset]
    · rw [h.regular.newest_of_ne_nil none]
      exact h.below _ (List.getLast_mem none)
  simp only [Bound.tail, leastOffset, greatestOffset] at bounded ⊢
  omega

/-- From that start on a log holds its last messages. -/
theorem onward_tail (h : log.Steady) :
    log.onward (log.oldest + (log.messages.length - n : Nat)) = log.last n := by
  have before : (log.messages.take (log.messages.length - n)).filter
      (fun m => decide (log.oldest + (log.messages.length - n : Nat) ≤ m.offset)) = [] := by
    refine List.filter_eq_nil_iff.mpr ?_
    intro m member
    obtain ⟨i, bound, rfl⟩ := List.mem_take_iff_getElem.mp member
    have place := h.offsets i _ (List.getElem?_eq_getElem (by omega))
    simp only [decide_eq_true_eq]
    omega
  have after : (log.messages.drop (log.messages.length - n)).filter
      (fun m => decide (log.oldest + (log.messages.length - n : Nat) ≤ m.offset)) =
        log.messages.drop (log.messages.length - n) := by
    refine List.filter_eq_self.mpr ?_
    intro m member
    obtain ⟨i, found⟩ := List.mem_iff_getElem?.mp member
    rw [List.getElem?_drop] at found
    have place := h.offsets _ m found
    simp only [decide_eq_true_eq]
    omega
  have whole := List.filter_append
    (p := fun m => decide (log.oldest + (log.messages.length - n : Nat) ≤ m.offset))
    (log.messages.take (log.messages.length - n)) (log.messages.drop (log.messages.length - n))
  rwa [List.take_append_drop, before, after, List.nil_append] at whole

/-- A message before the last ones is no newer than any of them, and there are as many of them as
were asked for. -/
theorem outdone (h : log.Steady) {m : Message}
    (early : m ∈ log.messages.take (log.messages.length - n)) :
    n ≤ (log.last n).countP (m.time ≤ ·.time) := by
  have split := List.take_append_drop (log.messages.length - n) log.messages
  have aging := h.aging
  rw [← split] at aging
  have all : (log.last n).countP (m.time ≤ ·.time) = (log.last n).length := by
    refine List.countP_eq_length.mpr ?_
    intro x late
    simpa using (List.pairwise_append.mp aging).2.2 m early x late
  have some := List.length_pos_of_mem early
  rw [all, last, List.length_drop]
  rw [List.length_take] at some
  omega

end Steady
end Log

namespace LogStore

/-- All messages of the partitions that a request reads. -/
def selected (init : LogStore) (request : Request) : List Message :=
  (init.selection request).flatMap fun p => (init.logOf request.topic p).messages

/-- A request with an end that has the bounds of a tail: each start is given. -/
def tailed (init : LogStore) (request : Request) (n : Nat) : Request :=
  { request with
    tail := none
    exit := true
    starts := (init.ids request.topic).map fun p =>
      ⟨p, .exactly (Bound.tail p (init.logOf request.topic p).oldest
        (init.logOf request.topic p).newest n).start⟩ }

variable {init s : LogStore} {request : Request} {n : Nat} {p : Int}

theorem position?_tailed (known : (init.log? request.topic p).isSome = true) :
    (init.tailed request n).position? p = some (.exactly (Bound.tail p
      (init.logOf request.topic p).oldest (init.logOf request.topic p).newest n).start) := by
  have listed : p ∈ init.ids request.topic := mem_ids.mpr known
  unfold Request.position? tailed
  rw [← List.map_reverse, List.find?_map]
  have found : (init.ids request.topic).reverse.find? (fun q => decide (q = p)) = some p := by
    cases search : (init.ids request.topic).reverse.find? (fun q => decide (q = p)) with
    | none =>
      have missed := List.find?_eq_none.mp search p (List.mem_reverse.mpr listed)
      simp at missed
    | some q =>
      have same := List.find?_some search
      simp only [decide_eq_true_eq] at same
      rw [same]
  have same : ((fun x : Start => decide (x.partition = p)) ∘ fun q : Int => (⟨q, .exactly (Bound.tail q
      (init.logOf request.topic q).oldest (init.logOf request.topic q).newest n).start⟩ : Start)) =
        fun q => decide (q = p) := rfl
  rw [same, found]
  rfl

/-- The bound of a tail. -/
theorem boundOf_tailed (known : (init.log? request.topic p).isSome = true) :
    init.boundOf (init.tailed request n) p = Bound.tail p (init.logOf request.topic p).oldest
      (init.logOf request.topic p).newest n := by
  unfold boundOf Log.bound Log.start
  rw [position?_tailed known]
  rfl

/-- A bound in a tail comes from one question for both ends of the log. -/
theorem resolve_tail (valid : request.validate = .ok ()) (tail : request.tail = some n)
    (well : s.offsetFailures = []) (known : (s.log? request.topic p).isSome = true) :
    (request.resolve p : Query LogStore Bound).run s =
      (.ok (Bound.tail p (s.logOf request.topic p).oldest (s.logOf request.topic p).newest n),
        { s with fetches := s.fetches + 1 }) := by
  obtain ⟨log, found⟩ := Option.isSome_iff_exists.mp known
  unfold Request.resolve
  rw [valid, tail]
  simp only [logOf, found, Option.getD_some, Query.run_bind, watermarks_run well found]
  rfl

/-- Of each partition that is read the last messages are demanded. -/
theorem demanded_tailed (steady : (init.logOf request.topic p).Steady)
    (selected : init.Selects request p) :
    init.demanded (init.tailed request n) p = (init.logOf request.topic p).last n := by
  have start := congrArg Bound.start (boundOf_tailed (n := n) selected.1)
  rw [steady.tail_start] at start
  have demanded : init.demanded (init.tailed request n) p = (init.logOf request.topic p).onward
      (init.boundOf (init.tailed request n) p).start := if_pos selected.2
  rw [demanded, start, steady.onward_tail]

/-- What is demanded of a partition comes from one that is read. -/
theorem selects_of_demanded {m : Message} (member : m ∈ init.demanded request p) :
    init.Selects request p := by
  unfold demanded at member
  split at member
  · rename_i chosen
    refine ⟨?_, chosen⟩
    cases known : init.log? request.topic p with
    | none => simp [logOf, known, Log.onward] at member
    | some log => rfl
  · cases member

/-- The latest messages of some logs are the latest of the last messages of each. -/
theorem latest_selected (steady : ∀ p, (init.logOf request.topic p).Steady) {ms : List Message}
    (perm : ms.Perm ((init.selection request).flatMap fun p =>
      (init.logOf request.topic p).last n)) :
    TailWindow.latest n (ms.map (·.timestamp)) =
      TailWindow.latest n ((init.selected request).map (·.timestamp)) := by
  refine List.map_injective_iff.mpr Instant.rank_injective ?_
  rw [TailWindow.map_rank_latest, TailWindow.map_rank_latest, List.map_map, List.map_map]
  show greatest n (ms.map Message.time) = greatest n ((init.selected request).map Message.time)
  have whole : (init.selected request).Perm
      (((init.selection request).flatMap fun p => (init.logOf request.topic p).last n) ++
        (init.selection request).flatMap fun p => (init.logOf request.topic p).messages.take
          ((init.logOf request.topic p).messages.length - n)) := by
    refine .trans (.of_eq ?_) (List.perm_append_comm.trans (List.flatMap_append_perm _ _ _)).symm
    refine List.flatMap_congr ?_
    intro p _
    exact (List.take_append_drop _ _).symm
  rw [greatest_perm (perm.map _), greatest_perm (whole.map _), List.map_append, greatest_append]
  intro d outdone
  obtain ⟨m, listed, rfl⟩ := List.mem_map.mp outdone
  obtain ⟨p, member, early⟩ := List.mem_flatMap.mp listed
  have many := (steady p).outdone early
  have among : ((init.logOf request.topic p).last n).Sublist
      ((init.selection request).flatMap fun p => (init.logOf request.topic p).last n) :=
    List.sublist_flatten_of_mem (List.mem_map.mpr ⟨p, member, rfl⟩)
  rw [List.countP_map]
  exact many.trans among.countP_le

end LogStore

/-- Messages from some partitions, listed partition by partition. -/
theorem perm_ofPartition {xs : List (Int × Message)} {ps : List Int} (nodup : ps.Nodup)
    (sources : ∀ x ∈ xs, x.1 ∈ ps) :
    (xs.map (·.2)).Perm (ps.flatMap fun p => ofPartition p xs) := by
  induction ps generalizing xs with
  | nil =>
    rw [List.eq_nil_iff_forall_not_mem.mpr fun x member => List.not_mem_nil (sources x member)]
    exact .refl _
  | cons p rest ih =>
    obtain ⟨apart, nodup⟩ := List.nodup_cons.mp nodup
    have split := ((List.filter_append_perm (fun x : Int × Message => x.1 = p) xs).map (·.2)).symm
    rw [List.map_append] at split
    have others := @ih (xs.filter fun x => !decide (x.1 = p)) nodup ?_
    · have same : rest.flatMap (fun q => ofPartition q (xs.filter fun x => !decide (x.1 = p))) =
          rest.flatMap fun q => ofPartition q xs := by
        refine List.flatMap_congr ?_
        intro q member
        have other : q ≠ p := by
          rintro rfl
          exact apart member
        unfold ofPartition
        rw [List.filter_filter]
        congr 1
        refine List.filter_congr ?_
        intro x _
        by_cases here : x.1 = q <;> simp [here, other]
      rw [same] at others
      exact split.trans (others.append_left _)
    · intro x member
      obtain ⟨member, other⟩ := List.mem_filter.mp member
      exact (List.mem_cons.mp (sources x member)).resolve_left (by simpa using other)

end TopicReader
