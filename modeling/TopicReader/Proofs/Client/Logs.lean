import TopicReader.Client.LogStore
import TopicReader.Partition.Resolve

/-! Logs whose offsets ascend. A reader that walks such a log takes its messages one by one, in
order, and messages that are appended later come after all that it has yet to take. -/
namespace TopicReader

namespace Log

/-- Each message has a greater offset than the one before it, and none has the greatest one, which
leaves no offset for the next message. -/
structure Ascending (log : Log) : Prop where
  ascending : log.messages.Pairwise (·.offset < ·.offset)
  below : ∀ m ∈ log.messages, m.offset < greatestOffset

/-- A log as messages and appends make it: ascending offsets, none of them negative, and an empty
log begins at 0. -/
structure Regular (log : Log) : Prop extends Ascending log where
  natural : ∀ m ∈ log.messages, 0 ≤ m.offset
  empty : log.messages = [] → log.oldest = 0

/-- Messages whose offsets ascend make such a log. -/
theorem regular_ofMessages {messages : List Message}
    (ascending : messages.Pairwise (·.offset < ·.offset)) (natural : ∀ m ∈ messages, 0 ≤ m.offset)
    (below : ∀ m ∈ messages, m.offset < greatestOffset) : (ofMessages messages).Regular := by
  refine ⟨⟨ascending, below⟩, natural, ?_⟩
  intro none
  have none : messages = [] := none
  rw [none]
  rfl

/-- The messages from one offset on, and before another. -/
def between (log : Log) (start next : Int) : List Message :=
  log.messages.filter fun m => start ≤ m.offset ∧ m.offset < next

/-- The messages from an offset on. -/
def onward (log : Log) (start : Int) : List Message := log.messages.filter (start ≤ ·.offset)

/-- A log with more messages at its end. -/
def grown (log : Log) (more : List Message) : Log :=
  { log with messages := log.messages ++ more }

section
variable {log : Log} {start next : Int} {m : Message}

theorem newest_of_getLast? (last : log.messages.getLast? = some m) :
    log.newest = offsetAfter m.offset := by
  simp [newest, last]

theorem between_subset_onward : log.between start next ⊆ log.onward start := by
  intro m member
  obtain ⟨held, inside⟩ := List.mem_filter.mp member
  simp only [decide_eq_true_eq] at inside
  exact List.mem_filter.mpr ⟨held, by simpa using inside.1⟩

theorem between_start (early : next ≤ start) : log.between start next = [] := by
  unfold between
  apply List.filter_eq_nil_iff.mpr
  intro m _
  simp only [decide_eq_true_eq]
  omega

namespace Ascending

theorem newest_of_ne_nil (h : log.Ascending) (some : log.messages ≠ []) :
    log.newest = (log.messages.getLast some).offset + 1 := by
  rw [newest_of_getLast? (List.getLast?_eq_some_getLast some)]
  exact offsetAfter_of_lt (h.below _ (List.getLast_mem some))

/-- Every message stands before the offset that the next one gets. -/
theorem lt_newest (h : log.Ascending) (member : m ∈ log.messages) : m.offset < log.newest := by
  have some : log.messages ≠ [] := List.ne_nil_of_mem member
  have ascending := h.ascending
  have shape := List.dropLast_concat_getLast some
  rw [← shape] at ascending member
  rw [h.newest_of_ne_nil some]
  rcases List.mem_append.mp member with early | late
  · have before := (List.pairwise_append.mp ascending).2.2 m early _ List.mem_cons_self
    omega
  · obtain rfl := List.mem_singleton.mp late
    omega

theorem between_newest (h : log.Ascending) : log.between start log.newest = log.onward start := by
  unfold between onward
  apply List.filter_congr
  intro m member
  simp [h.lt_newest member]

/-- The first message from an offset on splits a log into those before it and those after it. -/
theorem split (h : log.Ascending) (first : log.from? next = some m) :
    ∃ before after, log.messages = before ++ m :: after ∧ next ≤ m.offset ∧
      (∀ x ∈ before, x.offset < next) ∧ ∀ x ∈ after, m.offset < x.offset := by
  obtain ⟨reached, before, after, shape, passed⟩ := List.find?_eq_some_iff_append.mp first
  have ascending := h.ascending
  rw [shape] at ascending
  refine ⟨before, after, shape, by simpa using reached, ?_, ?_⟩
  · intro x member
    have not_reached := passed x member
    simpa using not_reached
  · intro x member
    exact (List.pairwise_cons.mp (List.pairwise_append.mp ascending).2.1).1 x member

/-- A reader that takes the next message has then taken one more. -/
theorem between_next (h : log.Ascending) (first : log.from? next = some m) (begun : start ≤ next) :
    log.between start (m.offset + 1) = log.between start next ++ [m] := by
  obtain ⟨before, after, shape, reached, passed, later⟩ := h.split first
  have front : before.filter (fun x => decide (start ≤ x.offset ∧ x.offset < m.offset + 1)) =
      before.filter (fun x => decide (start ≤ x.offset ∧ x.offset < next)) := by
    apply List.filter_congr
    intro x member
    have early := passed x member
    simp only [decide_eq_decide]
    omega
  have back (bound : Int) (early : bound ≤ m.offset + 1) :
      after.filter (fun x => decide (start ≤ x.offset ∧ x.offset < bound)) = [] := by
    apply List.filter_eq_nil_iff.mpr
    intro x member
    have late := later x member
    simp only [decide_eq_true_eq]
    omega
  have taken : (m :: after).filter
      (fun x => decide (start ≤ x.offset ∧ x.offset < m.offset + 1)) = [m] := by
    rw [List.filter_cons_of_pos, back _ (Int.le_refl _)]
    simp only [decide_eq_true_eq]
    omega
  have waiting : (m :: after).filter
      (fun x => decide (start ≤ x.offset ∧ x.offset < next)) = [] := by
    rw [List.filter_cons_of_neg, back next (by omega)]
    simp only [decide_eq_true_eq]
    omega
  unfold between
  rw [shape, List.filter_append, List.filter_append, front, taken, waiting, List.append_nil]

/-- What comes from an offset on comes before a later one or from there on. -/
theorem onward_eq (h : log.Ascending) (begun : start ≤ next) :
    log.onward start = log.between start next ++ log.onward next := by
  have ascending := h.ascending
  unfold onward between
  generalize log.messages = ms at ascending
  induction ms with
  | nil => rfl
  | cons m rest ih =>
    obtain ⟨first, ascending⟩ := List.pairwise_cons.mp ascending
    have ih := ih ascending
    by_cases early : m.offset < next
    · have waits : ¬ next ≤ m.offset := Int.not_le.mpr early
      simp only [List.filter_cons, early, waits, and_true, decide_false, Bool.false_eq_true,
        if_false]
      split
      · exact congrArg (m :: ·) ih
      · exact ih
    · have late : ∀ x ∈ m :: rest, next ≤ x.offset := by
        intro x member
        rcases List.mem_cons.mp member with rfl | behind
        · exact Int.not_lt.mp early
        · have later := first x behind
          omega
      have from_start : (m :: rest).filter (start ≤ ·.offset) = m :: rest := by
        refine List.filter_eq_self.mpr fun x member => ?_
        exact decide_eq_true (Int.le_trans begun (late x member))
      have from_next : (m :: rest).filter (next ≤ ·.offset) = m :: rest :=
        List.filter_eq_self.mpr fun x member => decide_eq_true (late x member)
      have none_early : (m :: rest).filter (fun x => start ≤ x.offset ∧ x.offset < next) = [] := by
        refine List.filter_eq_nil_iff.mpr fun x member => ?_
        have there := late x member
        simp only [decide_eq_true_eq]
        omega
      rw [from_start, none_early, from_next, List.nil_append]

/-- A reader that takes the next message has then one less to take. -/
theorem onward_next (h : log.Ascending) (first : log.from? next = some m) :
    log.onward next = m :: log.onward (offsetAfter m.offset) := by
  obtain ⟨before, after, shape, reached, _⟩ := h.split first
  have begun : next ≤ m.offset + 1 := by omega
  have place := offsetAfter_of_lt (h.below m (by simp [shape]))
  rw [place, h.onward_eq begun, h.between_next first (Int.le_refl _),
    between_start (Int.le_refl _)]
  rfl

/-- A message that is appended has a greater offset than all before it, as long as there is one. -/
theorem append (h : log.Ascending) (room : log.newest < greatestOffset) {p : Int} :
    (log.append p m).Ascending := by
  constructor
  case ascending =>
    refine List.pairwise_append.mpr ⟨h.ascending, List.pairwise_singleton _ _, ?_⟩
    intro x member y last
    obtain rfl := List.mem_singleton.mp last
    exact h.lt_newest member
  case below =>
    intro x member
    rcases List.mem_append.mp member with held | last
    · exact h.below x held
    · obtain rfl := List.mem_singleton.mp last
      exact room

end Ascending

theorem from?_eq_head? : log.from? next = (log.onward next).head? := List.head?_filter.symm

theorem newest_append {p : Int} : (log.append p m).newest = offsetAfter log.newest := by
  simp [newest, append]

/-- What is appended does not come before an offset that a reader has got to, unless it has not got
anywhere yet. -/
theorem between_append {p : Int} (got : next = start ∨ next ≤ log.newest) :
    (log.append p m).between start next = log.between start next := by
  have later : ¬ (start ≤ log.newest ∧ log.newest < next) := by omega
  simp [between, append, List.filter_append, later]

/-- Where messages with ascending offsets make a log, it begins before it ends. -/
theorem oldest_le_newest {ms : List Message} (ascends : (ofMessages ms).Ascending) :
    (ofMessages ms).oldest ≤ (ofMessages ms).newest := by
  cases ms with
  | nil => exact Int.le_refl 0
  | cons m rest => exact Int.le_of_lt (ascends.lt_newest List.mem_cons_self)

namespace Regular

theorem newest_nonneg (h : log.Regular) : 0 ≤ log.newest := by
  by_cases none : log.messages = []
  · simp [newest, none, h.empty none]
  · have natural := h.natural _ (List.getLast_mem none)
    rw [h.newest_of_ne_nil none]
    omega

/-- The last offset that a log holds is the one before the newest. -/
theorem offsetBefore_newest (h : log.Regular) : offsetBefore log.newest = log.newest - 1 :=
  offsetBefore_of_nonneg h.newest_nonneg

/-- Before its end a log has a next message. -/
theorem exists_next (h : log.Regular) (positive : 0 < log.newest) (inside : next < log.newest) :
    ∃ m, log.from? next = some m := by
  have some : log.messages ≠ [] := by
    intro none
    have zero := h.empty none
    simp [newest, none, zero] at positive
  have last : next ≤ (log.messages.getLast some).offset := by
    rw [h.newest_of_ne_nil some] at inside
    omega
  refine Option.isSome_iff_exists.mp (List.find?_isSome.mpr ⟨_, List.getLast_mem some, ?_⟩)
  simpa using last

end Regular

/-- What is appended to a log comes after the message that a reader takes next. -/
theorem from?_grown {more : List Message} (first : log.from? next = some m) :
    (log.grown more).from? next = some m := by
  unfold from? grown at *
  rw [List.find?_append, first]
  rfl

theorem grown_nil : log.grown [] = log := by simp [grown]

theorem append_grown (log : Log) (more : List Message) (p : Int) (m : Message) :
    ∃ later, (log.grown more).append p m = log.grown later := by
  refine ⟨more ++ [{ m with partition := p, offset := (log.grown more).newest }], ?_⟩
  simp [grown, append]

end

/-- The start that a request resolves to. -/
def start (log : Log) (request : Request) (partition : Int) : Int :=
  match request.position? partition with
  | some (.exactly offset) => offset
  | some .oldest => log.oldest
  | some .newest => log.newest
  | none => if request.fromBeginning then log.oldest else log.newest

/-- The bound that a request with an end resolves to. -/
def bound (log : Log) (request : Request) (partition : Int) : Bound :=
  ⟨partition, log.start request partition, some (offsetBefore log.newest)⟩

/-- A bound is empty only where nothing is to be read. -/
theorem Regular.onward_of_isEmpty {log : Log} (h : log.Regular) {request : Request} {p : Int}
    (empty : (log.bound request p).isEmpty = true) : log.onward (log.start request p) = [] := by
  simp only [bound, Bound.isEmpty, h.offsetBefore_newest, Option.any_some, Bool.or_eq_true,
    decide_eq_true_eq, gt_iff_lt] at empty
  apply List.filter_eq_nil_iff.mpr
  intro m member
  have early := h.lt_newest member
  have natural := h.natural m member
  simp only [decide_eq_true_eq]
  omega

end Log
end TopicReader
