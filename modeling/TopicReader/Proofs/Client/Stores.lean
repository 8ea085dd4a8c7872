import TopicReader.Proofs.Client.Logs
import TopicReader.Proofs.Engine.Beginning

/-! What a store answers, and what it may become while messages are appended to it. -/
namespace TopicReader

namespace LogStore

/-- The log of a partition; before the first append it is empty. -/
def logOf (s : LogStore) (topic : String) (partition : Int) : Log :=
  (s.log? topic partition).getD {}

theorem lookup_filter {α β : Type} [BEq α] [LawfulBEq α] [DecidableEq α] {l : List (α × β)} {k k' : α}
    (other : k' ≠ k) :
    (l.filter (·.1 ≠ k)).lookup k' = l.lookup k' := by
  induction l with
  | nil => rfl
  | cons x rest ih =>
    obtain ⟨a, b⟩ := x
    by_cases dropped : a = k
    · subst dropped
      have passed : (k' == a) = false := by simpa using other
      simpa [List.lookup_cons, passed] using ih
    · by_cases found : k' = a
      · simp [found, dropped]
      · have passed : (k' == a) = false := by simpa using found
        simpa [List.filter_cons, dropped, List.lookup_cons, passed] using ih

variable {s t init : LogStore} {topic u : String} {p q : Int} {m : Message}

theorem log?_put {log : Log} :
    (s.put topic p log).log? u q = if (u, q) = (topic, p) then some log else s.log? u q := by
  unfold put log?
  by_cases here : (u, q) = (topic, p)
  · rw [here]
    simp
  · have passed : ((u, q) == (topic, p)) = false := by simpa using here
    simp only [List.lookup_cons, passed, if_neg here]
    exact lookup_filter here

theorem logOf_of_logs (logs : t.logs = s.logs) (topic : String) (p : Int) :
    t.logOf topic p = s.logOf topic p := by
  simp only [logOf, log?, logs]

/-- What holds of an empty log and of all logs of a store holds of the log of any partition. -/
theorem logOf_induction {motive : Log → Prop} (empty : motive {})
    (held : ∀ log, s.log? topic p = some log → motive log) : motive (s.logOf topic p) := by
  unfold logOf
  cases known : s.log? topic p with
  | none => exact empty
  | some log => exact held log known

theorem mem_logs_of_log? {log : Log} (known : s.log? topic p = some log) :
    ((topic, p), log) ∈ s.logs := by
  obtain ⟨before, after, shape, _⟩ := List.lookup_eq_some_iff.mp known
  rw [shape]
  simp

theorem logOf_push : (s.push topic p m).logOf u q =
    if (u, q) = (topic, p) then (s.logOf topic p).append p m else s.logOf u q := by
  unfold push logOf
  rw [log?_put]
  split <;> rfl

/-- A reader finds the first message that it has not seen. -/
theorem scan_eq (r : LogReader) :
    s.scan r = ((s.logOf r.topic r.partition).from? r.next).map fun m =>
      (m, { r with next := offsetAfter m.offset }) := by
  unfold scan logOf
  cases known : s.log? r.topic r.partition with
  | none => simp [Log.from?]
  | some log => cases found : log.from? r.next <;> simp [found]

theorem respond_eq (r : LogReader) :
    s.respond r = ((s.logOf r.topic r.partition).from? r.next).map fun m =>
      ⟨0, .message m, { r with next := offsetAfter m.offset, seen := s.version }⟩ := by
  unfold respond
  rw [scan_eq, Option.map_map]
  rfl

theorem mem_ids : p ∈ s.ids topic ↔ (s.log? topic p).isSome := by
  unfold ids log?
  rw [List.mem_mergeSort, List.lookup_isSome_iff]
  constructor
  · intro listed
    obtain ⟨x, member, rfl⟩ := List.mem_map.mp listed
    obtain ⟨held, named⟩ := List.mem_filter.mp member
    refine ⟨x, held, ?_⟩
    have named : x.1.1 = topic := by simpa using named
    simp [← named]
  · rintro ⟨x, held, named⟩
    have named : x.1 = (topic, p) := by simpa using (beq_iff_eq.mp named).symm
    refine List.mem_map.mpr ⟨x, List.mem_filter.mpr ⟨held, ?_⟩, ?_⟩
    · simp [named]
    · simp [named]

theorem partitions_run (known : s.ids topic ≠ []) :
    (Client.partitions topic : Query LogStore (List Int)).run s = (.ok (s.ids topic), s) := by
  show (partitions topic).run s = _
  unfold partitions
  rw [Query.run_bind]
  have asked : (get : Query LogStore LogStore).run s = (.ok s, s) := rfl
  simp only [asked]
  rfl

theorem watermarks_run {log : Log} (well : s.offsetFailures = [])
    (known : s.log? topic p = some log) :
    (Client.watermarks topic p : Query LogStore (Int × Int)).run s =
      (.ok (log.oldest, log.newest), { s with fetches := s.fetches + 1 }) := by
  unfold log? at known
  have counted : (modify fun s => { s with fetches := s.fetches + 1 } : Query LogStore PUnit).run s =
      (.ok (), { s with fetches := s.fetches + 1 }) := rfl
  have asked (s : LogStore) : (get : Query LogStore LogStore).run s = (.ok s, s) := rfl
  show (watermarks topic p).run s = _
  unfold watermarks
  simp only [Query.run_bind, counted, asked, well, List.contains_nil, Bool.false_eq_true, if_false,
    log?, known]
  rfl

/-- The start of a partition is found without another question. -/
theorem findStart_run {request : Request} {log : Log} :
    (request.findStart p (some (log.oldest, log.newest)) : Query LogStore Int).run s =
      (.ok (log.start request p), s) := by
  unfold Request.findStart Log.start
  cases request.position? p with
  | none => cases request.fromBeginning <;> rfl
  | some position => cases position <;> rfl

/-- A bound in a run with an end comes from one question for both ends of the log. -/
theorem resolve_run {request : Request} (valid : request.validate = .ok ())
    (direct : request.tail = none) (ending : request.exit = true) (well : s.offsetFailures = [])
    (known : (s.log? request.topic p).isSome) :
    (request.resolve p : Query LogStore Bound).run s =
      (.ok ((s.logOf request.topic p).bound request p), { s with fetches := s.fetches + 1 }) := by
  obtain ⟨log, found⟩ := Option.isSome_iff_exists.mp known
  unfold Request.resolve
  rw [valid, direct]
  simp only [ending, if_true, logOf, found, Option.getD_some, Query.run_bind,
    watermarks_run well found, findStart_run]
  rfl

/-- What a store may become while messages are appended to it, in all partitions of a topic but
those that are still to be asked for their offsets. No failure has been planted. -/
structure Grown (init : LogStore) (topic : String) (still : List Int) (s : LogStore) : Prop where
  openings : s.openFailures = []
  offsets : s.offsetFailures = []
  known : ∀ p, (init.log? topic p).isSome → (s.log? topic p).isSome
  longer : ∀ p, ∃ more, s.logOf topic p = (init.logOf topic p).grown more ∧ (p ∈ still → more = [])

namespace Grown

variable {still : List Int}

theorem refl (openings : init.openFailures = []) (offsets : init.offsetFailures = []) :
    init.Grown topic still init :=
  ⟨openings, offsets, fun _ => id, fun _ => ⟨[], Log.grown_nil.symm, fun _ => rfl⟩⟩

/-- What is not kept in the logs does not matter. -/
theorem of_logs (h : init.Grown topic still s) (logs : t.logs = s.logs)
    (openings : t.openFailures = s.openFailures) (offsets : t.offsetFailures = s.offsetFailures) :
    init.Grown topic still t := by
  have same (p : Int) : t.log? topic p = s.log? topic p := by
    unfold log?
    rw [logs]
  refine ⟨openings.trans h.openings, offsets.trans h.offsets, ?_, ?_⟩
  · intro p found
    rw [same]
    exact h.known p found
  · intro p
    rw [logOf_of_logs logs]
    exact h.longer p

theorem push (h : init.Grown topic still s) (asked : u = topic → q ∉ still) :
    init.Grown topic still (s.push u q m) := by
  refine ⟨h.openings, h.offsets, ?_, ?_⟩
  · intro p found
    unfold LogStore.push
    rw [log?_put]
    split
    · rfl
    · exact h.known p found
  · intro p
    obtain ⟨more, shape, kept⟩ := h.longer p
    rw [logOf_push]
    split
    · rename_i here
      cases here
      obtain ⟨later, longer⟩ := Log.append_grown (init.logOf topic q) more q m
      rw [shape]
      exact ⟨later, longer, fun member => absurd member (asked rfl)⟩
    · exact ⟨more, shape, kept⟩

theorem less (h : init.Grown topic still s) {fewer : List Int} (sub : fewer ⊆ still) :
    init.Grown topic fewer s := by
  refine ⟨h.openings, h.offsets, h.known, ?_⟩
  intro p
  obtain ⟨more, shape, kept⟩ := h.longer p
  exact ⟨more, shape, fun member => kept (sub member)⟩

/-- A partition that is still to be asked is as it was. -/
theorem logOf_eq (h : init.Grown topic still s) (member : p ∈ still) :
    s.logOf topic p = init.logOf topic p := by
  obtain ⟨more, shape, kept⟩ := h.longer p
  rw [shape, kept member, Log.grown_nil]

/-- A reader goes on to the next message that was there from the beginning, whatever has been
appended since. -/
theorem respond (h : init.Grown topic still s) {r : LogReader} (same : r.topic = topic)
    (first : (init.logOf topic r.partition).from? r.next = some m) :
    s.respond r = some
      ⟨0, .message m, { r with next := offsetAfter m.offset, seen := s.version }⟩ := by
  obtain ⟨more, shape, _⟩ := h.longer r.partition
  rw [respond_eq, same, shape, Log.from?_grown first]
  rfl

end Grown
end LogStore
end TopicReader
