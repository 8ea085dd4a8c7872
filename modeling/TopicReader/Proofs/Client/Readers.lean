import TopicReader.Proofs.Client.Usage
import TopicReader.Proofs.Engine.Replay

/-! What readers of a store hand out. Whatever is appended meanwhile, and whatever is done with other
readers, it is the messages of their log, one after the other, from their start on; they find nothing
only when they have handed out all that are there. -/
namespace TopicReader

/-- Each log of a store is one of messages with ascending offsets below the greatest one. -/
def LogStore.Ordered (s : LogStore) : Prop :=
  ∀ topic p log, s.log? topic p = some log →
    ∃ ms, log = .ofMessages ms ∧ ms.Pairwise (·.offset < ·.offset) ∧
      ∀ m ∈ ms, m.offset < greatestOffset

theorem LogStore.Ordered.ascends {s : LogStore} (h : s.Ordered) (topic : String) (p : Int) :
    (s.logOf topic p).Ascending ∧ (s.logOf topic p).oldest ≤ (s.logOf topic p).newest := by
  refine logOf_induction (motive := fun log => log.Ascending ∧ log.oldest ≤ log.newest)
    ⟨⟨.nil, by simp⟩, Int.le_refl 0⟩ ?_
  intro log held
  obtain ⟨ms, rfl, ascending, below⟩ := h topic p log held
  exact ⟨⟨ascending, below⟩, Log.oldest_le_newest ⟨ascending, below⟩⟩

/-- What comes from the start of a reader on, before the offset at which it goes on, has been
received. That offset is the start itself, or one that the log has got to. -/
structure Visit.Follows (log : Log) (v : Visit) (next : Int) : Prop where
  begun : v.start ≤ next
  got : next = v.start ∨ next ≤ log.newest
  received : v.received = log.between v.start next
  reader : ∀ reader, v.reader = some reader →
    reader.topic = v.topic ∧ reader.partition = v.partition ∧ reader.next = next

namespace Visit.Follows

variable {log : Log} {v : Visit} {next : Int} {m : Message}

theorem begins {topic : String} {p start : Int} {seen : Nat} :
    Follows log { topic, partition := p, start, reader := some ⟨topic, p, start, seen⟩ } start := by
  constructor
  case begun => exact Int.le_refl _
  case got => exact .inl rfl
  case received => exact (Log.between_start (Int.le_refl _)).symm
  case reader =>
    intro reader same
    cases same
    exact ⟨rfl, rfl, rfl⟩

theorem append {p : Int} (h : v.Follows log next) (room : log.newest < greatestOffset) :
    v.Follows (log.append p m) next := by
  constructor
  case begun => exact h.begun
  case got =>
    rw [Log.newest_append, offsetAfter_of_lt room]
    exact h.got.imp_right fun early => Int.le_trans early (Int.le.intro 1 rfl)
  case received =>
    rw [Log.between_append h.got]
    exact h.received
  case reader => exact h.reader

theorem close (h : v.Follows log next) : Follows log { v with reader := none } next :=
  ⟨h.begun, h.got, h.received, fun _ gone => by cases gone⟩

/-- A reader goes on behind the message that it hands out. -/
theorem take (h : v.Follows log next) (ascending : log.Ascending) {seen : Nat}
    (first : log.from? next = some m) :
    Follows log
      { v with
        reader := some ⟨v.topic, v.partition, offsetAfter m.offset, seen⟩
        received := v.received ++ [m] } (offsetAfter m.offset) := by
  obtain ⟨before, after, shape, reached, _⟩ := ascending.split first
  have held : m ∈ log.messages := by simp [shape]
  rw [offsetAfter_of_lt (ascending.below m held)]
  constructor
  case begun =>
    have begun : v.start ≤ m.offset := Int.le_trans h.begun reached
    exact Int.le_trans begun (Int.le.intro 1 rfl)
  case got => exact .inr (ascending.lt_newest held)
  case received => rw [h.received, ascending.between_next first h.begun]
  case reader =>
    intro reader same
    cases same
    exact ⟨rfl, rfl, rfl⟩

/-- All that comes from the start on has been received, or comes from the offset on at which the
reader goes on. -/
theorem onward_eq (h : v.Follows log next) (ascending : log.Ascending) :
    log.onward v.start = v.received ++ log.onward next := by
  rw [h.received]
  exact ascending.onward_eq h.begun

end Visit.Follows

namespace Usage

variable {u t : Usage} {c : Call} {calls : List Call} {answers as : List Answer} {name : Nat}

/-- No log grows beyond the greatest offset. -/
def InRange (init : LogStore) (calls : List Call) : Prop :=
  ∀ topic p, (init.logOf topic p).newest + calls.countP (·.appendsTo topic p) ≤ greatestOffset

theorem InRange.before {init : LogStore} {later : List Call} (h : InRange init (calls ++ later)) :
    InRange init calls := by
  intro topic p
  have whole := h topic p
  rw [List.countP_append] at whole
  omega

/-- Logs ascend, begin where they began and have grown by what was appended, and each reader has
handed out what comes before the offset at which it goes on. -/
structure Tracks (init : LogStore) (calls : List Call) (u : Usage) : Prop where
  ascending : ∀ topic p, (u.store.logOf topic p).Ascending
  oldest : ∀ topic p, (u.store.logOf topic p).oldest = (init.logOf topic p).oldest
  newest : ∀ topic p, (u.store.logOf topic p).newest =
    (init.logOf topic p).newest + calls.countP (·.appendsTo topic p)
  visits : ∀ name v, u.visits name = some v →
    ∃ next, v.Follows (u.store.logOf v.topic v.partition) next

namespace Tracks

variable {init : LogStore}

/-- A call that appends nothing. -/
theorem frame (h : u.Tracks init calls) (logs : t.store.logs = u.store.logs)
    (silent : ∀ topic p, c.appendsTo topic p = false)
    (visits : ∀ name v, t.visits name = some v → u.visits name = some v ∨
      ∃ next, v.Follows (u.store.logOf v.topic v.partition) next) :
    t.Tracks init (calls ++ [c]) := by
  have same := LogStore.logOf_of_logs logs
  constructor
  case ascending => simpa only [same] using h.ascending
  case oldest => simpa only [same] using h.oldest
  case newest =>
    intro topic p
    simpa [same, silent] using h.newest topic p
  case visits =>
    intro name v found
    rw [same]
    exact (visits name v found).elim (h.visits name v) id

/-- A call that changes one of the readers and appends nothing. -/
theorem update (h : u.Tracks init calls) {v : Visit} {next : Int}
    (logs : t.store.logs = u.store.logs) (visits : t.visits = (u.set name v).visits)
    (silent : ∀ topic p, c.appendsTo topic p = false)
    (follows : v.Follows (u.store.logOf v.topic v.partition) next) :
    t.Tracks init (calls ++ [c]) := by
  refine h.frame logs silent ?_
  intro other w found
  rw [visits] at found
  rcases visits_set found with ⟨rfl, rfl⟩ | before
  · exact .inr ⟨next, follows⟩
  · exact .inl before

theorem append (h : u.Tracks init calls) {topic : String} {p : Int} {m : Message}
    (fits : InRange init (calls ++ [.append topic p m])) :
    Tracks init (calls ++ [.append topic p m]) { u with store := u.store.append topic p m } := by
  have counts : Call.appendsTo topic p (.append topic p m) = true := decide_eq_true rfl
  have room : (u.store.logOf topic p).newest < greatestOffset := by
    have after := fits topic p
    rw [List.countP_append, List.countP_singleton, if_pos counts] at after
    rw [h.newest topic p]
    omega
  have grown (topic' : String) (q : Int) : (u.store.append topic p m).logOf topic' q =
      if (topic', q) = (topic, p) then (u.store.logOf topic p).append p m
      else u.store.logOf topic' q := LogStore.logOf_push
  constructor
  case ascending =>
    intro topic' q
    rw [grown]
    split
    · exact (h.ascending topic p).append room
    · exact h.ascending topic' q
  case oldest =>
    intro topic' q
    rw [grown]
    split
    · rename_i here
      cases here
      exact h.oldest topic p
    · exact h.oldest topic' q
  case newest =>
    intro topic' q
    have before := h.newest topic' q
    rw [grown, List.countP_append, List.countP_singleton]
    by_cases here : (topic', q) = (topic, p)
    · obtain ⟨rfl, rfl⟩ := Prod.mk.inj here
      rw [if_pos rfl, if_pos counts, Log.newest_append, offsetAfter_of_lt room, before]
      omega
    · have silent : Call.appendsTo topic' q (.append topic p m) = false :=
        decide_eq_false (Ne.symm here)
      rw [if_neg here, silent, before]
      rfl
  case visits =>
    intro name v found
    obtain ⟨next, follows⟩ := h.visits name v found
    refine ⟨next, ?_⟩
    rw [grown]
    split
    · rename_i here
      obtain ⟨rfl, rfl⟩ := Prod.mk.inj here
      exact follows.append room
    · exact follows

theorem step (h : u.Tracks init calls) (fits : InRange init (calls ++ [c])) (step : Step u c as t) :
    t.Tracks init (calls ++ [c]) := by
  cases step with
  | appended => exact h.append fits
  | opened free well => exact h.update rfl rfl (fun _ _ => rfl) .begins
  | refused free planted => exact h.frame rfl (fun _ _ => rfl) fun _ _ => .inl
  | delivered visit held first =>
    obtain ⟨next, follows⟩ := h.visits _ _ visit
    obtain ⟨topic, partition, place⟩ := follows.reader _ held
    rw [topic, partition, place] at first
    rw [topic, partition]
    exact h.update rfl rfl (fun _ _ => rfl) (follows.take (h.ascending _ _) first)
  | silent visit held nothing => exact h.frame rfl (fun _ _ => rfl) fun _ _ => .inl
  | closed visit held =>
    obtain ⟨next, follows⟩ := h.visits _ _ visit
    exact h.update rfl rfl (fun _ _ => rfl) follows.close

end Tracks

/-- Two usages in which the same was appended and one of the readers has got as far. -/
structure Alike (name : Nat) (u v : Usage) : Prop where
  logs : v.store.logs = u.store.logs
  version : v.store.version = u.store.version
  failures : v.store.openFailures = u.store.openFailures
  visit : v.visits name = u.visits name

namespace Alike

variable {v : Usage}

/-- A call that has to do with the reader does the same in both. -/
theorem follow (h : Alike name u v) (step : Step u c as t)
    (concerned : concerns name c.name? = true) : ∃ w, Step v c as w ∧ Alike name t w := by
  have same := LogStore.logOf_of_logs h.logs
  cases step with
  | @appended topic p m =>
    refine ⟨{ v with store := v.store.append topic p m }, ?_, ?_, ?_, h.failures, h.visit⟩
    · rw [← same topic p]
      exact .appended
    · simp [LogStore.append, LogStore.bump, LogStore.push, LogStore.put, LogStore.log?, h.logs]
    · simp [LogStore.append, LogStore.bump, LogStore.push, LogStore.put, h.version]
  | @opened other topic p start free well =>
    obtain rfl := concerns_some.mp concerned
    refine ⟨_, .opened (h.visit.trans free) (h.failures ▸ well), h.logs, h.version, h.failures, ?_⟩
    simp [set, h.version]
  | @refused other topic p start free planted =>
    obtain rfl := concerns_some.mp concerned
    exact ⟨v, .refused (h.visit.trans free) (h.failures ▸ planted), h⟩
  | @delivered other visit reader m found held first =>
    obtain rfl := concerns_some.mp concerned
    rw [← same] at first
    refine ⟨_, .delivered (h.visit.trans found) held first, h.logs, h.version, h.failures, ?_⟩
    simp [set, h.version]
  | @silent other visit reader found held nothing =>
    obtain rfl := concerns_some.mp concerned
    rw [← same] at nothing
    exact ⟨v, .silent (h.visit.trans found) held nothing, h⟩
  | @closed other visit reader found held =>
    obtain rfl := concerns_some.mp concerned
    refine ⟨_, .closed (h.visit.trans found) held, h.logs, h.version, h.failures, ?_⟩
    simp [set]

end Alike

section
variable {init : LogStore} {v : Visit} {reader : LogReader}

/-- A reader that can be called finds nothing just when all of its log from its start on has been
received through it, and else the first message that is missing. -/
theorem Tracks.receive (h : u.Tracks init calls) (visit : u.visits name = some v)
    (held : v.reader = some reader) :
    (Moves u (.receive name) [.silent name] u ↔
      v.received = (u.store.logOf v.topic v.partition).onward v.start) ∧
    ∀ m rest, (u.store.logOf v.topic v.partition).onward v.start = v.received ++ m :: rest →
      ∃ t w, Moves u (.receive name) [.delivered name (.message m)] t ∧
        t.visits name = some w ∧ w.received = v.received ++ [m] := by
  obtain ⟨next, follows⟩ := h.visits name v visit
  obtain ⟨topic, partition, place⟩ := follows.reader reader held
  have whole := follows.onward_eq (h.ascending v.topic v.partition)
  have found : (u.store.logOf reader.topic reader.partition).from? reader.next =
      ((u.store.logOf v.topic v.partition).onward next).head? := by
    rw [topic, partition, place, Log.from?_eq_head?]
  constructor
  · constructor
    · intro silent
      cases moves_iff.mp silent with
      | silent again here nothing =>
        obtain rfl := Option.some.inj (again.symm.trans visit)
        obtain rfl := Option.some.inj (here.symm.trans held)
        have none_left := List.head?_eq_none_iff.mp (found.symm.trans nothing)
        rw [whole, none_left, List.append_nil]
    · intro all
      rw [whole, List.self_eq_append_right] at all
      rw [all] at found
      exact moves_iff.mpr (.silent visit held found)
  · intro m rest shape
    have first := List.append_cancel_left (whole.symm.trans shape)
    rw [first] at found
    exact ⟨_, _, moves_iff.mpr (.delivered visit held found), visits_set_self, rfl⟩

/-- A log with gaps, and a partition whose readers cannot be opened. -/
def sparse : LogStore where
  logs := [(("t", 0), .ofMessages [{ partition := 0, offset := 3 }, { partition := 0, offset := 7 }])]
  openFailures := [9]

end

end Usage
end TopicReader
