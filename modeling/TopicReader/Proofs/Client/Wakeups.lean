import TopicReader.Proofs.Client.Usage
import TopicReader.Proofs.Engine.Replay

/-! Appends and receives that overlap. The message of an append is in its log before the version grows,
and a receive notes the version before it looks into its log. In between, others go on. However the
steps of all of them come to be mixed, nobody is left asleep on a message. -/
namespace TopicReader

/-- How far a reader has come in a receive. -/
inductive Listener.Phase where
  | idle
  /-- The version is to be noted next. -/
  | called
  /-- The version is noted, and the log is to be looked into next. -/
  | marked
  /-- Nothing was found, and nothing is done until the version is another than the one noted. -/
  | waiting
  deriving DecidableEq, Repr

structure Listener where
  reader : LogReader
  phase : Listener.Phase := .idle

/-- An append whose message is in its log, while nobody has been told. -/
structure Untold where
  topic : String
  partition : Int
  offset : Int
  deriving DecidableEq, Repr

/-- A store, with all appends and receives that have begun. Readers have names. -/
structure Interplay where
  store : LogStore
  appends : List Untold := []
  listeners : Nat → Option Listener := fun _ => none

namespace Interplay

inductive Act where
  | push (topic : String) (partition : Int) (m : Message)
  | bump (untold : Untold)
  | openReader (name : Nat) (topic : String) (partition start : Int)
  | call (name : Nat)
  | mark (name : Nat)
  | look (name : Nat)
  | wake (name : Nat)
  /-- A receive that waits may be given up. -/
  | abandon (name : Nat)
  | close (name : Nat)

def set (s : Interplay) (name : Nat) (l : Option Listener) : Interplay :=
  { s with listeners := fun other => if other = name then l else s.listeners other }

/-- The reader of a name, where it has come just that far. -/
def at? (s : Interplay) (name : Nat) (phase : Listener.Phase) : Option LogReader := do
  let l ← s.listeners name
  if l.phase = phase then some l.reader else none

/-- A reader that is woken has noted the version that woke it, and begins again. -/
def step (s : Interplay) : Act → Option (Interplay × List Usage.Answer)
  | .push topic p m =>
    some ({ s with
      store := s.store.push topic p m
      appends := s.appends ++ [⟨topic, p, (s.store.logOf topic p).newest⟩] }, [])
  | .bump untold =>
    if untold ∈ s.appends then
      some ({ s with store := s.store.bump, appends := s.appends.erase untold },
        [.appended untold.offset])
    else none
  | .openReader name topic p start =>
    match s.listeners name, LogStore.openReader topic p start s.store with
    | none, (.opened reader, store) =>
      some ({ s with store }.set name (some { reader }), [.opened name])
    | none, (.failed e, store) => some ({ s with store }, [.refused name e])
    | _, _ => none
  | .call name => do
    let r ← s.at? name .idle
    return (s.set name (some ⟨r, .called⟩), [])
  | .mark name => do
    let r ← s.at? name .called
    return (s.set name (some ⟨s.store.mark r, .marked⟩), [])
  | .look name => do
    let r ← s.at? name .marked
    match s.store.scan r with
    | some (m, r) => return (s.set name (some ⟨r, .idle⟩), [.delivered name (.message m)])
    | none => return (s.set name (some ⟨r, .waiting⟩), [.silent name])
  | .wake name => do
    let r ← s.at? name .waiting
    if s.store.version = r.seen then none
    else return (s.set name (some ⟨s.store.mark r, .called⟩), [])
  | .abandon name => do
    let r ← s.at? name .waiting
    return (s.set name (some ⟨r, .idle⟩), [])
  | .close name => do
    let r ← s.at? name .idle
    return ({ s with store := Client.closeReader r.partition s.store }.set name none,
      [.closed name])

def Moves (s : Interplay) (a : Act) (answers : List Usage.Answer) (t : Interplay) : Prop :=
  s.step a = some (t, answers)

/-- What a step can do. -/
inductive Step (s : Interplay) : Act → List Usage.Answer → Interplay → Prop where
  | pushed {topic p m} : Step s (.push topic p m) []
      { s with
        store := s.store.push topic p m
        appends := s.appends ++ [⟨topic, p, (s.store.logOf topic p).newest⟩] }
  | bumped {untold} (begun : untold ∈ s.appends) :
      Step s (.bump untold) [.appended untold.offset]
        { s with store := s.store.bump, appends := s.appends.erase untold }
  | opened {name topic p start} (free : s.listeners name = none)
      (well : s.store.openFailures.contains p = false) :
      Step s (.openReader name topic p start) [.opened name]
        ({ s with store.opened := s.store.opened ++ [(p, start)] }.set name
          (some ⟨⟨topic, p, start, s.store.version⟩, .idle⟩))
  | refused {name topic p start} (free : s.listeners name = none)
      (planted : s.store.openFailures.contains p = true) :
      Step s (.openReader name topic p start)
        [.refused name (.opening p "injected open failure")] s
  | called {name r} (stands : s.listeners name = some ⟨r, .idle⟩) :
      Step s (.call name) [] (s.set name (some ⟨r, .called⟩))
  | marked {name r} (stands : s.listeners name = some ⟨r, .called⟩) :
      Step s (.mark name) [] (s.set name (some ⟨{ r with seen := s.store.version }, .marked⟩))
  | delivered {name r m} (stands : s.listeners name = some ⟨r, .marked⟩)
      (first : (s.store.logOf r.topic r.partition).from? r.next = some m) :
      Step s (.look name) [.delivered name (.message m)]
        (s.set name (some ⟨{ r with next := offsetAfter m.offset }, .idle⟩))
  | silent {name r} (stands : s.listeners name = some ⟨r, .marked⟩)
      (nothing : (s.store.logOf r.topic r.partition).from? r.next = none) :
      Step s (.look name) [.silent name] (s.set name (some ⟨r, .waiting⟩))
  | woken {name r} (stands : s.listeners name = some ⟨r, .waiting⟩)
      (news : s.store.version ≠ r.seen) :
      Step s (.wake name) [] (s.set name (some ⟨{ r with seen := s.store.version }, .called⟩))
  | abandoned {name r} (stands : s.listeners name = some ⟨r, .waiting⟩) :
      Step s (.abandon name) [] (s.set name (some ⟨r, .idle⟩))
  | closed {name r} (stands : s.listeners name = some ⟨r, .idle⟩) :
      Step s (.close name) [.closed name]
        ({ s with store.closed := s.store.closed ++ [r.partition] }.set name none)

variable {s t : Interplay} {a : Act} {acts : List Act} {answers as : List Usage.Answer}
  {name : Nat} {phase : Listener.Phase} {r : LogReader} {l : Listener} {m : Message}

theorem at?_eq_some_iff : s.at? name phase = some r ↔ s.listeners name = some ⟨r, phase⟩ := by
  unfold at?
  cases known : s.listeners name with
  | none => simp
  | some l =>
    obtain ⟨reader, reached⟩ := l
    simp [and_comm]

/-- These are the cases of a step. -/
theorem moves_iff : Moves s a as t ↔ Step s a as t := by
  unfold Moves
  constructor
  · intro move
    cases a with
    | push topic p m =>
      cases move
      exact .pushed
    | bump untold =>
      simp only [step] at move
      split at move
      case isTrue begun =>
        cases move
        exact .bumped begun
      case isFalse => cases move
    | openReader name topic p start =>
      simp only [step, LogStore.openReader] at move
      cases free : s.listeners name with
      | some l => simp [free] at move
      | none =>
        cases planted : s.store.openFailures.contains p with
        | true =>
          simp only [free, planted, if_true] at move
          cases move
          exact .refused free planted
        | false =>
          simp only [free, planted, Bool.false_eq_true, if_false] at move
          cases move
          exact .opened free planted
    | call name =>
      obtain ⟨r, stands, same⟩ := Option.bind_eq_some_iff.mp move
      cases same
      exact .called (at?_eq_some_iff.mp stands)
    | mark name =>
      obtain ⟨r, stands, same⟩ := Option.bind_eq_some_iff.mp move
      cases same
      exact .marked (at?_eq_some_iff.mp stands)
    | look name =>
      obtain ⟨r, stands, found⟩ := Option.bind_eq_some_iff.mp move
      rw [LogStore.scan_eq] at found
      cases first : (s.store.logOf r.topic r.partition).from? r.next with
      | some m =>
        rw [first] at found
        cases found
        exact .delivered (at?_eq_some_iff.mp stands) first
      | none =>
        rw [first] at found
        cases found
        exact .silent (at?_eq_some_iff.mp stands) first
    | wake name =>
      obtain ⟨r, stands, same⟩ := Option.bind_eq_some_iff.mp move
      split at same
      case isTrue => cases same
      case isFalse news =>
        cases same
        exact .woken (at?_eq_some_iff.mp stands) news
    | abandon name =>
      obtain ⟨r, stands, same⟩ := Option.bind_eq_some_iff.mp move
      cases same
      exact .abandoned (at?_eq_some_iff.mp stands)
    | close name =>
      obtain ⟨r, stands, same⟩ := Option.bind_eq_some_iff.mp move
      cases same
      exact .closed (at?_eq_some_iff.mp stands)
  · intro step
    cases step with
    | pushed => rfl
    | bumped begun => exact if_pos begun
    | opened free well =>
      simp only [Interplay.step, LogStore.openReader, free, well]
      rfl
    | refused free planted =>
      simp only [Interplay.step, LogStore.openReader, free, planted]
      rfl
    | called stands | marked stands | abandoned stands | closed stands =>
      exact Option.bind_eq_some_iff.mpr ⟨_, at?_eq_some_iff.mpr stands, rfl⟩
    | delivered stands first | silent stands first =>
      refine Option.bind_eq_some_iff.mpr ⟨_, at?_eq_some_iff.mpr stands, ?_⟩
      rw [LogStore.scan_eq, first]
      rfl
    | woken stands news =>
      exact Option.bind_eq_some_iff.mpr ⟨_, at?_eq_some_iff.mpr stands, if_neg news⟩

theorem listeners_set_self {o : Option Listener} : (s.set name o).listeners name = o := if_pos rfl

theorem listeners_set {o : Option Listener} {other : Nat}
    (found : (s.set name o).listeners other = some l) : o = some l ∨ s.listeners other = some l := by
  simp only [set] at found
  split at found
  · exact .inl found
  · exact .inr found

/-- A message of its log that a reader has not come to. -/
def Unread (s : Interplay) (r : LogReader) (m : Message) : Prop :=
  m ∈ (s.store.logOf r.topic r.partition).messages ∧ r.next ≤ m.offset

/-- No reader has noted a version that is still to come, and what a reader that waits has not read
was appended since it noted the version. -/
structure Signalled (s : Interplay) (l : Listener) : Prop where
  past : l.reader.seen ≤ s.store.version
  alert : l.phase = .waiting → ∀ m, s.Unread l.reader m →
    l.reader.seen < s.store.version ∨ ⟨l.reader.topic, l.reader.partition, m.offset⟩ ∈ s.appends

namespace Signalled

/-- A reader that does not wait has only to be careful about the version. -/
theorem of_past (past : r.seen ≤ s.store.version) (up : phase ≠ .waiting) :
    s.Signalled ⟨r, phase⟩ :=
  ⟨past, fun waits => absurd waits up⟩

/-- What is not kept in the logs does not matter. -/
theorem of_logs (h : s.Signalled l) (logs : t.store.logs = s.store.logs)
    (version : t.store.version = s.store.version) (appends : t.appends = s.appends) :
    t.Signalled l := by
  refine ⟨version ▸ h.past, ?_⟩
  intro waits m unread
  unfold Unread at unread
  rw [LogStore.logOf_of_logs logs] at unread
  rw [version, appends]
  exact h.alert waits m unread

/-- A message that is pushed is known to be an untold one. -/
theorem push (h : s.Signalled l) {topic : String} {p : Int} :
    Signalled { s with
      store := s.store.push topic p m
      appends := s.appends ++ [⟨topic, p, (s.store.logOf topic p).newest⟩] } l := by
  refine ⟨h.past, ?_⟩
  rintro waits x ⟨held, reached⟩
  have old (held : x ∈ (s.store.logOf l.reader.topic l.reader.partition).messages) :
      l.reader.seen < s.store.version ∨
        ⟨l.reader.topic, l.reader.partition, x.offset⟩ ∈
          s.appends ++ [⟨topic, p, (s.store.logOf topic p).newest⟩] := by
    obtain news | untold := h.alert waits x ⟨held, reached⟩
    · exact .inl news
    · exact .inr (List.mem_append_left _ untold)
  rw [LogStore.logOf_push] at held
  split at held
  case isTrue here =>
    -- the log that grew has its older messages and the one pushed, whose append is untold
    cases here
    obtain before | last := List.mem_append.mp held
    · exact old before
    · cases List.mem_singleton.mp last
      exact .inr (List.mem_append_right _ List.mem_cons_self)
  case isFalse => exact old held

/-- Once the version has grown, everything that came before is told. -/
theorem bump (h : s.Signalled l) (appends : List Untold) :
    Signalled { s with store := s.store.bump, appends } l := by
  have grown : l.reader.seen < s.store.version + 1 := Nat.lt_succ_of_le h.past
  exact ⟨Nat.le_of_lt grown, fun _ _ _ => .inl grown⟩

end Signalled

/-- Every reader is signalled what it has not read. -/
def AllSignalled (s : Interplay) : Prop := ∀ name l, s.listeners name = some l → s.Signalled l

/-- A reader that finds nothing has read all that there is, so it may wait. -/
theorem signalled_of_nothing (past : r.seen ≤ s.store.version)
    (nothing : (s.store.logOf r.topic r.partition).from? r.next = none) :
    s.Signalled ⟨r, .waiting⟩ := by
  refine ⟨past, ?_⟩
  rintro _ m ⟨held, reached⟩
  have passed := List.find?_eq_none.mp nothing m held
  exact absurd reached (by simpa using passed)

/-- Where a reader that moves comes to is signalled, all readers are. -/
theorem AllSignalled.set {o : Option Listener} (h : s.AllSignalled)
    (moved : ∀ l, o = some l → s.Signalled l) : (s.set name o).AllSignalled := by
  intro other l found
  obtain same | before := listeners_set found
  · exact (moved l same).of_logs rfl rfl rfl
  · exact (h other l before).of_logs rfl rfl rfl

/-- Whoever makes a step, no reader misses a signal. -/
theorem AllSignalled.step (h : s.AllSignalled) (step : Step s a as t) : t.AllSignalled := by
  cases step with
  | pushed => exact fun name l found => (h name l found).push
  | bumped => exact fun name l found => (h name l found).bump _
  | refused => exact h
  | opened =>
    refine AllSignalled.set (fun name l found => (h name l found).of_logs rfl rfl rfl) ?_
    rintro l ⟨⟩
    exact .of_past (Nat.le_refl _) nofun
  | closed => exact AllSignalled.set (fun name l found => (h name l found).of_logs rfl rfl rfl) nofun
  | marked | woken =>
    refine h.set ?_
    rintro l ⟨⟩
    exact .of_past (Nat.le_refl _) nofun
  | called stands | delivered stands | abandoned stands =>
    refine h.set ?_
    rintro l ⟨⟩
    exact .of_past (h _ _ stands).past nofun
  | silent stands nothing =>
    -- the version was noted before this look, so whatever comes after it is told later than that
    refine h.set ?_
    rintro l ⟨⟩
    exact signalled_of_nothing (h _ _ stands).past nothing

theorem allSignalled_of_reaches {init : LogStore} (run : Reaches Moves { store := init } acts answers s) :
    s.AllSignalled := by
  induction run with
  | refl => exact nofun
  | next _ move ih => exact ih.step (moves_iff.mp move)

/-- A receive that nobody breaks in on hands out what the store answers. -/
theorem reaches_of_respond (stands : s.listeners name = some ⟨r, .called⟩) {x : Response LogReader}
    (found : s.store.respond r = some x) :
    ∃ t, Reaches Moves s [.mark name, .look name] [.delivered name x.delivery] t ∧
      t.store = s.store ∧ t.listeners name = some ⟨x.reader, .idle⟩ := by
  rw [LogStore.respond_eq] at found
  obtain ⟨m, first, rfl⟩ := Option.map_eq_some_iff.mp found
  have start : Reaches Moves s [] [] s := .refl
  have run := (start.next (moves_iff.mpr (.marked stands))).next
    (moves_iff.mpr (.delivered listeners_set_self first))
  exact ⟨_, run, rfl, listeners_set_self⟩

/-- However appends and receives are mixed, a reader that waits with a message unread is about to be
woken: the version is not the one that it has noted, or else the append of that message is still to
tell. So where no append is underway the reader goes on, and is handed its next message. -/
theorem no_wakeup_lost {init : LogStore} (run : Reaches Moves { store := init } acts answers s)
    (waits : s.listeners name = some ⟨r, .waiting⟩) (unread : s.Unread r m) :
    (s.store.version ≠ r.seen ∨ ⟨r.topic, r.partition, m.offset⟩ ∈ s.appends) ∧
    (s.appends = [] → ∃ first t,
      (s.store.logOf r.topic r.partition).from? r.next = some first ∧
      Reaches Moves s [.wake name, .mark name, .look name] [.delivered name (.message first)] t) := by
  have alert := (allSignalled_of_reaches run name _ waits).alert rfl m unread
  refine ⟨alert.imp_left Nat.ne_of_gt, ?_⟩
  intro told
  rw [told] at alert
  have news : s.store.version ≠ r.seen := by
    obtain news | untold := alert
    · exact Nat.ne_of_gt news
    · cases untold
  obtain ⟨held, reached⟩ := unread
  have found : ((s.store.logOf r.topic r.partition).from? r.next).isSome :=
    List.find?_isSome.mpr ⟨m, held, by simpa using reached⟩
  obtain ⟨first, next⟩ := Option.isSome_iff_exists.mp found
  have start : Reaches Moves s [] [] s := .refl
  have woken := start.next (moves_iff.mpr (.woken waits news))
  have calls : (s.set name (some ⟨{ r with seen := s.store.version }, .called⟩)).listeners name =
      some ⟨{ r with seen := s.store.version }, .called⟩ := listeners_set_self
  obtain ⟨t, rest, _⟩ := reaches_of_respond calls
    ((LogStore.respond_eq _).trans (congrArg _ next))
  exact ⟨first, t, next, woken.trans rest⟩

/-- Two readers of one partition, with appends to it and to another one. Both readers are woken, the
second of them in vain. -/
def mixedActs : List Act :=
  [.openReader 0 "t" 0 0, .openReader 1 "t" 0 0, .call 0, .call 1, .mark 0, .mark 1,
    .push "t" 1 { partition := 1, offset := 0 }, .look 1, .bump ⟨"t", 1, 0⟩, .wake 1, .mark 1,
    .look 0, .look 1, .push "t" 0 { partition := 0, offset := 0 }, .wake 0, .mark 0, .look 0,
    .call 0, .mark 0, .look 0]

/-- Whether a reader waits with a message unread. -/
def waitsUnread (s : Interplay) (name : Nat) : Bool :=
  (s.listeners name).any fun l => l.phase = .waiting &&
    (s.store.logOf l.reader.topic l.reader.partition).messages.any (l.reader.next ≤ ·.offset)

theorem waitsUnread_eq_true_iff : s.waitsUnread name = true ↔
    ∃ r m, s.listeners name = some ⟨r, .waiting⟩ ∧ s.Unread r m := by
  unfold waitsUnread Unread
  simp only [Option.any_eq_true, Bool.and_eq_true, decide_eq_true_eq, List.any_eq_true]
  constructor
  · rintro ⟨⟨r, _⟩, stands, rfl, m, unread⟩
    exact ⟨r, m, stands, unread⟩
  · rintro ⟨r, m, stands, unread⟩
    exact ⟨_, stands, rfl, m, unread⟩

/-- The second reader waits while the last append is underway, and takes its message when that is
over. -/
theorem mixed_woken :
    (∃ s answers r, ∃ m : Message, Reaches Moves { store := {} } mixedActs answers s ∧
      s.listeners 1 = some ⟨r, .waiting⟩ ∧ s.store.version = r.seen ∧
      ⟨r.topic, r.partition, m.offset⟩ ∈ s.appends) ∧
    ∃ s answers first t,
      Reaches Moves { store := {} } (mixedActs ++ [.bump ⟨"t", 0, 0⟩]) answers s ∧
      Reaches Moves s [.wake 1, .mark 1, .look 1] [.delivered 1 (.message first)] t := by
  constructor
  · have replayed : (replayWith step { store := {} } mixedActs).any (fun (s, _) =>
        s.waitsUnread 1 && (s.listeners 1).all (s.store.version = ·.reader.seen)) = true := by
      cbv
    obtain ⟨s, answers, run, seen⟩ := exists_of_replayWith replayed
    obtain ⟨idle, same⟩ := Bool.and_eq_true_iff.mp seen
    obtain ⟨r, m, waits, unread⟩ := waitsUnread_eq_true_iff.mp idle
    have same : s.store.version = r.seen := by simpa [waits] using same
    obtain ⟨news | untold, _⟩ := no_wakeup_lost run waits unread
    · exact absurd same news
    · exact ⟨s, answers, r, m, run, waits, same, untold⟩
  · have replayed : (replayWith step { store := {} } (mixedActs ++ [.bump ⟨"t", 0, 0⟩])).any
        (fun (s, _) => s.waitsUnread 1 && s.appends.isEmpty) = true := by
      cbv
    obtain ⟨s, answers, run, seen⟩ := exists_of_replayWith replayed
    obtain ⟨idle, told⟩ := Bool.and_eq_true_iff.mp seen
    obtain ⟨r, m, waits, unread⟩ := waitsUnread_eq_true_iff.mp idle
    obtain ⟨_, goes⟩ := no_wakeup_lost run waits unread
    obtain ⟨first, t, _, taken⟩ := goes (List.isEmpty_iff.mp told)
    exact ⟨s, answers, first, t, run, taken⟩

end Interplay
end TopicReader
