import Mathlib.Data.List.Nodup
import TopicReader.Client.Script
import TopicReader.Proofs.Engine.Replay
import TopicReader.Proofs.Isolation.Calm

/-! Partitions that are read side by side do not disturb each other. As long as nobody tells the
workers to stop and the output listens, each worker sends what it would send if it had its partition
for itself, and stops for the same reason, in whatever order the workers take their turns. -/
namespace TopicReader

namespace Worker.Phase

variable {ρ : Type} {p : Solo ρ} {start : ρ} {clock : Nat} {sent : List Message} {phase : Phase ρ}

/-- Where a worker stands that has sent what it would send by itself. A worker that waits for a
message has not waited longer than the idle window. -/
def MatchesSolo (p : Solo ρ) (start : ρ) (clock : Nat) (sent : List Message) : Phase ρ → Prop
  | .receiving reader since =>
    p.Sends start sent reader ∧ ∀ window, p.idle = some window → clock ≤ since + window
  | .sending reader m =>
    ∃ before r, p.Sends start sent before ∧ p.heard before = some r ∧ r.delivery = .message m ∧
      r.reader = reader
  | .stopped reason => p.Ends start sent (.stopped reason)
  | .crashed _ => p.Ends start sent .crashed

theorem MatchesSolo.ends (h : phase.MatchesSolo p start clock sent) (ended : phase.fate ≠ .reading) :
    p.Ends start sent phase.fate := by
  cases phase with
  | receiving | sending => exact absurd rfl ended
  | stopped | crashed => exact h

/-- A worker that has not ended has sent some messages by its reader. -/
theorem MatchesSolo.sends (h : phase.MatchesSolo p start clock sent) (going : phase.fate = .reading) :
    ∃ reader, p.Sends start sent reader := by
  cases phase with
  | receiving reader since => exact ⟨reader, h.1⟩
  | sending reader m =>
    obtain ⟨before, _, sends, _⟩ := h
    exact ⟨before, sends⟩
  | stopped | crashed => cases going

end Worker.Phase

namespace Supervision

variable {σ ρ : Type} [Client σ ρ] {topic : String} {readers : Autonomy σ ρ topic}
  {idle : Option Nat} {s t : Supervision σ ρ} {es fs : List Event} {a : Action σ} {i : Nat}
  {b : Bound} {reader : ρ}

omit [Client σ ρ] in
theorem Turns.bounds_eq {old new : Worker.Phase ρ} (turn : Turns s t i b old new) :
    t.workers.map (·.bound) = s.workers.map (·.bound) := by
  rw [turn.workers, List.map_set]
  exact set_of_getElem? (by simp [turn.worker])

/-- Each partition is as if it were alone: with a worker that has sent what it would send by itself,
with a reader that is to be taken over by a worker, still to be opened, or without a reader. -/
structure Isolated (readers : Autonomy σ ρ topic) (idle : Option Nat) (bounds : List Bound)
    (s : Supervision σ ρ) (events : List Event) : Prop where
  known : ∀ c ∈ s.stage.bounds, c ∈ bounds
  opened : ∀ x ∈ s.stage.readers, readers.opens x.1.partition x.1.start = .opened x.2
  workers : ∀ w ∈ s.workers, w.bound ∈ bounds ∧ ∃ start,
    readers.opens w.bound.partition w.bound.start = .opened start ∧
      w.phase.MatchesSolo (readers.solo idle w.bound) start s.clock
        (ofPartition w.bound.partition (forwarded events))
  found : ∀ c ∈ bounds, c ∈ s.stage.bounds ∨ c ∈ s.workers.map (·.bound) ∨
    ∀ reader, readers.opens c.partition c.start ≠ .opened reader

namespace Isolated

variable {bounds : List Bound} {old new : Worker.Phase ρ}

/-- A step that moves no worker and no message. -/
theorem keep (h : s.Isolated readers idle bounds es) (workers : t.workers = s.workers)
    (silent : forwarded fs = [])
    (timely : ∀ w ∈ s.workers, ∀ start sent,
      w.phase.MatchesSolo (readers.solo idle w.bound) start s.clock sent →
        w.phase.MatchesSolo (readers.solo idle w.bound) start t.clock sent)
    (known : ∀ c ∈ t.stage.bounds, c ∈ s.stage.bounds)
    (opened : ∀ x ∈ t.stage.readers, readers.opens x.1.partition x.1.start = .opened x.2)
    (found : ∀ c ∈ s.stage.bounds, c ∈ t.stage.bounds ∨
      ∀ reader, readers.opens c.partition c.start ≠ .opened reader) :
    t.Isolated readers idle bounds (es ++ fs) := by
  refine ⟨fun c member => h.known c (known c member), opened, ?_, ?_⟩
  · intro w member
    rw [workers] at member
    obtain ⟨wanted, start, opens, matched⟩ := h.workers w member
    refine ⟨wanted, start, opens, ?_⟩
    rw [forwarded_append, silent, List.append_nil]
    exact timely w member start _ matched
  · intro c wanted
    rw [workers]
    rcases h.found c wanted with waits | works | refused
    · exact (found c waits).imp_right .inr
    · exact .inr (.inl works)
    · exact .inr (.inr refused)

/-- A turn of one worker, which sends only messages of its own partition. -/
theorem turn (h : s.Isolated readers idle bounds es) (ledger : s.Ledger es)
    (turn : Turns s t i b old new)
    (own : ∀ p ≠ b.partition, ofPartition p (forwarded fs) = [])
    (matched : ∀ start,
      old.MatchesSolo (readers.solo idle b) start s.clock (ofPartition b.partition (forwarded es)) →
        new.MatchesSolo (readers.solo idle b) start s.clock
          (ofPartition b.partition (forwarded es) ++ ofPartition b.partition (forwarded fs))) :
    t.Isolated readers idle bounds (es ++ fs) := by
  refine ⟨turn.stage ▸ h.known, turn.stage ▸ h.opened, ?_, ?_⟩
  · intro w member
    rw [turn.workers] at member
    rw [turn.clock, forwarded_append, ofPartition_append]
    obtain ⟨j, at_j⟩ := List.mem_iff_getElem?.mp member
    by_cases here : i = j
    · subst here
      rw [List.getElem?_set_self (List.getElem?_eq_some_iff.mp turn.worker).1] at at_j
      cases at_j
      obtain ⟨wanted, start, opens, before⟩ := h.workers _ (List.mem_of_getElem? turn.worker)
      exact ⟨wanted, start, opens, matched start before⟩
    · rw [List.getElem?_set_ne here] at at_j
      rw [own _ (ledger.apart turn.worker at_j here).symm, List.append_nil]
      exact h.workers w (List.mem_of_getElem? at_j)
  · rw [turn.stage, turn.bounds_eq]
    exact h.found

/-- A turn in which nothing is sent. -/
theorem silent_turn (h : s.Isolated readers idle bounds es) (ledger : s.Ledger es)
    (turn : Turns s t i b old new) (silent : forwarded fs = [])
    (matched : ∀ start sent, old.MatchesSolo (readers.solo idle b) start s.clock sent →
      new.MatchesSolo (readers.solo idle b) start s.clock sent) :
    t.Isolated readers idle bounds (es ++ fs) := by
  have nothing (p : Int) : ofPartition p (forwarded fs) = [] := by
    rw [silent]
    rfl
  refine h.turn ledger turn (fun p _ => nothing p) fun start before => ?_
  rw [nothing, List.append_nil]
  exact matched start _ before

/-- A worker that takes over a reader has all of its partition before it. -/
theorem started (h : s.Isolated readers idle bounds es) (ledger : s.Ledger es)
    {rest : List (Bound × ρ)} (stage : s.stage = .starting ((b, reader) :: rest)) :
    Isolated readers idle bounds
      { s with
        workers := s.workers ++ [⟨b, .receiving reader s.clock⟩]
        funnel := s.funnel.addSender
        stage := .starting rest } es := by
  have waits : b ∈ s.stage.bounds := by simp [stage, Stage.bounds]
  have unsent := (ledger.fresh stage).1
  refine ⟨?_, ?_, ?_, ?_⟩
  · intro c member
    apply h.known
    rw [stage]
    exact List.mem_cons_of_mem _ member
  · intro x member
    apply h.opened
    rw [stage]
    exact List.mem_cons_of_mem _ member
  · intro w member
    rcases List.mem_append.mp member with earlier | new
    · exact h.workers w earlier
    · obtain rfl := List.mem_singleton.mp new
      refine ⟨h.known b waits, reader, h.opened (b, reader) (by simp [stage, Stage.readers]), ?_⟩
      rw [unsent]
      exact ⟨.begins, fun _ _ => Nat.le_add_right _ _⟩
  · intro c wanted
    rcases h.found c wanted with waits | works | refused
    · simp only [stage, Stage.bounds, List.map_cons, List.mem_cons] at waits
      rcases waits with rfl | later
      · exact .inr (.inl (by simp))
      · exact .inl later
    · rw [List.map_append]
      exact .inr (.inl (List.mem_append_left _ works))
    · exact .inr (.inr refused)

/-- A step that takes the next bound off the list of those that wait. The reader that comes of it is
kept, if there is one. -/
theorem taken_up (h : s.Isolated readers idle bounds es) {waiting : List Bound}
    {done kept : List (Bound × ρ)} {opening : Opening ρ}
    (stage : s.stage = .opening waiting done) (next : waiting[i]? = some b)
    (answer : opening = readers.opens b.partition b.start)
    (after : t.stage = .after (waiting.eraseIdx i) kept)
    (result : (∃ reader, opening = .opened reader ∧ kept = done ++ [(b, reader)]) ∨
      (∀ reader, opening ≠ .opened reader) ∧ kept = done)
    (workers : t.workers = s.workers) (clock : t.clock = s.clock) (silent : forwarded fs = []) :
    t.Isolated readers idle bounds (es ++ fs) := by
  have timely : ∀ w ∈ s.workers, ∀ start sent,
      w.phase.MatchesSolo (readers.solo idle w.bound) start s.clock sent →
        w.phase.MatchesSolo (readers.solo idle w.bound) start t.clock sent := by
    rw [clock]
    exact fun _ _ _ _ => id
  rcases result with ⟨reader, rfl, rfl⟩ | ⟨refused, rfl⟩
  · have same : t.stage.bounds.Perm s.stage.bounds := by
      rw [after, stage]
      exact bounds_opened next
    refine h.keep workers silent timely (fun c => same.mem_iff.mp) ?_
      fun c member => .inl (same.mem_iff.mpr member)
    intro x member
    rw [after, mem_readers_after] at member
    rcases List.mem_append.mp member with earlier | new
    · exact h.opened x (by rw [stage]; exact earlier)
    · obtain rfl := List.mem_singleton.mp new
      exact answer.symm
  · have one_less : s.stage.bounds.Perm (b :: t.stage.bounds) := by
      obtain ⟨bound, rfl⟩ := List.getElem?_eq_some_iff.mp next
      rw [after, stage]
      exact ((List.getElem_cons_eraseIdx_perm bound).symm.append_right _).trans
        ((bounds_after _ _).symm.cons _)
    refine h.keep workers silent timely
      (fun c member => one_less.mem_iff.mpr (List.mem_cons_of_mem b member)) ?_ ?_
    · intro x member
      rw [after, mem_readers_after] at member
      exact h.opened x (by rw [stage]; exact member)
    · intro c member
      rcases List.mem_cons.mp (one_less.mem_iff.mp member) with rfl | other
      · exact .inr (answer ▸ refused)
      · exact .inl other

theorem step (h : s.Isolated readers idle bounds es) (calm : s.Calm readers idle)
    (ledger : s.Ledger es) (step : Step s a fs t) (peaceful : a.Peaceful readers.occurs) :
    t.Isolated readers idle bounds (es ++ fs) := by
  cases step with
  | opened stage next answer =>
    exact h.taken_up stage next (calm.answered answer).1 rfl (.inl ⟨_, rfl, rfl⟩) rfl rfl rfl
  | openFailed stage next answer =>
    exact h.taken_up stage next (calm.answered answer).1 rfl (.inr ⟨by simp, rfl⟩) rfl rfl
      (by simp [recordEvents])
  | openCrashed stage next answer =>
    exact h.taken_up stage next (calm.answered answer).1 rfl (.inr ⟨by simp, rfl⟩) rfl rfl
      (by simp [recordEvents])
  | started stage =>
    rw [List.append_nil]
    exact h.started ledger stage
  | allStarted stage =>
    refine h.keep rfl rfl (fun _ _ _ _ => id) (fun _ member => ?_) (fun _ member => ?_) ?_
    · cases member
    · cases member
    · intro c waits
      simp [stage, Stage.bounds] at waits
  | delivered worker going answer message =>
    refine h.silent_turn ledger ⟨worker, rfl, rfl, rfl, rfl, rfl⟩ rfl ?_
    rintro start sent ⟨sends, timely⟩
    exact ⟨_, _, sends, calm.heard timely answer, message, rfl⟩
  | exhausted worker going answer ended =>
    refine h.silent_turn ledger ⟨worker, rfl, rfl, rfl, rfl, rfl⟩ rfl ?_
    rintro start sent ⟨sends, timely⟩
    exact Solo.ends_exhausted sends (calm.heard timely answer) ended
  | readerFailed worker going answer failed =>
    refine h.silent_turn ledger ⟨worker, rfl, rfl, rfl, rfl, rfl⟩ (by simp [recordEvents]) ?_
    rintro start sent ⟨sends, timely⟩
    exact Solo.ends_failed sends (calm.heard timely answer) failed
  | workerCrashed worker going answer crashed =>
    refine h.silent_turn ledger ⟨worker, rfl, rfl, rfl, rfl, rfl⟩ rfl ?_
    rintro start sent ⟨sends, timely⟩
    exact Solo.ends_crashed sends (calm.heard timely answer) crashed
  | idled worker going silent late =>
    refine h.silent_turn ledger ⟨worker, rfl, rfl, rfl, rfl, rfl⟩ rfl ?_
    rintro start sent ⟨sends, timely⟩
    obtain ⟨unheard, window⟩ := calm.unheard silent late
    exact Solo.ends_idle sends unheard window
  | @sent i b reader m worker going receiving room within =>
    refine h.turn ledger ⟨worker, rfl, rfl, rfl, rfl, rfl⟩ ?_ ?_
    · intro p foreign
      simp [ofPartition_other foreign.symm]
    · rintro start ⟨before, r, sends, heard, message, rfl⟩
      simp only [forwarded_cons, Event.forwarded?, Option.toList, forwarded_nil, List.append_nil,
        ofPartition_self]
      exact ⟨sends.next heard message within, fun _ _ => Nat.le_add_right _ _⟩
  | boundaryReached worker going receiving room last =>
    refine h.turn ledger ⟨worker, rfl, rfl, rfl, rfl, rfl⟩ ?_ ?_
    · intro p foreign
      simp [ofPartition_other foreign.symm]
    · rintro start ⟨before, r, sends, heard, message, rfl⟩
      simpa [Worker.Phase.MatchesSolo] using Solo.ends_boundary sends heard message last
  | funnelClosed worker going deaf =>
    simp [calm.receiving] at deaf
  | stopsReceiving worker closing =>
    simp [calm.going] at closing
  | stopsSending worker closing =>
    simp [calm.going] at closing
  | joined worker =>
    exact h.silent_turn ledger ⟨worker, rfl, rfl, rfl, rfl, rfl⟩ (by simp [recordEvents])
      fun _ _ => id
  | taken next =>
    exact h.keep rfl rfl (fun _ _ _ _ => id) (fun _ => id) h.opened fun _ => .inl
  | deafened | shutDown =>
    exact peaceful.elim
  | changed =>
    exact h.keep rfl rfl (fun _ _ _ _ => id) (fun _ => id) h.opened fun _ => .inl
  | advanced later due =>
    refine h.keep rfl rfl ?_ (fun _ => id) h.opened fun _ => .inl
    intro w member start sent matched
    obtain ⟨c, phase⟩ := w
    cases phase with
    | receiving reader since =>
      refine ⟨matched.1, fun window set => ?_⟩
      obtain ⟨last, waits, early⟩ := due_le_window (w := ⟨c, .receiving reader since⟩) rfl
        (calm.idle.trans set)
      exact Nat.le_trans (due last (List.mem_filterMap.mpr ⟨_, member, waits⟩)) early
    | _ => exact matched

end Isolated

/-- What holds of a supervision that nobody has disturbed. -/
theorem isolated_of_reaches {client : σ} {bounds : List Bound} {actions : List (Action σ)}
    (begins : readers.occurs client) (apart : (bounds.map (·.partition)).Nodup)
    (peaceful : ∀ a ∈ actions, a.Peaceful readers.occurs)
    (run : Reaches Moves (ofBounds client topic idle bounds) actions es s) :
    s.Calm readers idle ∧ s.Ledger es ∧
      s.Isolated readers idle (bounds.filter fun b => !b.isEmpty) es := by
  induction run with
  | refl =>
    refine ⟨⟨rfl, rfl, begins, rfl, rfl, Nat.one_pos, fun _ _ => opening_after⟩,
      ledger_ofBounds apart client topic idle, ?_, ?_, by simp [ofBounds], ?_⟩
    · intro c member
      simpa [ofBounds, (bounds_after _ _).mem_iff] using member
    · intro x member
      simp [ofBounds, mem_readers_after] at member
    · intro c member
      left
      simpa [ofBounds, (bounds_after _ _).mem_iff] using member
  | next before move ih =>
    obtain ⟨calm, ledger, isolated⟩ := ih fun a member => peaceful a (List.mem_append_left _ member)
    have step := step_cases move
    have allowed := peaceful _ (List.mem_append_right _ List.mem_cons_self)
    exact ⟨calm.step step allowed, ledger.step step, isolated.step calm ledger step allowed⟩

namespace Isolated

variable {bounds : List Bound}

/-- A partition with a worker has sent what it sends by itself, and nothing is missing once its
worker has ended or nothing happens any more. -/
theorem course_of_worker (h : s.Isolated readers idle bounds es) (calm : s.Calm readers idle)
    {w : Worker ρ} (member : w ∈ s.workers) (some : w.bound.isEmpty = false) :
    ∃ n, readers.course idle w.bound n =
        (ofPartition w.bound.partition (forwarded es), w.phase.fate) ∧
      (w.phase.fate ≠ .reading ∨ s.Spent → ∀ k, n ≤ k → readers.course idle w.bound k =
        (ofPartition w.bound.partition (forwarded es), w.phase.fate)) := by
  obtain ⟨_, start, opens, matched⟩ := h.workers w member
  have course_eq (n : Nat) : readers.course idle w.bound n =
      (readers.solo idle w.bound).reads n start := by
    simp [Autonomy.course, Solo.course, opens, Autonomy.solo, some]
  simp only [course_eq]
  by_cases going : w.phase.fate = .reading
  · obtain ⟨_, sends⟩ := matched.sends going
    refine ⟨_, going ▸ Solo.reads_of_sends_length sends, ?_⟩
    intro ended k later
    obtain ⟨reader, since, phase, silent, patient⟩ :=
      calm.silent_of_spent (ended.resolve_left (absurd going)) member going
    rw [phase] at matched
    rw [going]
    exact Solo.reads_of_silent matched.1 silent patient later
  · have ends := matched.ends going
    exact ⟨_, ends _ (Nat.lt_succ_self _), fun _ k later => ends k later⟩

/-- A partition has a worker, or one is to take it over, or there is nothing to read. -/
theorem place (h : s.Isolated readers idle (bounds.filter fun b => !b.isEmpty) es)
    (apart : (bounds.map (·.partition)).Nodup) (member : b ∈ bounds) :
    (∃ w ∈ s.workers, w.bound = b ∧ b.isEmpty = false) ∨
      (∀ w ∈ s.workers, w.bound.partition ≠ b.partition) ∧
        (b ∈ s.stage.bounds ∧ b.isEmpty = false ∨
          ∀ n, readers.course idle b n = ([], .unread)) := by
  by_cases works : ∃ w ∈ s.workers, w.bound = b
  · obtain ⟨w, works, rfl⟩ := works
    have some := (List.mem_filter.mp (h.workers w works).1).2
    exact .inl ⟨w, works, rfl, by simpa using some⟩
  · right
    constructor
    · intro w inside same
      have known := (List.mem_filter.mp (h.workers w inside).1).1
      exact works ⟨w, inside, List.inj_on_of_nodup_map apart known member same⟩
    · cases empty : b.isEmpty with
      | true =>
        right
        intro n
        cases opens : readers.opens b.partition b.start <;>
          simp [Autonomy.course, Solo.course, opens, Autonomy.solo, empty]
      | false =>
        have wanted : b ∈ bounds.filter fun b => !b.isEmpty := by simp [member, empty]
        rcases h.found b wanted with waits | known | refused
        · exact .inl ⟨waits, rfl⟩
        · exact absurd (List.mem_map.mp known) works
        · right
          intro n
          cases opens : readers.opens b.partition b.start with
          | opened reader => exact absurd opens (refused reader)
          | failed | crashed => simp [Autonomy.course, Solo.course, opens]

end Isolated

omit [Client σ ρ] in
theorem bounds_of_finished (finished : s.isFinished = true) : s.stage.bounds = [] := by
  rw [(isFinished_iff.mp finished).1]
  rfl

omit [Client σ ρ] in
theorem fate_of_finished (finished : s.isFinished = true) {w : Worker ρ} (member : w ∈ s.workers) :
    w.phase.fate ≠ .reading := by
  have settled := (isFinished_iff.mp finished).2 w member
  obtain ⟨b, phase⟩ := w
  cases phase with
  | receiving | sending => cases settled
  | stopped | crashed => simp [Worker.Phase.fate]

variable (readers idle) in
/-- Without a request a partition sends nothing. -/
theorem course_zero (some : b.isEmpty = false) :
    ∃ fate, readers.course idle b 0 = ([], fate) ∧ ∀ reason, fate ≠ .stopped reason := by
  unfold Autonomy.course Solo.course
  split
  · refine ⟨.reading, ?_, by simp⟩
    simp [Autonomy.solo, some, Solo.reads]
  · exact ⟨.unread, rfl, by simp⟩

/-- In an undisturbed supervision each partition sends the messages that it sends by itself, and
stops for the same reason. -/
theorem sent_as_if_alone {client : σ} {bounds : List Bound} {actions : List (Action σ)}
    {events : List Event} (begins : readers.occurs client)
    (apart : (bounds.map (·.partition)).Nodup)
    (peaceful : ∀ a ∈ actions, a.Peaceful readers.occurs)
    (run : Reaches Moves (ofBounds client topic idle bounds) actions events s)
    (member : b ∈ bounds) :
    (∃ n fate, readers.course idle b n = (ofPartition b.partition (forwarded events), fate) ∧
      (∀ reason, (b.partition, reason) ∈ s.stops ↔ fate = .stopped reason) ∧
      (s.isFinished = true → fate ≠ .reading) ∧
      (s.isFinished = true ∨ s.Spent → ∀ k, n ≤ k →
        readers.course idle b k = (ofPartition b.partition (forwarded events), fate))) ∧
    (s.Spent ∨ ∃ a : Action σ,
      (a.isOwn = true ∨ a = .take ∨ a = .advance (s.clock + 1)) ∧ (s.step a).isSome = true) := by
  obtain ⟨calm, ledger, isolated⟩ := isolated_of_reaches begins apart peaceful run
  refine ⟨?_, calm.spent_or_moves⟩
  rcases isolated.place apart member with ⟨w, works, rfl, some⟩ | ⟨unworked, place⟩
  · obtain ⟨n, here, later⟩ := isolated.course_of_worker calm works some
    refine ⟨n, w.phase.fate, here, ?_, fun finished => fate_of_finished finished works, ?_⟩
    · intro reason
      rw [mem_stops, Worker.Phase.fate_eq_stopped]
      constructor
      · rintro ⟨v, inside, same, stopped⟩
        rwa [← List.inj_on_of_nodup_map ledger.workers_distinct inside works same]
      · exact fun stopped => ⟨w, works, rfl, stopped⟩
    · exact fun ended => later (ended.imp_left fun finished => fate_of_finished finished works)
  · have unsent : ofPartition b.partition (forwarded events) = [] := by
      refine (ledger.silent b.partition fun known => ?_).1
      obtain ⟨w, works, same⟩ := List.mem_map.mp known
      exact unworked w works same
    have unstopped (reason : StopReason) : (b.partition, reason) ∉ s.stops := by
      rw [mem_stops]
      rintro ⟨w, works, same, _⟩
      exact unworked w works same
    rw [unsent]
    rcases place with ⟨waits, some⟩ | unread
    · obtain ⟨fate, nothing, going⟩ := course_zero readers idle some
      refine ⟨0, fate, nothing, ?_, ?_, ?_⟩
      · exact fun reason => iff_of_false (unstopped reason) (going reason)
      · intro finished
        simp [bounds_of_finished finished] at waits
      · rintro (finished | spent)
        · simp [bounds_of_finished finished] at waits
        · simp [calm.bounds_of_stuck fun a own => spent.stuck a (.inl own)] at waits
    · exact ⟨0, .unread, unread 0, fun reason => iff_of_false (unstopped reason) (by simp), by simp,
        fun _ k _ => unread k⟩

/-- Scripts with the same partitions. -/
def autonomyOfScripts (parts : List Script.Partition) (topic : String) :
    Autonomy Script (List Script.Step) topic where
  occurs script := script.parts = parts
  opens p start := (Script.openReader topic p start { parts }).1
  answers := Script.respond 0
  opened {c c' p start opening} same answer := by
    have answer : Script.openReader topic p start c = (opening, c') := answer
    unfold Script.openReader Script.part? at answer ⊢
    rw [same] at answer
    simp only at answer ⊢
    split at answer <;> cases answer <;> simp [*]
  responds _ := rfl
  closes same := same

/-- The first partition delivers two messages and then stays silent. The second one cannot be opened,
and the reader of the third one fails. -/
def crowdedParts : List Script.Partition :=
  [{ id := 0, steps := [.deliver (.message { partition := 0, offset := 0 }), .wait 9,
      .deliver (.message { partition := 0, offset := 1 })] },
    { id := 1, opens := .failing (.opening 1 "no leader") },
    { id := 2, steps := [.deliver (.failed (.broker "reader lost"))] }]

def crowdedBounds : List Bound := [⟨0, 0, some 5⟩, ⟨1, 0, some 5⟩, ⟨2, 0, none⟩]

/-- The first worker has to wait for the funnel nine times as long as its idle window. -/
def crowdedSteps : List (Action Script) :=
  [.openReader 0, .openReader 0, .openReader 0, .start, .start, .start, .work 0, .work 0, .work 1,
    .advance 9, .work 0, .advance 100, .take, .work 0, .advance 110, .work 0]

/-- The first partition sends what it sends by itself, and stops because of the silence after it. -/
theorem crowded_as_if_alone :
    ∃ (s : Supervision Script (List Script.Step)) (events : List Event),
      Reaches Moves (ofBounds { parts := crowdedParts } "t" (some 10) crowdedBounds) crowdedSteps
        events s ∧ s.isFinished = true ∧ s.stops = [(0, .idle), (2, .readerFailed)] ∧
      (ofPartition 0 (forwarded events)).map (·.offset) = [0, 1] ∧
      ∃ n, ∀ k, n ≤ k → (autonomyOfScripts crowdedParts "t").course (some 10) ⟨0, 0, some 5⟩ k =
        (ofPartition 0 (forwarded events), .stopped .idle) := by
  have replayed : (replayWith step
      (ofBounds ({ parts := crowdedParts } : Script) "t" (some 10) crowdedBounds)
      crowdedSteps).any (fun (s, events) =>
        s.isFinished && s.stops = [(0, .idle), (2, .readerFailed)] &&
          (ofPartition 0 (forwarded events)).map (·.offset) = [0, 1]) = true := by
    cbv
  obtain ⟨s, events, run, seen⟩ := exists_of_replayWith replayed
  simp only [Bool.and_eq_true, decide_eq_true_eq] at seen
  obtain ⟨⟨finished, stops⟩, offsets⟩ := seen
  have begins : (autonomyOfScripts crowdedParts "t").occurs { parts := crowdedParts } := rfl
  obtain ⟨⟨n, fate, _, stopped, _, later⟩, _⟩ :=
    sent_as_if_alone (b := ⟨0, 0, some 5⟩) begins (by decide)
      (by simp [crowdedSteps, Action.Peaceful]) run (by simp [crowdedBounds])
  have idled : fate = .stopped .idle := (stopped .idle).mp (by simp [stops])
  exact ⟨s, events, run, finished, stops, offsets, n, idled ▸ later (.inl finished)⟩

end Supervision
end TopicReader
