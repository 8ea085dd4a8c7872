import Mathlib.Algebra.GroupWithZero.Nat
import TopicReader.Proofs.Snapshot.Workers

/-! How much a supervision has still to do. Each of its own steps makes this less, whatever is
appended meanwhile: only messages that were there at the beginning count. And as long as something is
to be done, there is a step that does it. -/
namespace TopicReader

section
variable {α : Type} {l : List α} {i : Nat} {a b : α}

theorem sum_eraseIdx (f : α → Nat) (found : l[i]? = some a) :
    ((l.eraseIdx i).map f).sum + f a = (l.map f).sum := by
  obtain ⟨bound, rfl⟩ := List.getElem?_eq_some_iff.mp found
  have perm := ((List.getElem_cons_eraseIdx_perm bound).map f).sum_nat
  rw [List.map_cons, List.sum_cons] at perm
  omega

theorem sum_set (f : α → Nat) (found : l[i]? = some a) :
    ((l.set i b).map f).sum + f a = (l.map f).sum + f b := by
  induction l generalizing i with
  | nil => simp at found
  | cons x rest ih =>
    cases i with
    | zero =>
      simp only [List.getElem?_cons_zero, Option.some.injEq] at found
      subst found
      simp only [List.set_cons_zero, List.map_cons, List.sum_cons]
      omega
    | succ i =>
      have shorter := ih (by simpa using found)
      simp only [List.set_cons_succ, List.map_cons, List.sum_cons]
      omega

theorem sum_filter_le (f : α → Nat) (p : α → Bool) : ((l.filter p).map f).sum ≤ (l.map f).sum := by
  induction l with
  | nil => exact Nat.le_refl _
  | cons x rest ih =>
    rw [List.filter_cons]
    split
    · simpa using ih
    · rw [List.map_cons, List.sum_cons]
      omega

end

/-- How many messages of a partition, as a store had it, lie ahead of an offset. -/
def LogStore.ahead (init : LogStore) (topic : String) (p next : Int) : Nat :=
  ((init.logOf topic p).onward next).length

/-- How many steps a worker may still take, one for the output to take each message and one to write
it included. -/
def Worker.left (init : LogStore) (topic : String) (w : Worker LogReader) : Nat :=
  match w.phase with
  | .receiving reader _ => 4 * init.ahead topic w.bound.partition reader.next
  | .sending reader _ => 4 * init.ahead topic w.bound.partition reader.next + 3
  | _ => 0

namespace Supervision

def Stage.left (init : LogStore) (topic : String) : Stage LogReader → Nat
  | .opening waiting opened =>
    (waiting.map fun b => 4 * init.ahead topic b.partition b.start + 2).sum +
      (opened.map fun x => 4 * init.ahead topic x.1.partition x.1.start + 1).sum + 1
  | .starting opened =>
    (opened.map fun x => 4 * init.ahead topic x.1.partition x.1.start + 1).sum + 1
  | .running => 0

/-- A bound on the steps that are left, up to the last message that is written. -/
def left (init : LogStore) (s : Supervision LogStore LogReader) : Nat :=
  s.stage.left init s.topic + (s.workers.map (Worker.left init s.topic)).sum +
    2 * s.funnel.queue.length

variable {init : LogStore} {request : Request} {still : List Int}
  {s t : Supervision LogStore LogReader} {es fs : List Event} {a : Action LogStore}

theorem left_after (topic : String) (waiting : List Bound) (opened : List (Bound × LogReader)) :
    (Stage.after waiting opened).left init topic =
      (Stage.opening waiting opened).left init topic := by
  cases waiting with
  | nil =>
    have sorted := ((List.mergeSort_perm opened fun a b => a.1.partition ≤ b.1.partition).map
      fun x => 4 * init.ahead topic x.1.partition x.1.start + 1).sum_nat
    simpa [Stage.after, Stage.left, openedInOrder] using sorted
  | cons b rest => rfl

/-- A step of the supervision itself leaves less to do. -/
theorem Smooth.left_lt (smooth : Smooth init s a fs t) (h : s.Tracks init request still es)
    (regular : ∀ p, (init.logOf request.topic p).Regular) : t.left init < s.left init := by
  unfold left
  cases smooth with
  | @opened i waiting done b stage next =>
    have rest := sum_eraseIdx (fun b => 4 * init.ahead s.topic b.partition b.start + 2) next
    rw [left_after, stage]
    simp only [Stage.left, List.map_append, List.map_cons, List.map_nil, List.sum_append_nat,
      List.sum_cons, List.sum_nil]
    omega
  | @started b reader rest stage =>
    have standing := h.readers (b, reader) (by simp [stage, Stage.readers])
    have same : reader.next = b.start := standing.2.2
    simp only [stage, Stage.left, Worker.left, Funnel.addSender, same, List.map_append,
      List.map_cons, List.map_nil, List.sum_append_nat, List.sum_cons, List.sum_nil]
    omega
  | allStarted stage =>
    simp only [stage, Stage.left, Funnel.dropSender, List.map_nil, List.sum_nil]
    omega
  | @delivered i b reader since m worker first =>
    obtain ⟨_, _, topic, _⟩ := h.worker worker
    have rest := sum_set (b := ⟨b, .sending
      { reader with next := offsetAfter m.offset, seen := s.client.version } m⟩)
      (Worker.left init s.topic) worker
    rw [topic] at first
    have fewer := congrArg List.length ((regular b.partition).onward_next first)
    rw [← h.topic] at fewer
    simp only [Worker.left, LogStore.ahead, fewer, List.length_cons] at rest
    simp only [setWorker]
    omega
  | @sent i b reader m worker within =>
    have rest := sum_set (b := ⟨b, .receiving reader s.clock⟩) (Worker.left init s.topic) worker
    simp only [Worker.left] at rest
    simp only [setWorker, Funnel.push, List.length_append, List.length_singleton]
    omega
  | @boundaryReached i b reader m worker last =>
    have rest := sum_set (b := ⟨b, .stopped .boundaryReached⟩) (Worker.left init s.topic) worker
    simp only [Worker.left] at rest
    simp only [stop, setWorker, Funnel.push, Funnel.dropSender, List.length_append,
      List.length_singleton]
    omega

namespace Tracks

/-- A worker that has not stopped can go on while there is room in the funnel. -/
theorem exists_work (h : s.Tracks init request still es)
    (regular : ∀ p, (init.logOf request.topic p).Regular)
    (receiving : s.funnel.receiving = true) (empty : s.funnel.queue = []) {w : Worker LogReader}
    (member : w ∈ s.workers) (live : w.isLive = true) :
    ∃ i, (s.step (.work i)).isSome = true := by
  obtain ⟨i, found⟩ := List.mem_iff_getElem?.mp member
  refine ⟨i, ?_⟩
  obtain ⟨b, phase⟩ := w
  simp only [Supervision.step, work, found]
  cases phase with
  | receiving reader since =>
    obtain ⟨m, _, answer⟩ := h.answer regular found
    simp [receive, h.calm, answer]
  | sending reader m =>
    have room : s.funnel.hasRoom = true := by simp [Funnel.hasRoom, empty, h.room]
    by_cases last : b.reachedBy m.offset <;> simp [send, h.calm, receiving, room, last]
  | _ => cases live

/-- As long as somebody may still send and the output has taken all that was sent, there is a step
to take. -/
theorem exists_step (h : s.Tracks init request still es)
    (regular : ∀ p, (init.logOf request.topic p).Regular) (counted : s.Counted)
    (receiving : s.funnel.receiving = true) (empty : s.funnel.queue = [])
    (going : s.funnel.senders ≠ 0) :
    ∃ a : Action LogStore, a.isOwn = true ∧ (s.step a).isSome = true := by
  cases stage : s.stage with
  | opening waiting opened =>
    cases waiting with
    | nil => exact absurd rfl (h.opening [] opened stage)
    | cons b rest => exact ⟨.openReader 0, rfl, by simp [Supervision.step, stage]⟩
  | starting opened =>
    refine ⟨.start, rfl, ?_⟩
    cases opened <;> simp [Supervision.step, stage]
  | running =>
    have live : 0 < s.workers.countP Worker.isLive := by
      unfold Counted at counted
      simp only [stage, Stage.held] at counted
      omega
    obtain ⟨w, member, live⟩ := List.countP_pos_iff.mp live
    obtain ⟨i, possible⟩ := h.exists_work regular receiving empty member live
    exact ⟨.work i, rfl, possible⟩

/-- When nobody may send any more, all are done. -/
theorem finished (h : s.Tracks init request still es) (counted : s.Counted)
    (none_left : s.funnel.senders = 0) : s.isFinished = true := by
  obtain ⟨running, unlive⟩ := (senders_eq_zero_iff counted).mp none_left
  refine isFinished_iff.mpr ⟨running, fun w member => ?_⟩
  have done := unlive w member
  have follows := (h.workers w member).2
  cases phase : w.phase with
  | stopped reason => simp [Worker.isSettled, phase]
  | crashed reported =>
    rw [phase] at follows
    exact follows.elim
  | _ => simp [Worker.isLive, phase] at done

end Tracks
end Supervision
end TopicReader
