import Mathlib.Data.List.Infix
import Mathlib.Data.List.Nodup
import TopicReader.Client.Script
import TopicReader.Proofs.Engine.Ledger
import TopicReader.Proofs.Engine.Replay

/-! How far a worker reads. It compares a message with the end of its bound when it has sent it and not
before, and stops after the first one that lies there or beyond. So nothing beyond the end is sent as
long as the offset at the end is delivered; where that one is missing, one message too many is. -/
namespace TopicReader

theorem Bound.reachedBy_eq {b : Bound} {e offset : Int} (last : b.last = some e) :
    b.reachedBy offset = decide (e ≤ offset) := by
  simp [reachedBy, last]

namespace Worker.Phase

variable {ρ : Type} {b : Bound} {sent more : List Message} {old new : Phase ρ}

/-- A turn of a worker with a bound, and the messages that it sends. -/
inductive Turn (b : Bound) : Phase ρ → List Message → Phase ρ → Prop where
  | receives {reader reader' since m} : Turn b (.receiving reader since) [] (.sending reader' m)
  | sends {reader m since} (within : b.reachedBy m.offset = false) :
      Turn b (.sending reader m) [m] (.receiving reader since)
  | reaches {reader m} (last : b.reachedBy m.offset = true) :
      Turn b (.sending reader m) [m] (.stopped .boundaryReached)
  | stops {old reason} (live : Worker.isLive ⟨b, old⟩ = true) (other : reason ≠ .boundaryReached) :
      Turn b old [] (.stopped reason)
  | crashes {reader since} : Turn b (.receiving reader since) [] (.crashed false)
  | joins : Turn b (.crashed false) [] (.crashed true)

/-- Of all that a worker sends only the message after which it stops reaches the end of its bound. -/
def Within (b : Bound) (sent : List Message) : Phase ρ → Prop
  | .stopped .boundaryReached => ∃ before m, sent = before ++ [m] ∧
      (∀ x ∈ before, b.reachedBy x.offset = false) ∧ b.reachedBy m.offset = true
  | _ => ∀ m ∈ sent, b.reachedBy m.offset = false

theorem within_iff (other : new ≠ .stopped .boundaryReached) :
    new.Within b sent ↔ ∀ m ∈ sent, b.reachedBy m.offset = false := by
  cases new with
  | stopped reason =>
    cases reason with
    | boundaryReached => exact absurd rfl other
    | _ => exact Iff.rfl
  | _ => exact Iff.rfl

theorem Turn.within (turn : Turn b old more new) (h : old.Within b sent) :
    new.Within b (sent ++ more) := by
  cases turn with
  | receives | crashes | joins =>
    rw [List.append_nil]
    exact h
  | @sends reader m since within =>
    intro x member
    rcases List.mem_append.mp member with earlier | last
    · exact h x earlier
    · obtain rfl := List.mem_singleton.mp last
      exact within
  | @reaches reader m last => exact ⟨sent, m, rfl, h, last⟩
  | stops live other =>
    rw [List.append_nil]
    have going : old ≠ .stopped .boundaryReached := by
      rintro rfl
      cases live
    exact (within_iff (by simpa using other)).mpr ((within_iff going).mp h)

/-- Only the last message that was sent can reach the end. -/
theorem Within.front (h : new.Within b sent) : ∀ m ∈ sent.dropLast, b.reachedBy m.offset = false := by
  by_cases stopped : new = .stopped .boundaryReached
  · rw [stopped] at h
    obtain ⟨before, m, rfl, front, last⟩ := h
    rwa [List.dropLast_concat]
  · intro m early
    exact (within_iff stopped).mp h m (List.mem_of_mem_dropLast early)

/-- Something past the end is sent just when a worker stops there without having met the end. -/
theorem Within.passes_iff {delivered : List Message} {e : Int} (h : new.Within b sent)
    (balanced : new.Balanced sent delivered) (last : b.last = some e) :
    (∃ m ∈ sent, e < m.offset) ↔
      new = .stopped .boundaryReached ∧ ∀ m ∈ delivered, m.offset ≠ e := by
  by_cases stopped : new = .stopped .boundaryReached
  · rw [stopped] at h balanced
    obtain ⟨before, m, rfl, front, reached⟩ := h
    obtain rfl : before ++ [m] = delivered := balanced
    simp only [Bound.reachedBy_eq last, decide_eq_false_iff_not, Int.not_le,
      decide_eq_true_eq] at front reached
    simp only [List.forall_mem_append, List.forall_mem_singleton, stopped, true_and]
    constructor
    · rintro ⟨x, member, past⟩
      refine ⟨fun y early => Int.ne_of_lt (front y early), ?_⟩
      rcases List.mem_append.mp member with early | at_end
      · have below := front x early
        omega
      · obtain rfl := List.mem_singleton.mp at_end
        exact Int.ne_of_gt past
    · rintro ⟨_, missing⟩
      exact ⟨m, by simp, by omega⟩
  · refine iff_of_false ?_ fun both => stopped both.1
    rintro ⟨m, member, past⟩
    have below := (within_iff stopped).mp h m member
    simp only [Bound.reachedBy_eq last, decide_eq_false_iff_not, Int.not_le] at below
    omega

end Worker.Phase

namespace Supervision

variable {σ ρ : Type} {s t : Supervision σ ρ} {es fs : List Event} {bounds : List Bound}

/-- What a step does to the workers. -/
inductive Shift (s t : Supervision σ ρ) (fs : List Event) : Prop where
  | stays (workers : t.workers = s.workers) (silent : forwarded fs = [])
      (fewer : t.stage.bounds ⊆ s.stage.bounds)
  | starts {b reader rest} (stage : s.stage = .starting ((b, reader) :: rest))
      (after : t.stage = .starting rest)
      (workers : t.workers = s.workers ++ [⟨b, .receiving reader s.clock⟩])
      (silent : forwarded fs = [])
  | turns {i b old sent new} (turns : Turns s t i b old new) (turn : old.Turn b sent new)
      (own : forwarded fs = sent.map fun m => (b.partition, m))

/-- All workers have bounds of some list, and what they have sent is within these. -/
structure Bounded (bounds : List Bound) (s : Supervision σ ρ) (events : List Event) : Prop where
  known : s.stage.bounds ⊆ bounds
  workers : ∀ w ∈ s.workers, w.bound ∈ bounds ∧
    w.phase.Within w.bound (ofPartition w.bound.partition (forwarded events))

/-- A turn of one worker, which sends only messages of its own partition. -/
theorem Bounded.turn (h : s.Bounded bounds es) (ledger : s.Ledger es) {i : Nat} {b : Bound}
    {old new : Worker.Phase ρ} {sent : List Message} (turns : Turns s t i b old new)
    (turn : old.Turn b sent new) (own : forwarded fs = sent.map fun m => (b.partition, m)) :
    t.Bounded bounds (es ++ fs) := by
  constructor
  case known =>
    rw [turns.stage]
    exact h.known
  case workers =>
    intro w member
    rw [turns.workers] at member
    rw [forwarded_append, ofPartition_append, own]
    obtain ⟨j, at_j⟩ := List.mem_iff_getElem?.mp member
    by_cases here : i = j
    · subst here
      rw [List.getElem?_set_self (List.getElem?_eq_some_iff.mp turns.worker).1] at at_j
      cases at_j
      obtain ⟨known, within⟩ := h.workers _ (List.mem_of_getElem? turns.worker)
      rw [ofPartition_map_self]
      exact ⟨known, turn.within within⟩
    · rw [List.getElem?_set_ne here] at at_j
      rw [ofPartition_map_other (ledger.apart turns.worker at_j here), List.append_nil]
      exact h.workers w (List.mem_of_getElem? at_j)

variable [Client σ ρ] {a : Action σ}

theorem Step.shift (step : Step s a fs t) : Shift s t fs := by
  cases step with
  | opened stage next =>
    refine .stays rfl rfl ?_
    rw [stage]
    exact (bounds_opened next).subset
  | openFailed stage | openCrashed stage =>
    refine .stays rfl (by simp [recordEvents]) ?_
    rw [stage]
    exact bounds_dropped.subset
  | started stage => exact .starts stage rfl rfl rfl
  | allStarted stage => exact .stays rfl rfl (List.nil_subset _)
  | delivered worker => exact .turns ⟨worker, rfl, rfl, rfl, rfl, rfl⟩ .receives rfl
  | exhausted worker | idled worker | funnelClosed worker | stopsReceiving worker
  | stopsSending worker =>
    exact .turns ⟨worker, rfl, rfl, rfl, rfl, rfl⟩ (.stops rfl (by simp)) rfl
  | readerFailed worker =>
    exact .turns ⟨worker, rfl, rfl, rfl, rfl, rfl⟩ (.stops rfl (by simp)) (by simp [recordEvents])
  | workerCrashed worker => exact .turns ⟨worker, rfl, rfl, rfl, rfl, rfl⟩ .crashes rfl
  | sent worker going receiving room within =>
    exact .turns ⟨worker, rfl, rfl, rfl, rfl, rfl⟩ (.sends within) rfl
  | boundaryReached worker going receiving room last =>
    exact .turns ⟨worker, rfl, rfl, rfl, rfl, rfl⟩ (.reaches last) rfl
  | joined worker =>
    exact .turns ⟨worker, rfl, rfl, rfl, rfl, rfl⟩ .joins (by simp [recordEvents])
  | taken | deafened | shutDown | changed | advanced => exact .stays rfl rfl (List.Subset.refl _)

theorem Bounded.step (h : s.Bounded bounds es) (ledger : s.Ledger es) (step : Step s a fs t) :
    t.Bounded bounds (es ++ fs) := by
  cases step.shift with
  | stays workers silent fewer =>
    refine ⟨List.Subset.trans fewer h.known, ?_⟩
    rw [workers, forwarded_append, silent, List.append_nil]
    exact h.workers
  | @starts b reader rest stage after workers silent =>
    have known := h.known
    simp only [stage, Stage.bounds, List.map_cons, List.cons_subset] at known
    constructor
    case known => simpa only [after, Stage.bounds] using known.2
    case workers =>
      rw [workers, forwarded_append, silent, List.append_nil]
      intro w member
      rcases List.mem_append.mp member with earlier | new
      · exact h.workers w earlier
      · obtain rfl := List.mem_singleton.mp new
        refine ⟨known.1, ?_⟩
        rw [(ledger.fresh stage).1]
        exact fun m sent => absurd sent List.not_mem_nil
  | turns turns turn own => exact h.turn ledger turns turn own

theorem bounded_of_reaches {client : σ} {topic : String} {idle : Option Nat}
    {actions : List (Action σ)} (apart : (bounds.map (·.partition)).Nodup)
    (run : Reaches Moves (ofBounds client topic idle bounds) actions es s) :
    s.Ledger es ∧ s.Bounded bounds es := by
  induction run with
  | refl =>
    refine ⟨ledger_ofBounds apart client topic idle, ?_, by simp [ofBounds]⟩
    intro c member
    have wanted : c ∈ bounds.filter fun b => !b.isEmpty := by
      simpa [ofBounds, (bounds_after _ _).mem_iff] using member
    exact (List.mem_filter.mp wanted).1
  | next before move ih =>
    obtain ⟨ledger, bounded⟩ := ih
    have step := step_cases move
    exact ⟨ledger.step step, bounded.step ledger step⟩

/-- Of what a worker sends only the last message can reach the end of its bound. It passes the end
exactly if the worker stopped there although the offset at the end was never delivered. -/
theorem only_last_passes_end {client : σ} {topic : String} {idle : Option Nat}
    {actions : List (Action σ)} {events : List Event} {b : Bound} {e : Int}
    (apart : (bounds.map (·.partition)).Nodup)
    (run : Reaches Moves (ofBounds client topic idle bounds) actions events s)
    (member : b ∈ bounds) (last : b.last = some e)
    (above : ∀ m ∈ ofPartition b.partition (received events), b.start ≤ m.offset) :
    (∀ m ∈ ofPartition b.partition (forwarded events), b.start ≤ m.offset) ∧
    (∀ m ∈ (ofPartition b.partition (forwarded events)).dropLast, m.offset < e) ∧
    ((∃ m ∈ ofPartition b.partition (forwarded events), e < m.offset) ↔
      (b.partition, .boundaryReached) ∈ s.stops ∧
        ∀ m ∈ ofPartition b.partition (received events), m.offset ≠ e) := by
  obtain ⟨ledger, bounded⟩ := bounded_of_reaches apart run
  refine ⟨fun m sent => above m ((ledger.forwarded_front b.partition).subset sent), ?_⟩
  by_cases works : ∃ w ∈ s.workers, w.bound.partition = b.partition
  · obtain ⟨w, works, same⟩ := works
    obtain ⟨known, within⟩ := bounded.workers w works
    obtain rfl : w.bound = b := List.inj_on_of_nodup_map apart known member same
    have stopped : (w.bound.partition, .boundaryReached) ∈ s.stops ↔
        w.phase = .stopped .boundaryReached := by
      rw [mem_stops]
      constructor
      · rintro ⟨v, inside, same, stopped⟩
        rwa [← List.inj_on_of_nodup_map ledger.workers_distinct inside works same]
      · exact fun stopped => ⟨w, works, rfl, stopped⟩
    rw [stopped]
    refine ⟨?_, within.passes_iff (ledger.balanced w works) last⟩
    intro m early
    simpa [Bound.reachedBy_eq last] using within.front m early
  · have unsent := (ledger.silent b.partition fun known => works (by simpa using known)).1
    have unstopped : (b.partition, .boundaryReached) ∉ s.stops := by
      rw [mem_stops]
      rintro ⟨w, inside, same, _⟩
      exact works ⟨w, inside, same⟩
    rw [unsent]
    exact ⟨by simp, iff_of_false (by simp) fun both => unstopped both.1⟩

/-- A partition without messages between two offsets, and what is to be read ends in between. -/
def gapped : Script :=
  { parts := [{ id := 0, steps := [.deliver (.message { partition := 0, offset := 0 }),
      .deliver (.message { partition := 0, offset := 5 })] }] }

def gappedSteps : List (Action Script) :=
  [.openReader 0, .start, .start, .work 0, .work 0, .take, .work 0, .work 0]

/-- Both messages are sent, and the worker stops after the second one. -/
theorem gapped_run :
    ∃ (s : Supervision Script (List Script.Step)) (events : List Event),
      Reaches Moves (ofBounds gapped "t" (some 1000) [⟨0, 0, some 2⟩]) gappedSteps events s ∧
      s.stops = [(0, .boundaryReached)] ∧
      (ofPartition 0 (received events)).map (·.offset) = [0, 5] ∧
      (ofPartition 0 (forwarded events)).map (·.offset) = [0, 5] := by
  have replayed : (replayWith step (ofBounds gapped "t" (some 1000) [⟨0, 0, some 2⟩])
      gappedSteps).any (fun (s, events) => s.stops = [(0, .boundaryReached)] &&
        (ofPartition 0 (received events)).map (·.offset) = [0, 5] &&
          (ofPartition 0 (forwarded events)).map (·.offset) = [0, 5]) = true := by
    cbv
  obtain ⟨s, events, run, seen⟩ := exists_of_replayWith replayed
  simp only [Bool.and_eq_true, decide_eq_true_eq] at seen
  exact ⟨s, events, run, seen.1.1, seen.1.2, seen.2⟩

/-- It had not met the end, so the last message that it sent lies past it. -/
theorem gapped_misses_end :
    ∃ (s : Supervision Script (List Script.Step)) (events : List Event),
      Reaches Moves (ofBounds gapped "t" (some 1000) [⟨0, 0, some 2⟩]) gappedSteps events s ∧
      (∀ m ∈ ofPartition 0 (received events), m.offset ≠ 2) ∧
      (∀ m ∈ (ofPartition 0 (forwarded events)).dropLast, m.offset < 2) ∧
      ∃ m ∈ ofPartition 0 (forwarded events), 2 < m.offset := by
  obtain ⟨s, events, run, stops, delivered, _⟩ := gapped_run
  have above : ∀ m ∈ ofPartition 0 (received events), 0 ≤ m.offset := by
    rw [← List.forall_mem_map (f := Message.offset) (P := fun offset => 0 ≤ offset), delivered]
    decide
  have missing : ∀ m ∈ ofPartition 0 (received events), m.offset ≠ 2 := by
    rw [← List.forall_mem_map (f := Message.offset) (P := fun offset => offset ≠ 2), delivered]
    decide
  obtain ⟨_, front, passes⟩ := only_last_passes_end (b := ⟨0, 0, some 2⟩) (by decide) run
    List.mem_cons_self rfl above
  exact ⟨s, events, run, missing, front, passes.mpr ⟨by simp [stops], missing⟩⟩

/-- What is delivered ascends from the start of the bound, and what is sent passes its end. -/
theorem gapped_passes_end :
    ∃ (s : Supervision Script (List Script.Step)) (events : List Event),
      Reaches Moves (ofBounds gapped "t" (some 1000) [⟨0, 0, some 2⟩]) gappedSteps events s ∧
      (ofPartition 0 (received events)).Pairwise (·.offset < ·.offset) ∧
      (∀ m ∈ ofPartition 0 (received events), 0 ≤ m.offset) ∧
      ¬ ∀ m ∈ ofPartition 0 (forwarded events), 0 ≤ m.offset ∧ m.offset ≤ 2 := by
  obtain ⟨s, events, run, _, delivered, sent⟩ := gapped_run
  refine ⟨s, events, run, ?_, ?_, ?_⟩
  · rw [← List.pairwise_map (f := Message.offset) (R := (· < ·)), delivered]
    decide
  · rw [← List.forall_mem_map (f := Message.offset) (P := fun offset => 0 ≤ offset), delivered]
    decide
  · rw [← List.forall_mem_map (f := Message.offset) (P := fun offset => 0 ≤ offset ∧ offset ≤ 2), sent]
    decide

end Supervision
end TopicReader
