import TopicReader.Proofs.Engine.Boundary
import TopicReader.Proofs.Isolation.Calm

/-! How long a worker with an end works. Nothing counts its turns: it goes on only after a message
below its end, and where offsets ascend there are only so many of those. Each of its requests is cut
off by the idle window, so it does not wait forever either. -/
namespace TopicReader

namespace Event

/-- The partition on which a request for a message is over: there is a message, or the end or the
failure of the reader, or the reader was silent for too long. -/
@[simp] def receipt? : Event → Option Int
  | .received p _ | .crashed p => some p
  | .stopped p .exhausted | .stopped p .readerFailed | .stopped p .idle => some p
  | _ => none

end Event

/-- The partitions on which requests for messages are over, one after the other. -/
def receipts (events : List Event) : List Int := events.filterMap Event.receipt?

section
variable {e : Event} {es fs : List Event}

@[simp] theorem receipts_nil : receipts [] = [] := rfl

@[simp] theorem receipts_cons : receipts (e :: es) = e.receipt?.toList ++ receipts es :=
  filterMap_cons_toList

@[simp] theorem receipts_append : receipts (es ++ fs) = receipts es ++ receipts fs :=
  List.filterMap_append

@[simp] theorem receipts_recordEvents (c : Coordination) (e : RunError) :
    receipts (c.recordEvents e) = [] := by
  by_cases free : c.isFree <;>
    simp [Coordination.recordEvents, Coordination.recordWarnings, free]

end

/-- There are no more whole numbers in a list that ascends than in its range. -/
theorem length_le_of_ascends {xs : List Int} {first past : Int} (ascends : xs.Pairwise (· < ·))
    (within : ∀ x ∈ xs, first ≤ x ∧ x < past) (ordered : first ≤ past) :
    (xs.length : Int) ≤ past - first := by
  induction xs generalizing first with
  | nil => simpa using ordered
  | cons x rest ih =>
    obtain ⟨later, ascends⟩ := List.pairwise_cons.mp ascends
    obtain ⟨low, high⟩ := within x List.mem_cons_self
    have fewer : (rest.length : Int) ≤ past - (x + 1) := by
      apply ih ascends
      · intro y member
        exact ⟨later y member, (within y (List.mem_cons_of_mem x member)).2⟩
      · exact high
    rw [List.length_cons]
    omega

namespace Worker.Phase

variable {ρ : Type} {b : Bound} {old new : Phase ρ} {given more : List Message}
  {turns taken closed ended : Nat}

/-- A turn of a worker with a bound: the messages that it is given, how many of its requests are over
by it, and whether it is a step of the worker itself, which the notice of its crash is not. -/
inductive Passes (b : Bound) : Phase ρ → List Message → Nat → Nat → Phase ρ → Prop where
  | receives {reader reader' since m} :
      Passes b (.receiving reader since) [m] 1 1 (.sending reader' m)
  | sends {reader m since} (within : b.reachedBy m.offset = false) :
      Passes b (.sending reader m) [] 0 1 (.receiving reader since)
  | leaves {reader since n new} (few : n ≤ 1) (done : Worker.isLive ⟨b, new⟩ = false) :
      Passes b (.receiving reader since) [] n 1 new
  | finishes {reader m new} (done : Worker.isLive ⟨b, new⟩ = false) :
      Passes b (.sending reader m) [] 0 1 new
  | noticed : Passes b (.crashed false) [] 0 0 (.crashed true)

/-- The messages that a worker has been given, the turns it has taken and the requests that are over.
Only the last message can have reached the end of its bound. -/
def Tallied (b : Bound) (given : List Message) (turns closed : Nat) : Phase ρ → Prop
  | .receiving _ _ => (∀ m ∈ given, b.reachedBy m.offset = false) ∧
      turns = 2 * given.length ∧ closed = given.length
  | .sending _ m => (∃ before, given = before ++ [m] ∧ ∀ x ∈ before, b.reachedBy x.offset = false) ∧
      turns + 1 = 2 * given.length ∧ closed = given.length
  | _ => (∀ m ∈ given.dropLast, b.reachedBy m.offset = false) ∧
      turns ≤ 2 * given.length + 1 ∧ closed ≤ given.length + 1

theorem tallied_of_done (done : Worker.isLive ⟨b, new⟩ = false) : new.Tallied b given turns closed ↔
    (∀ m ∈ given.dropLast, b.reachedBy m.offset = false) ∧
      turns ≤ 2 * given.length + 1 ∧ closed ≤ given.length + 1 := by
  cases new with
  | receiving | sending => cases done
  | stopped | crashed => exact Iff.rfl

theorem Passes.tallied (passes : old.Passes b more ended taken new)
    (h : old.Tallied b given turns closed) :
    new.Tallied b (given ++ more) (turns + taken) (closed + ended) := by
  cases passes with
  | @receives reader reader' since m =>
    obtain ⟨below, counted, answered⟩ := h
    refine ⟨⟨given, rfl, below⟩, ?_, ?_⟩
    · rw [List.length_append, List.length_singleton]
      omega
    · rw [List.length_append, List.length_singleton, answered]
  | @sends reader m since within =>
    obtain ⟨⟨before, rfl, below⟩, counted, answered⟩ := h
    rw [List.append_nil]
    refine ⟨?_, counted, answered⟩
    rw [List.forall_mem_append, List.forall_mem_singleton]
    exact ⟨below, within⟩
  | leaves few done =>
    obtain ⟨below, counted, answered⟩ := h
    rw [List.append_nil, tallied_of_done done]
    exact ⟨fun m early => below m (List.mem_of_mem_dropLast early), by omega, by omega⟩
  | finishes done =>
    obtain ⟨⟨before, rfl, below⟩, counted, answered⟩ := h
    rw [List.append_nil, tallied_of_done done, List.dropLast_concat]
    exact ⟨below, by omega, by omega⟩
  | noticed =>
    rw [List.append_nil]
    exact h

/-- Whatever a worker does, it has been given no message after one that reached its end. -/
theorem Tallied.below (h : new.Tallied b given turns closed) :
    (∀ m ∈ given.dropLast, b.reachedBy m.offset = false) ∧
      turns ≤ 2 * given.length + 1 ∧ closed ≤ given.length + 1 := by
  cases new with
  | receiving reader since =>
    obtain ⟨below, counted, answered⟩ := h
    exact ⟨fun m early => below m (List.mem_of_mem_dropLast early), by omega, by omega⟩
  | sending reader m =>
    obtain ⟨⟨before, rfl, below⟩, counted, answered⟩ := h
    rw [List.dropLast_concat]
    exact ⟨below, by omega, by omega⟩
  | stopped | crashed => exact h

end Worker.Phase

namespace Supervision

variable {σ ρ : Type} {s t : Supervision σ ρ} {es fs : List Event} {a : Action σ}
  {as : List (Action σ)} {bounds : List Bound}

/-- Whether an action is a turn of the worker in one place. -/
def Action.isTurn (i : Nat) : Action σ → Bool
  | .work j => i = j
  | _ => false

/-- What a step does to the tallies of the workers. -/
inductive Pace (s t : Supervision σ ρ) (a : Action σ) (fs : List Event) : Prop where
  | stays (workers : t.workers = s.workers) (outside : ∀ i, a.isTurn i = false)
      (unheard : received fs = []) (silent : receipts fs = [])
  | starts {b reader rest} (stage : s.stage = .starting ((b, reader) :: rest))
      (workers : t.workers = s.workers ++ [⟨b, .receiving reader s.clock⟩])
      (outside : ∀ i, a.isTurn i = false) (nothing : fs = [])
  | turns {i b old more ended taken new} (turns : Turns s t i b old new)
      (passes : old.Passes b more ended taken new)
      (heard : received fs = more.map fun m => (b.partition, m))
      (answered : receipts fs = List.replicate ended b.partition)
      (turn : ∀ j, (if a.isTurn j then 1 else 0) = if i = j then taken else 0)

/-- The tallies of all workers are right, and a worker that has not been started has none. -/
structure Paced (s : Supervision σ ρ) (as : List (Action σ)) (es : List Event) : Prop where
  workers : ∀ (i : Nat) (w : Worker ρ), s.workers[i]? = some w →
    w.phase.Tallied w.bound (ofPartition w.bound.partition (received es))
      (as.countP (Action.isTurn i)) ((receipts es).count w.bound.partition)
  unstarted : ∀ i, s.workers[i]? = none → as.countP (Action.isTurn i) = 0
  silent : ∀ p ∉ s.workers.map (·.bound.partition), (receipts es).count p = 0

namespace Paced

theorem stays (h : s.Paced as es) (workers : t.workers = s.workers)
    (outside : ∀ i, a.isTurn i = false) (unheard : received fs = [])
    (silent : receipts fs = []) : t.Paced (as ++ [a]) (es ++ fs) := by
  have counted (i : Nat) : (as ++ [a]).countP (Action.isTurn i) = as.countP (Action.isTurn i) := by
    simp [List.countP_append, outside i]
  constructor
  case workers =>
    intro i w found
    rw [counted, received_append, unheard, receipts_append, silent, List.append_nil,
      List.append_nil]
    exact h.workers i w (workers ▸ found)
  case unstarted =>
    intro i missing
    rw [counted]
    exact h.unstarted i (workers ▸ missing)
  case silent =>
    intro p unknown
    rw [receipts_append, silent, List.append_nil]
    exact h.silent p (workers ▸ unknown)

/-- A worker begins with nothing on its tally. -/
theorem starts (h : s.Paced as es) (ledger : s.Ledger es) {b : Bound} {reader : ρ}
    {rest : List (Bound × ρ)} (stage : s.stage = .starting ((b, reader) :: rest))
    (workers : t.workers = s.workers ++ [⟨b, .receiving reader s.clock⟩])
    (outside : ∀ i, a.isTurn i = false) : t.Paced (as ++ [a]) es := by
  have counted (i : Nat) : (as ++ [a]).countP (Action.isTurn i) = as.countP (Action.isTurn i) := by
    simp [List.countP_append, outside i]
  have unknown : b.partition ∉ s.workers.map (·.bound.partition) := by
    have distinct := ledger.distinct
    simp only [partitions, stage, Stage.bounds, List.map_cons, List.cons_append, List.nodup_cons,
      List.mem_append, not_or] at distinct
    exact distinct.1.2
  constructor
  case workers =>
    intro i w found
    rw [workers] at found
    rw [counted]
    by_cases old : i < s.workers.length
    · rw [List.getElem?_append_left old] at found
      exact h.workers i w found
    · have missing : s.workers[i]? = none := List.getElem?_eq_none (by omega)
      rw [List.getElem?_append_right (by omega)] at found
      obtain rfl := List.mem_singleton.mp (List.mem_of_getElem? found)
      rw [h.unstarted i missing, (ledger.fresh stage).2, h.silent _ unknown]
      exact ⟨by simp, rfl, rfl⟩
  case unstarted =>
    intro i missing
    rw [counted]
    apply h.unstarted
    rw [workers, List.getElem?_eq_none_iff, List.length_append] at missing
    exact List.getElem?_eq_none (by omega)
  case silent =>
    intro p absent
    apply h.silent
    intro known
    exact absent (by rw [workers, List.map_append]; exact List.mem_append_left _ known)

/-- A turn of one worker leaves the tallies of the others alone. -/
theorem turns (h : s.Paced as es) (ledger : s.Ledger es) {i : Nat} {b : Bound}
    {old new : Worker.Phase ρ} {more : List Message} {ended taken : Nat}
    (turns : Turns s t i b old new) (passes : old.Passes b more ended taken new)
    (heard : received fs = more.map fun m => (b.partition, m))
    (answered : receipts fs = List.replicate ended b.partition)
    (turn : ∀ j, (if a.isTurn j then 1 else 0) = if i = j then taken else 0) :
    t.Paced (as ++ [a]) (es ++ fs) := by
  have counted (j : Nat) : (as ++ [a]).countP (Action.isTurn j) =
      as.countP (Action.isTurn j) + if i = j then taken else 0 := by
    rw [List.countP_append, List.countP_singleton, turn j]
  have bound := (List.getElem?_eq_some_iff.mp turns.worker).1
  have same : t.workers.map (·.bound.partition) = s.workers.map (·.bound.partition) := by
    rw [turns.workers, List.map_set]
    exact set_of_getElem? (by simp [turns.worker])
  constructor
  case workers =>
    intro j w found
    rw [turns.workers] at found
    rw [received_append, ofPartition_append, heard, counted, receipts_append, answered,
      List.count_append, List.count_replicate]
    by_cases here : i = j
    · subst here
      rw [List.getElem?_set_self bound] at found
      cases found
      rw [ofPartition_map_self, if_pos rfl, if_pos (by simp)]
      exact passes.tallied (h.workers i _ turns.worker)
    · rw [List.getElem?_set_ne here] at found
      have foreign : b.partition ≠ w.bound.partition := ledger.apart turns.worker found here
      rw [ofPartition_map_other foreign, List.append_nil, if_neg here, if_neg (by simpa using foreign)]
      exact h.workers j w found
  case unstarted =>
    intro j missing
    rw [turns.workers, List.getElem?_eq_none_iff, List.length_set] at missing
    rw [counted, if_neg (by omega), h.unstarted j (List.getElem?_eq_none missing)]
  case silent =>
    intro p unknown
    rw [same] at unknown
    have foreign : b.partition ≠ p := by
      rintro rfl
      exact unknown (List.mem_map_of_mem (List.mem_of_getElem? turns.worker))
    rw [receipts_append, answered, List.count_append, List.count_replicate, h.silent p unknown,
      if_neg (by simpa using foreign)]

end Paced

variable [Client σ ρ]

theorem Step.pace (step : Step s a fs t) : Pace s t a fs := by
  have own (i j : Nat) : (if Action.isTurn j (.work i : Action σ) then 1 else 0) =
      if i = j then 1 else 0 := by
    simp [Action.isTurn, eq_comm]
  cases step with
  | opened | allStarted | taken | deafened | shutDown | changed | advanced =>
    exact .stays rfl (fun _ => rfl) rfl rfl
  | openFailed | openCrashed =>
    exact .stays rfl (fun _ => rfl) (by simp [recordEvents]) (by simp [recordEvents])
  | started stage => exact .starts stage rfl (fun _ => rfl) rfl
  | delivered worker =>
    exact .turns ⟨worker, rfl, rfl, rfl, rfl, rfl⟩ .receives rfl rfl (own _)
  | exhausted worker | idled worker | workerCrashed worker =>
    exact .turns ⟨worker, rfl, rfl, rfl, rfl, rfl⟩ (.leaves (Nat.le_refl 1) rfl) rfl rfl (own _)
  | readerFailed worker =>
    exact .turns ⟨worker, rfl, rfl, rfl, rfl, rfl⟩ (.leaves (Nat.le_refl 1) rfl)
      (by simp [recordEvents]) (by simp [recordEvents]) (own _)
  | stopsReceiving worker =>
    exact .turns ⟨worker, rfl, rfl, rfl, rfl, rfl⟩ (.leaves (Nat.zero_le 1) rfl) rfl rfl (own _)
  | sent worker going receiving room within =>
    exact .turns ⟨worker, rfl, rfl, rfl, rfl, rfl⟩ (.sends within) rfl rfl (own _)
  | boundaryReached worker | funnelClosed worker | stopsSending worker =>
    exact .turns ⟨worker, rfl, rfl, rfl, rfl, rfl⟩ (.finishes rfl) rfl rfl (own _)
  | joined worker =>
    refine .turns ⟨worker, rfl, rfl, rfl, rfl, rfl⟩ .noticed (by simp [recordEvents])
      (by simp [recordEvents]) fun j => ?_
    rw [ite_self]
    rfl

theorem Paced.step (h : s.Paced as es) (ledger : s.Ledger es) (step : Step s a fs t) :
    t.Paced (as ++ [a]) (es ++ fs) := by
  cases step.pace with
  | stays workers outside unheard silent => exact h.stays workers outside unheard silent
  | starts stage workers outside nothing =>
    rw [nothing, List.append_nil]
    exact h.starts ledger stage workers outside
  | turns turns passes heard answered turn => exact h.turns ledger turns passes heard answered turn

/-- No worker has waited longer than the idle window. -/
structure Patient (idle : Option Nat) (s : Supervision σ ρ) : Prop where
  idle_eq : s.idle = idle
  waits : ∀ w ∈ s.workers, ∀ reader since window, w.phase = .receiving reader since →
    idle = some window → s.clock ≤ since + window

namespace Patient

variable {idle : Option Nat}

omit [Client σ ρ] in
theorem turn (h : s.Patient idle) {i : Nat} {b : Bound} {old new : Worker.Phase ρ}
    (turns : Turns s t i b old new)
    (prompt : ∀ reader since, new = .receiving reader since → s.clock ≤ since) :
    t.Patient idle := by
  constructor
  case idle_eq => exact turns.idle.trans h.idle_eq
  case waits =>
    intro w member reader since window phase set
    rw [turns.workers] at member
    rw [turns.clock]
    rcases List.mem_or_eq_of_mem_set member with other | rfl
    · exact h.waits w other reader since window phase set
    · exact Nat.le_trans (prompt reader since phase) (Nat.le_add_right since window)

theorem step (h : s.Patient idle) (step : Step s a fs t) : t.Patient idle := by
  cases step with
  | started stage =>
    refine ⟨h.idle_eq, fun w member reader since window phase set => ?_⟩
    rcases List.mem_append.mp member with earlier | new
    · exact h.waits w earlier reader since window phase set
    · obtain rfl := List.mem_singleton.mp new
      cases phase
      exact Nat.le_add_right _ window
  | delivered worker | exhausted worker | readerFailed worker | workerCrashed worker | idled worker
  | boundaryReached worker | funnelClosed worker | stopsReceiving worker | stopsSending worker
  | joined worker => exact h.turn ⟨worker, rfl, rfl, rfl, rfl, rfl⟩ (by simp)
  | sent worker =>
    refine h.turn ⟨worker, rfl, rfl, rfl, rfl, rfl⟩ fun reader since same => ?_
    cases same
    exact Nat.le_refl _
  | advanced later due =>
    refine ⟨h.idle_eq, fun w member reader since window phase set => ?_⟩
    obtain ⟨last, waits, early⟩ := due_le_window phase (h.idle_eq.trans set)
    exact Nat.le_trans (due last (List.mem_filterMap.mpr ⟨w, member, waits⟩)) early
  | _ => exact ⟨h.idle_eq, h.waits⟩

end Patient

theorem paced_of_reaches {client : σ} {topic : String} {idle : Option Nat}
    (apart : (bounds.map (·.partition)).Nodup)
    (run : Reaches Moves (ofBounds client topic idle bounds) as es s) :
    s.Ledger es ∧ s.Paced as es ∧ s.Patient idle := by
  induction run with
  | refl =>
    exact ⟨ledger_ofBounds apart client topic idle,
      ⟨by simp [ofBounds], fun _ _ => rfl, fun _ _ => rfl⟩, rfl, by simp [ofBounds]⟩
  | next before move ih =>
    obtain ⟨ledger, paced, patient⟩ := ih
    have step := step_cases move
    exact ⟨ledger.step step, paced.step ledger step, patient.step step⟩

/-- A worker that can take no turn waits for room in the funnel or for its reader, and for the
reader only as long as the idle window has not passed. -/
theorem waits_of_no_turn {i : Nat} {w : Worker ρ} (worker : s.workers[i]? = some w)
    (live : w.isLive = true) (stuck : s.step (.work i) = none) :
    (∃ reader m, w.phase = .sending reader m ∧ s.funnel.hasRoom = false) ∨
      ∃ reader since, w.phase = .receiving reader since ∧
        ∀ window, s.idle = some window → s.clock < since + window := by
  obtain ⟨b, phase⟩ := w
  cases phase with
  | receiving reader since =>
    refine .inr ⟨reader, since, rfl, fun window set => ?_⟩
    have waits : s.receive i b reader since = none := by
      simpa [Supervision.step, work, worker] using stuck
    unfold receive at waits
    split at waits
    · contradiction
    · split at waits
      · split at waits <;> contradiction
      · split at waits
        · contradiction
        · rename_i early
          simpa [set] using early
  | sending reader m =>
    refine .inl ⟨reader, m, rfl, ?_⟩
    have waits : s.send i b reader m = none := by
      simpa [Supervision.step, work, worker] using stuck
    unfold send at waits
    split at waits
    · contradiction
    · split at waits
      · contradiction
      · split at waits
        · simp only at waits
          split at waits <;> contradiction
        · rename_i full
          simpa using full
  | stopped | crashed => cases live

/-- Where offsets ascend from the start of a bound, its worker is given no more messages than there
are offsets up to the end. -/
theorem length_given_le {b : Bound} {e : Int} {given : List Message} (last : b.last = some e)
    (proper : b.start ≤ e) (above : ∀ m ∈ given, b.start ≤ m.offset)
    (ascends : given.Pairwise (·.offset < ·.offset))
    (below : ∀ m ∈ given.dropLast, b.reachedBy m.offset = false) :
    (given.length : Int) ≤ e - b.start + 1 := by
  have front : ((given.dropLast.map Message.offset).length : Int) ≤ e - b.start := by
    apply length_le_of_ascends
    · exact List.pairwise_map.mpr (ascends.sublist (List.dropLast_sublist given))
    · intro offset member
      obtain ⟨m, early, rfl⟩ := List.mem_map.mp member
      have within := below m early
      rw [Bound.reachedBy_eq last] at within
      exact ⟨above m (List.mem_of_mem_dropLast early), by simpa using within⟩
    · exact proper
  rw [List.length_map, List.length_dropLast] at front
  omega

/-- A worker with an end sends no more messages than its bound has offsets and takes a bounded number
of turns. Until it stops it has one to take, or waits for room or for its reader. -/
theorem bounded_work {client : σ} {topic : String} {idle : Option Nat}
    {actions : List (Action σ)} {events : List Event} {b : Bound} {e : Int}
    (apart : (bounds.map (·.partition)).Nodup)
    (run : Reaches Moves (ofBounds client topic idle bounds) actions events s)
    (member : b ∈ bounds) (last : b.last = some e) (proper : b.start ≤ e)
    (above : ∀ m ∈ ofPartition b.partition (received events), b.start ≤ m.offset)
    (ascends : (ofPartition b.partition (received events)).Pairwise (·.offset < ·.offset)) :
    ((ofPartition b.partition (forwarded events)).length : Int) ≤ e - b.start + 1 ∧
    ((receipts events).count b.partition : Int) ≤ e - b.start + 1 + 1 ∧
    ∀ (i : Nat) (w : Worker ρ), s.workers[i]? = some w → w.bound = b →
      (actions.countP (Action.isTurn i) : Int) ≤ 2 * (e - b.start + 1) + 1 ∧
      (w.isLive = true → (s.step (.work i)).isSome = true ∨
        (∃ reader m, w.phase = .sending reader m ∧ s.funnel.hasRoom = false) ∨
        ∃ reader since, w.phase = .receiving reader since ∧
          ∀ window, idle = some window → s.clock < since + window) ∧
      ∀ reader since window, w.phase = .receiving reader since → idle = some window →
        s.clock ≤ since + window := by
  obtain ⟨ledger, paced, patient⟩ := paced_of_reaches apart run
  obtain ⟨-, bounded⟩ := bounded_of_reaches apart run
  have sent := (ledger.forwarded_front b.partition).length_le
  have few {i : Nat} {w : Worker ρ} (worker : s.workers[i]? = some w) (mine : w.bound = b) :
      ((ofPartition b.partition (received events)).length : Int) ≤ e - b.start + 1 ∧
      actions.countP (Action.isTurn i) ≤ 2 * (ofPartition b.partition (received events)).length + 1 ∧
      (receipts events).count b.partition ≤
        (ofPartition b.partition (received events)).length + 1 := by
    subst mine
    obtain ⟨below, turns, closed⟩ := (paced.workers i w worker).below
    exact ⟨length_given_le last proper above ascends below, turns, closed⟩
  by_cases works : ∃ (i : Nat) (w : Worker ρ), s.workers[i]? = some w ∧ w.bound = b
  · obtain ⟨i, w, worker, mine⟩ := works
    obtain ⟨given, -, closed⟩ := few worker mine
    refine ⟨by omega, by omega, fun j v there same => ⟨?_, ?_, ?_⟩⟩
    · obtain ⟨-, turns, -⟩ := few there same
      omega
    · intro live
      cases turn : s.step (.work j) with
      | some next => exact .inl rfl
      | none =>
        have waits := waits_of_no_turn there live turn
        rw [patient.idle_eq] at waits
        exact .inr waits
    · exact patient.waits v (List.mem_of_getElem? there)
  · have unknown : b.partition ∉ s.workers.map (·.bound.partition) := by
      intro known
      obtain ⟨w, inside, same⟩ := List.mem_map.mp known
      obtain ⟨i, worker⟩ := List.mem_iff_getElem?.mp inside
      have mine := List.inj_on_of_nodup_map apart (bounded.workers w inside).1 member same
      exact works ⟨i, w, worker, mine⟩
    have unsent := (ledger.silent b.partition unknown).1
    have unheard := paced.silent b.partition unknown
    rw [unsent, unheard, List.length_nil]
    exact ⟨by omega, by omega, fun i w worker mine => absurd ⟨i, w, worker, mine⟩ works⟩

/-- Partitions that never run out: a reader delivers one offset after the other, at once. -/
structure Endless where

instance : Client Endless Int where
  partitions _ := pure [0]
  oldest _ _ := pure 0
  newest _ _ := pure 0
  watermarks _ _ := pure (0, 0)
  openReader _ _ start client := (.opened start, client)
  respond _ offset := some ⟨0, .message { partition := 0, offset }, offset + 1⟩
  closeReader _ client := client

def endlessSteps : List (Action Endless) :=
  [.openReader 0, .start, .start, .work 0, .work 0, .take, .work 0, .work 0]

/-- The worker stops after the two messages that lie in its bound. -/
theorem endless_work :
    ∃ (s : Supervision Endless Int) (events : List Event),
      Reaches Moves (ofBounds ⟨⟩ "t" (some 5) [⟨0, 0, some 1⟩]) endlessSteps events s ∧
      s.stops = [(0, .boundaryReached)] ∧
      (ofPartition 0 (received events)).map (·.offset) = [0, 1] ∧
      (receipts events).count 0 ≤ 3 ∧ endlessSteps.countP (Action.isTurn 0) ≤ 5 := by
  have replayed : (replayWith step (ofBounds (Endless.mk) "t" (some 5) [⟨0, 0, some 1⟩])
      endlessSteps).any (fun (s, events) => s.stops = [(0, .boundaryReached)] &&
        (ofPartition 0 (received events)).map (·.offset) = [0, 1] &&
          s.workers.map (·.bound) = [⟨0, 0, some 1⟩]) = true := by
    cbv
  obtain ⟨s, events, run, seen⟩ := exists_of_replayWith replayed
  simp only [Bool.and_eq_true, decide_eq_true_eq] at seen
  obtain ⟨⟨stops, given⟩, workers⟩ := seen
  obtain ⟨w, worker, bound⟩ : ∃ w, s.workers[0]? = some w ∧ w.bound = ⟨0, 0, some 1⟩ := by
    have first := congrArg (·[0]?) workers
    simpa using first
  have above : ∀ m ∈ ofPartition 0 (received events), 0 ≤ m.offset := by
    rw [← List.forall_mem_map (f := Message.offset) (P := fun offset => 0 ≤ offset), given]
    decide
  have ascends : (ofPartition 0 (received events)).Pairwise (·.offset < ·.offset) := by
    rw [← List.pairwise_map (f := Message.offset) (R := (· < ·)), given]
    decide
  obtain ⟨-, closed, turns⟩ := bounded_work (b := ⟨0, 0, some 1⟩) (by decide) run
    List.mem_cons_self rfl (by decide) above ascends
  obtain ⟨turns, -⟩ := turns 0 w worker bound
  exact ⟨s, events, run, stops, given, Int.ofNat_le.mp closed, Int.ofNat_le.mp turns⟩

end Supervision
end TopicReader
