import Mathlib.Data.List.Perm.Subperm
import TopicReader.Proofs.Engine.History
import TopicReader.Proofs.Engine.SupervisionStep

/-! The account that a supervision keeps of each partition: what its reader delivered, what its
worker sent on, and the one message that may be in between. No two workers share a partition, so a
step of one worker leaves the accounts of all others as they are. -/
namespace TopicReader

namespace Worker

variable {ρ : Type}

/-- Whether a worker may still send. -/
def isLive (w : Worker ρ) : Bool :=
  match w.phase with
  | .receiving _ _ | .sending _ _ => true
  | _ => false

theorem not_live_of_settled {w : Worker ρ} (settled : w.isSettled = true) : w.isLive = false := by
  unfold isSettled at settled
  unfold isLive
  split at settled <;> simp_all

/-- How what a worker sent and what its reader delivered hang together. Only a worker that shutdown
or a closed funnel stopped may have kept a message for itself. -/
def Phase.Balanced (sent delivered : List Message) : Phase ρ → Prop
  | .receiving _ _ | .crashed _ => sent = delivered
  | .sending _ m => sent ++ [m] = delivered
  | .stopped .shutdown | .stopped .funnelClosed => sent <+: delivered
  | .stopped _ => sent = delivered

theorem Phase.Balanced.sent_front {sent delivered : List Message} {phase : Phase ρ}
    (h : phase.Balanced sent delivered) : sent <+: delivered := by
  cases phase with
  | receiving => exact h ▸ List.prefix_rfl
  | sending reader m => exact ⟨[m], h⟩
  | crashed => exact h ▸ List.prefix_rfl
  | stopped reason =>
    cases reason with
    | shutdown | funnelClosed => exact h
    | _ => exact h ▸ List.prefix_rfl

end Worker

namespace Supervision

variable {σ ρ : Type}

/-- The bounds that no worker has taken over yet. -/
def Stage.bounds : Stage ρ → List Bound
  | .opening waiting opened => waiting ++ opened.map (·.1)
  | .starting opened => opened.map (·.1)
  | .running => []

/-- The bounds whose readers have not been opened yet. -/
def Stage.waiting : Stage ρ → List Bound
  | .opening waiting _ => waiting
  | _ => []

/-- The readers that no worker has taken over yet. -/
def Stage.readers : Stage ρ → List (Bound × ρ)
  | .opening _ opened | .starting opened => opened
  | .running => []

/-- How many sending ends the supervision holds for itself. -/
def Stage.held : Stage ρ → Nat
  | .running => 0
  | _ => 1

/-- The partitions that still wait and those that have a worker. -/
def partitions (s : Supervision σ ρ) : List Int :=
  s.stage.bounds.map (·.partition) ++ s.workers.map (·.bound.partition)

structure Ledger (s : Supervision σ ρ) (events : List Event) : Prop where
  distinct : s.partitions.Nodup
  balanced : ∀ w ∈ s.workers, w.phase.Balanced (ofPartition w.bound.partition (forwarded events))
    (ofPartition w.bound.partition (received events))
  silent : ∀ p ∉ s.workers.map (·.bound.partition),
    ofPartition p (forwarded events) = [] ∧ ofPartition p (received events) = []

/-- Every worker that may still send holds one sending end, and so does the supervision until it has
started them all. -/
def Counted (s : Supervision σ ρ) : Prop :=
  s.funnel.senders = s.workers.countP Worker.isLive + s.stage.held

/-- All sending ends are gone when all workers have been started and none of them may send any
more, and only then. -/
theorem senders_eq_zero_iff {s : Supervision σ ρ} (counted : s.Counted) :
    s.funnel.senders = 0 ↔ s.stage = .running ∧ ∀ w ∈ s.workers, w.isLive = false := by
  have held : s.stage.held = 0 ↔ s.stage = .running := by
    cases s.stage <;> simp [Stage.held]
  have live : s.workers.countP Worker.isLive = 0 ↔ ∀ w ∈ s.workers, w.isLive = false := by
    simp [List.countP_eq_zero]
  rw [← held, ← live, show s.funnel.senders = _ from counted]
  omega

theorem isFinished_iff {s : Supervision σ ρ} :
    s.isFinished = true ↔ s.stage = .running ∧ ∀ w ∈ s.workers, w.isSettled = true := by
  unfold isFinished
  cases s.stage <;> simp

theorem mem_stops {s : Supervision σ ρ} {p : Int} {reason : StopReason} :
    (p, reason) ∈ s.stops ↔ ∃ w ∈ s.workers, w.bound.partition = p ∧ w.phase = .stopped reason := by
  unfold stops
  rw [List.mem_mergeSort, List.mem_filterMap]
  refine exists_congr fun w => and_congr_right fun _ => ?_
  split
  · rename_i other phase
    rw [phase]
    simp
  · rename_i running
    simpa using fun _ stopped => running reason stopped

theorem bounds_after (waiting : List Bound) (opened : List (Bound × ρ)) :
    (Stage.after waiting opened).bounds.Perm (waiting ++ opened.map (·.1)) := by
  cases waiting with
  | nil => exact (List.mergeSort_perm _ _).map _
  | cons b rest => exact .refl _

@[simp] theorem waiting_after (waiting : List Bound) (opened : List (Bound × ρ)) :
    (Stage.after waiting opened).waiting = waiting := by
  cases waiting <;> rfl

theorem readers_after (waiting : List Bound) (opened : List (Bound × ρ)) :
    (Stage.after waiting opened).readers.Perm opened := by
  cases waiting with
  | nil => exact List.mergeSort_perm _ _
  | cons b rest => exact .refl _

theorem mem_readers_after {waiting : List Bound} {opened : List (Bound × ρ)} {x : Bound × ρ} :
    x ∈ (Stage.after waiting opened).readers ↔ x ∈ opened := (readers_after _ _).mem_iff

theorem opening_after {waiting rest : List Bound} {opened done : List (Bound × ρ)}
    (same : Stage.after waiting opened = .opening rest done) : rest ≠ [] := by
  cases waiting with
  | nil => cases same
  | cons b more =>
    cases same
    exact List.cons_ne_nil _ _

theorem held_after (waiting : List Bound) (opened : List (Bound × ρ)) :
    (Stage.after waiting opened).held = 1 := by
  cases waiting <;> rfl

theorem set_of_getElem? {α : Type} {l : List α} {i : Nat} {a : α} (h : l[i]? = some a) :
    l.set i a = l := by
  obtain ⟨bound, rfl⟩ := List.getElem?_eq_some_iff.mp h
  exact List.set_getElem_self bound

/-- Taking an item out of one list and putting it at the end of the next. -/
theorem perm_of_eraseIdx {α : Type} {l : List α} {i : Nat} {a : α} (h : l[i]? = some a)
    (k : List α) : (l.eraseIdx i ++ (k ++ [a])).Perm (l ++ k) := by
  obtain ⟨bound, rfl⟩ := List.getElem?_eq_some_iff.mp h
  have front : (l.eraseIdx i ++ (k ++ [l[i]])).Perm (l[i] :: l.eraseIdx i ++ k) :=
    (List.perm_append_comm.append_left _).trans List.perm_middle
  exact front.trans ((List.getElem_cons_eraseIdx_perm bound).append_right _)

/-- A bound that is opened stays among the bounds. -/
theorem bounds_opened {i : Nat} {waiting : List Bound} {opened : List (Bound × ρ)} {b : Bound}
    {reader : ρ} (next : waiting[i]? = some b) :
    (Stage.after (waiting.eraseIdx i) (opened ++ [(b, reader)])).bounds.Perm
      (Stage.opening waiting opened).bounds := by
  refine (bounds_after _ _).trans ?_
  rw [List.map_append]
  exact perm_of_eraseIdx next _

/-- A bound that is not opened is dropped. -/
theorem bounds_dropped {i : Nat} {waiting : List Bound} {opened : List (Bound × ρ)} :
    (Stage.after (waiting.eraseIdx i) opened).bounds.Subperm
      (Stage.opening waiting opened).bounds :=
  (bounds_after _ _).subperm.trans ((List.eraseIdx_sublist waiting i).append_right _).subperm

variable {s t : Supervision σ ρ} {es fs : List Event}

namespace Ledger

theorem workers_distinct (h : s.Ledger es) : (s.workers.map (·.bound.partition)).Nodup :=
  (List.nodup_append.mp h.distinct).2.1

theorem apart (h : s.Ledger es) {i j : Nat} {v w : Worker ρ} (at_i : s.workers[i]? = some v)
    (at_j : s.workers[j]? = some w) (other : i ≠ j) : v.bound.partition ≠ w.bound.partition := by
  have left : (s.workers.map (·.bound.partition))[i]? = some v.bound.partition := by simp [at_i]
  have right : (s.workers.map (·.bound.partition))[j]? = some w.bound.partition := by simp [at_j]
  intro same
  have bound : i < (s.workers.map (·.bound.partition)).length :=
    (List.getElem?_eq_some_iff.mp left).1
  exact other ((List.getElem?_inj bound h.workers_distinct).mp (by rw [left, right, same]))

/-- What a partition sent is always the beginning of what its reader delivered. -/
theorem forwarded_front (h : s.Ledger es) (p : Int) :
    ofPartition p (forwarded es) <+: ofPartition p (received es) := by
  by_cases known : p ∈ s.workers.map (·.bound.partition)
  · obtain ⟨w, member, rfl⟩ := List.mem_map.mp known
    exact (h.balanced w member).sent_front
  · rw [(h.silent p known).1]
    exact List.nil_prefix

/-- A step that moves no message and leaves the workers alone. Bounds may be dropped. -/
theorem frame (h : s.Ledger es) (workers : t.workers = s.workers)
    (stage : t.stage.bounds.Subperm s.stage.bounds) (none_sent : forwarded fs = [])
    (none_received : received fs = []) : t.Ledger (es ++ fs) := by
  refine ⟨?_, ?_, ?_⟩
  · obtain ⟨kept, perm, sub⟩ := stage
    unfold partitions
    rw [workers]
    exact ((perm.map _).append_right _).nodup_iff.mp
      (h.distinct.sublist ((sub.map _).append_right _))
  · simpa [workers, none_sent, none_received] using h.balanced
  · simpa [workers, none_sent, none_received] using h.silent

/-- A step of one worker, which touches only the messages of its own partition. -/
theorem update (h : s.Ledger es) {i : Nat} {b : Bound} {old new : Worker.Phase ρ}
    (worker : s.workers[i]? = some ⟨b, old⟩) (workers : t.workers = s.workers.set i ⟨b, new⟩)
    (stage : t.stage = s.stage)
    (own : ∀ p ≠ b.partition, ofPartition p (forwarded fs) = [] ∧ ofPartition p (received fs) = [])
    (balanced : new.Balanced (ofPartition b.partition (forwarded (es ++ fs)))
      (ofPartition b.partition (received (es ++ fs)))) : t.Ledger (es ++ fs) := by
  have same : t.workers.map (·.bound.partition) = s.workers.map (·.bound.partition) := by
    rw [workers, List.map_set]
    exact set_of_getElem? (by simp [worker])
  refine ⟨?_, ?_, ?_⟩
  · simpa only [partitions, stage, same] using h.distinct
  · intro w member
    rw [workers] at member
    obtain ⟨j, found⟩ := List.mem_iff_getElem?.mp member
    by_cases here : i = j
    · subst here
      rw [List.getElem?_set_self (List.getElem?_eq_some_iff.mp worker).1] at found
      cases found
      exact balanced
    · rw [List.getElem?_set_ne here] at found
      have other := own w.bound.partition (h.apart worker found here).symm
      simpa [other.1, other.2] using h.balanced w (List.mem_of_getElem? found)
  · intro p unknown
    rw [same] at unknown
    have foreign : p ≠ b.partition := by
      rintro rfl
      exact unknown (List.mem_map.mpr ⟨_, List.mem_of_getElem? worker, rfl⟩)
    simpa [own p foreign] using h.silent p unknown

/-- The step that takes the next bound off the list of those that wait. -/
theorem take_bound (h : s.Ledger es) {i : Nat} {waiting : List Bound} {opened : List (Bound × ρ)}
    {b : Bound} (stage : s.stage = .opening waiting opened) (next : waiting[i]? = some b)
    {kept : List (Bound × ρ)} (fewer : (kept.map (·.1)).Subperm (opened.map (·.1) ++ [b]))
    (after : t.stage = .after (waiting.eraseIdx i) kept) (workers : t.workers = s.workers)
    (none_sent : forwarded fs = []) (none_received : received fs = []) : t.Ledger (es ++ fs) := by
  apply h.frame workers ?_ none_sent none_received
  rw [after, stage]
  refine (bounds_after _ _).subperm.trans ?_
  exact ((List.Subperm.refl _).append fewer).trans (perm_of_eraseIdx next _).subperm

/-- A worker that stops moves no message, whatever else the step records or warns of. -/
theorem halt (h : s.Ledger es) {i : Nat} {b : Bound} {old : Worker.Phase ρ} {reason : StopReason}
    (worker : s.workers[i]? = some ⟨b, old⟩)
    (workers : t.workers = s.workers.set i ⟨b, .stopped reason⟩) (stage : t.stage = s.stage)
    (none_sent : forwarded fs = []) (none_received : received fs = [])
    (allowed : ∀ sent delivered : List Message, old.Balanced sent delivered →
      (Worker.Phase.stopped (ρ := ρ) reason).Balanced sent delivered) : t.Ledger (es ++ fs) := by
  apply h.update worker workers stage
  · simp [none_sent, none_received]
  · simpa [none_sent, none_received] using
      allowed _ _ (h.balanced ⟨b, old⟩ (List.mem_of_getElem? worker))

/-- Nothing has come from a partition whose worker is the next one to be started. -/
theorem fresh (h : s.Ledger es) {b : Bound} {reader : ρ} {rest : List (Bound × ρ)}
    (stage : s.stage = .starting ((b, reader) :: rest)) :
    ofPartition b.partition (forwarded es) = [] ∧ ofPartition b.partition (received es) = [] := by
  have distinct := h.distinct
  simp only [partitions, stage, Stage.bounds, List.map_cons, List.cons_append, List.nodup_cons,
    List.mem_append, not_or] at distinct
  exact h.silent b.partition distinct.1.2

variable [Client σ ρ]

theorem start (h : s.Ledger es) (step : Step s .start fs t) : t.Ledger (es ++ fs) := by
  cases step with
  | @started b reader rest stage =>
    have fresh := h.fresh stage
    refine ⟨?_, ?_, ?_⟩
    · have perm : (rest.map (·.1.partition) ++ (s.workers.map (·.bound.partition) ++ [b.partition])).Perm
          (b.partition :: (rest.map (·.1.partition) ++ s.workers.map (·.bound.partition))) := by
        rw [← List.append_assoc]
        exact List.perm_append_comm
      have nodup := h.distinct
      simp only [partitions, stage, Stage.bounds, List.map_cons, List.map_map, Function.comp_def,
        List.cons_append] at nodup
      simpa [partitions, Stage.bounds, Function.comp_def] using perm.nodup_iff.mpr nodup
    · intro w member
      rw [List.append_nil]
      rcases List.mem_append.mp member with old | new
      · exact h.balanced w old
      · obtain rfl := List.mem_singleton.mp new
        simp only [Worker.Phase.Balanced, fresh.1, fresh.2]
    · intro p unknown
      simp only [List.map_append, List.mem_append, not_or] at unknown
      simpa using h.silent p unknown.1
  | allStarted stage =>
    exact h.frame rfl (by simp [Stage.bounds]) rfl rfl

/-- Every step keeps the account. -/
theorem step {a : Action σ} (h : s.Ledger es) (step : Step s a fs t) : t.Ledger (es ++ fs) := by
  cases step with
  | @opened i waiting opened b reader client stage next answer =>
    have more : ((opened ++ [(b, reader)]).map (·.1)).Subperm (opened.map (·.1) ++ [b]) := by
      simpa using List.Subperm.refl _
    exact h.take_bound stage next more rfl rfl rfl rfl
  | openFailed stage next answer =>
    exact h.take_bound stage next (List.sublist_append_left _ _).subperm rfl rfl
      (by simp [recordEvents]) (by simp [recordEvents])
  | openCrashed stage next answer =>
    exact h.take_bound stage next (List.sublist_append_left _ _).subperm rfl rfl
      (by simp [recordEvents]) (by simp [recordEvents])
  | started stage => exact h.start (.started stage)
  | allStarted stage => exact h.start (.allStarted stage)
  | delivered worker going answer message =>
    have before := h.balanced _ (List.mem_of_getElem? worker)
    refine h.update worker rfl rfl ?_ ?_
    · intro p foreign
      simp [ofPartition_other foreign.symm]
    · simpa [Worker.Phase.Balanced] using before
  | exhausted worker going answer ended => exact h.halt worker rfl rfl rfl rfl fun _ _ => id
  | readerFailed worker going answer failed =>
    exact h.halt worker rfl rfl (by simp [recordEvents]) (by simp [recordEvents]) fun _ _ => id
  | workerCrashed worker going answer crashed =>
    have before := h.balanced _ (List.mem_of_getElem? worker)
    exact h.update worker rfl rfl (by simp) (by simpa [Worker.Phase.Balanced] using before)
  | idled worker going silent late => exact h.halt worker rfl rfl rfl rfl fun _ _ => id
  | sent worker going receiving room within =>
    have before := h.balanced _ (List.mem_of_getElem? worker)
    refine h.update worker rfl rfl ?_ ?_
    · intro p foreign
      simp [ofPartition_other foreign.symm]
    · simpa [Worker.Phase.Balanced] using before
  | boundaryReached worker going receiving room last =>
    have before := h.balanced _ (List.mem_of_getElem? worker)
    refine h.update worker rfl rfl ?_ ?_
    · intro p foreign
      simp [ofPartition_other foreign.symm]
    · simpa [Worker.Phase.Balanced] using before
  | funnelClosed worker going deaf =>
    exact h.halt worker rfl rfl rfl rfl fun _ _ balanced => balanced.sent_front
  | stopsReceiving worker closing =>
    exact h.halt worker rfl rfl rfl rfl fun _ _ balanced => balanced.sent_front
  | stopsSending worker closing =>
    exact h.halt worker rfl rfl rfl rfl fun _ _ balanced => balanced.sent_front
  | joined worker =>
    have before := h.balanced _ (List.mem_of_getElem? worker)
    exact h.update worker rfl rfl (by simp [recordEvents])
      (by simpa [Worker.Phase.Balanced, recordEvents] using before)
  | taken next => exact h.frame rfl (List.Subperm.refl _) rfl rfl
  | deafened receiving => exact h.frame rfl (List.Subperm.refl _) rfl rfl
  | shutDown => exact h.frame rfl (List.Subperm.refl _) rfl rfl
  | changed => exact h.frame rfl (List.Subperm.refl _) rfl rfl
  | advanced later due => exact h.frame rfl (List.Subperm.refl _) rfl rfl

end Ledger

theorem ledger_ofBounds {bounds : List Bound} (apart : (bounds.map (·.partition)).Nodup)
    (client : σ) (topic : String) (idle : Option Nat) :
    (ofBounds (ρ := ρ) client topic idle bounds).Ledger [] := by
  refine ⟨?_, by simp [ofBounds], fun _ _ => ⟨rfl, rfl⟩⟩
  have ready := bounds_after (ρ := ρ) (bounds.filter fun b => !b.isEmpty) []
  rw [List.map_nil, List.append_nil] at ready
  have distinct : ((bounds.filter fun b => !b.isEmpty).map (·.partition)).Nodup :=
    apart.sublist (List.filter_sublist.map _)
  simpa [partitions, ofBounds] using (ready.map (·.partition)).nodup_iff.mpr distinct

/-- A worker that stops or crashes gives its sending end back. -/
theorem counted_end (h : s.Counted) {i : Nat} {b : Bound} {old new : Worker.Phase ρ}
    (worker : s.workers[i]? = some ⟨b, old⟩) (workers : t.workers = s.workers.set i ⟨b, new⟩)
    (live : Worker.isLive ⟨b, old⟩ = true) (done : Worker.isLive ⟨b, new⟩ = false)
    (stage : t.stage = s.stage) (senders : t.funnel.senders = s.funnel.senders - 1) :
    t.Counted := by
  obtain ⟨bound, here⟩ := List.getElem?_eq_some_iff.mp worker
  have positive : 0 < s.workers.countP Worker.isLive :=
    List.countP_pos_iff.mpr ⟨_, List.mem_of_getElem? worker, live⟩
  unfold Counted at h ⊢
  rw [workers, stage, senders, h, List.countP_set bound, here, live, done]
  simp only [if_true, Bool.false_eq_true, if_false]
  omega

theorem counted_stay (h : s.Counted) {i : Nat} {b : Bound} {old new : Worker.Phase ρ}
    (worker : s.workers[i]? = some ⟨b, old⟩) (workers : t.workers = s.workers.set i ⟨b, new⟩)
    (same : Worker.isLive ⟨b, old⟩ = Worker.isLive ⟨b, new⟩)
    (stage : t.stage = s.stage) (senders : t.funnel.senders = s.funnel.senders) : t.Counted := by
  obtain ⟨bound, here⟩ := List.getElem?_eq_some_iff.mp worker
  unfold Counted at h ⊢
  rw [workers, stage, senders, h, List.countP_set bound, here, same]
  cases live : Worker.isLive ⟨b, new⟩ with
  | false => simp
  | true =>
    have positive : 0 < s.workers.countP Worker.isLive :=
      List.countP_pos_iff.mpr ⟨_, List.mem_of_getElem? worker, by rw [same, live]⟩
    simp only [if_true]
    omega

theorem counted_frame (h : s.Counted) (workers : t.workers = s.workers)
    (stage : t.stage.held = s.stage.held) (senders : t.funnel.senders = s.funnel.senders) :
    t.Counted := by
  unfold Counted at h ⊢
  rw [workers, stage, senders, h]

variable [Client σ ρ]

/-- Every step keeps the count of the sending ends. -/
theorem counted_step {a : Action σ} (h : s.Counted) (step : Step s a fs t) : t.Counted := by
  cases step with
  | opened stage next answer => exact counted_frame h rfl (by rw [held_after, stage]; rfl) rfl
  | openFailed stage next answer => exact counted_frame h rfl (by rw [held_after, stage]; rfl) rfl
  | openCrashed stage next answer => exact counted_frame h rfl (by rw [held_after, stage]; rfl) rfl
  | started stage =>
    unfold Counted at h ⊢
    simp only [Funnel.addSender, h, stage, Stage.held, List.countP_append]
    simp [Worker.isLive]
  | allStarted stage =>
    unfold Counted at h ⊢
    simp [Funnel.dropSender, h, stage, Stage.held]
  | delivered worker going answer message => exact counted_stay h worker rfl rfl rfl rfl
  | exhausted worker going answer ended => exact counted_end h worker rfl rfl rfl rfl rfl
  | readerFailed worker going answer failed => exact counted_end h worker rfl rfl rfl rfl rfl
  | workerCrashed worker going answer crashed => exact counted_end h worker rfl rfl rfl rfl rfl
  | idled worker going silent late => exact counted_end h worker rfl rfl rfl rfl rfl
  | sent worker going receiving room within => exact counted_stay h worker rfl rfl rfl rfl
  | boundaryReached worker going receiving room last => exact counted_end h worker rfl rfl rfl rfl rfl
  | funnelClosed worker going deaf => exact counted_end h worker rfl rfl rfl rfl rfl
  | stopsReceiving worker closing => exact counted_end h worker rfl rfl rfl rfl rfl
  | stopsSending worker closing => exact counted_end h worker rfl rfl rfl rfl rfl
  | joined worker => exact counted_stay h worker rfl rfl rfl rfl
  | taken next =>
    refine counted_frame h rfl rfl ?_
    unfold Funnel.take? at next
    split at next
    · contradiction
    · cases next
      rfl
  | deafened receiving => exact counted_frame h rfl rfl rfl
  | shutDown => exact counted_frame h rfl rfl rfl
  | changed => exact counted_frame h rfl rfl rfl
  | advanced later due => exact counted_frame h rfl rfl rfl

end Supervision
end TopicReader
