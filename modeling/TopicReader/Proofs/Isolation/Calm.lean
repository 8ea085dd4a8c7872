import TopicReader.Proofs.Engine.Effects
import TopicReader.Proofs.Isolation.Alone

/-! Supervisions that nobody disturbs: no worker is told to stop, and the output listens. What a
worker hears from its reader is then what it would hear by itself, and as long as something is left
to do there is a step to take, or time may pass. -/
namespace TopicReader

/-- Clients whose readers go by what they have delivered and by nothing else. Whichever of these
clients occurs, a partition is opened with the same outcome, and a reader gives the same answer. -/
structure Autonomy (σ ρ : Type) [Client σ ρ] (topic : String) where
  occurs : σ → Prop
  opens : Int → Int → Opening ρ
  answers : ρ → Option (Response ρ)
  opened {c c' : σ} {p start : Int} {opening : Opening ρ} : occurs c →
    Client.openReader topic p start c = (opening, c') → opening = opens p start ∧ occurs c'
  responds {c : σ} {reader : ρ} : occurs c → Client.respond c reader = answers reader
  closes {c : σ} {p : Int} : occurs c → occurs (Client.closeReader p c)

/-- A partition by itself, with its readers. -/
def Autonomy.solo {σ ρ : Type} [Client σ ρ] {topic : String} (readers : Autonomy σ ρ topic)
    (idle : Option Nat) (b : Bound) : Solo ρ :=
  ⟨readers.answers, idle, b⟩

/-- What a partition by itself sends after at most `n` requests to its reader, and how far it has
come by then. -/
def Autonomy.course {σ ρ : Type} [Client σ ρ] {topic : String} (readers : Autonomy σ ρ topic)
    (idle : Option Nat) (b : Bound) (n : Nat) : List Message × Fate :=
  (readers.solo idle b).course (readers.opens b.partition b.start) n

namespace Supervision

variable {σ ρ : Type} [Client σ ρ] {topic : String}

/-- Whether an action lets the workers go on. -/
def Action.Peaceful (occurs : σ → Prop) : Action σ → Prop
  | .shutdown | .dropReceiver => False
  | .change f => ∀ c, occurs c → occurs (f c)
  | _ => True

/-- A supervision that nobody has disturbed. -/
structure Calm (readers : Autonomy σ ρ topic) (idle : Option Nat) (s : Supervision σ ρ) : Prop where
  topic : s.topic = topic
  idle : s.idle = idle
  occurs : readers.occurs s.client
  going : s.coordination.closing = false
  receiving : s.funnel.receiving = true
  room : 0 < s.funnel.capacity
  opening : ∀ waiting opened, s.stage = .opening waiting opened → waiting ≠ []

variable {readers : Autonomy σ ρ topic} {idle : Option Nat} {s t : Supervision σ ρ}
  {es fs : List Event} {a : Action σ} {i : Nat} {b : Bound} {reader : ρ} {since : Nat}

namespace Calm

theorem answered (h : s.Calm readers idle) {p start : Int} {opening : Opening ρ} {client : σ}
    (answer : Client.openReader s.topic p start s.client = (opening, client)) :
    opening = readers.opens p start ∧ readers.occurs client :=
  readers.opened h.occurs (h.topic ▸ answer)

theorem step (h : s.Calm readers idle) (step : Step s a fs t)
    (peaceful : a.Peaceful readers.occurs) : t.Calm readers idle := by
  have still : t.coordination.closing = false :=
    (step.closing_eq (by rintro rfl; exact peaceful.elim)).trans h.going
  obtain ⟨topic, idle, occurs, going, receiving, room, opening⟩ := id h
  cases step with
  | opened stage next answer | openFailed stage next answer | openCrashed stage next answer =>
    exact ⟨topic, idle, (h.answered answer).2, still, receiving, room, fun _ _ => opening_after⟩
  | started | allStarted => exact ⟨topic, idle, occurs, still, receiving, room, by simp⟩
  | delivered | workerCrashed | sent | joined | advanced =>
    exact ⟨topic, idle, occurs, still, receiving, room, opening⟩
  | exhausted | readerFailed | idled | boundaryReached =>
    exact ⟨topic, idle, readers.closes occurs, still, receiving, room, opening⟩
  | funnelClosed worker _ deaf => simp [receiving] at deaf
  | stopsReceiving worker closing | stopsSending worker closing => simp [going] at closing
  | taken next =>
    obtain ⟨rest, queue, rfl⟩ := Drain.take?_cons next
    exact ⟨topic, idle, occurs, still, receiving, room, opening⟩
  | deafened | shutDown => exact peaceful.elim
  | changed => exact ⟨topic, idle, peaceful _ occurs, still, receiving, room, opening⟩

/-- An answer that a worker gets in time is heard by a reader that is alone as well. -/
theorem heard (h : s.Calm readers idle)
    (timely : ∀ window, idle = some window → s.clock ≤ since + window) {r : Response ρ}
    (answer : s.answer? reader since = some r) : (readers.solo idle b).heard reader = some r := by
  unfold answer? at answer
  rw [readers.responds h.occurs] at answer
  obtain ⟨found, due⟩ := Option.filter_eq_some_iff.mp answer
  refine Option.filter_eq_some_iff.mpr ⟨found, ?_⟩
  cases window : idle with
  | none => rfl
  | some w =>
    have early := timely w window
    have due : since + r.delay ≤ s.clock := by simpa using due
    simp only [Autonomy.solo, Option.all_some, decide_eq_true_eq]
    omega

/-- A worker that waits in vain until the window has passed hears nothing in that time. -/
theorem unheard (h : s.Calm readers idle) (silent : s.answer? reader since = none)
    (late : s.idle.any (since + · ≤ s.clock) = true) :
    (readers.solo idle b).heard reader = none ∧ idle.isSome = true := by
  unfold answer? at silent
  rw [readers.responds h.occurs] at silent
  rw [h.idle] at late
  obtain ⟨window, set, passed⟩ := (Option.any_eq_true _ _).mp late
  refine ⟨?_, by simp [set]⟩
  refine Option.filter_eq_none_iff.mpr fun r found => ?_
  have later := Option.filter_eq_none_iff.mp silent r found
  simp only [decide_eq_true_eq] at later passed
  simp only [Autonomy.solo, set, Option.all_some, decide_eq_true_eq]
  omega

end Calm

/-- Time does not pass the end of the window of a worker that waits. -/
theorem due_le_window {w : Worker ρ} (phase : w.phase = .receiving reader since) {window : Nat}
    (set : s.idle = some window) : ∃ due, Worker.due? s w = some due ∧ due ≤ since + window := by
  cases answer : Client.respond s.client reader with
  | none => exact ⟨since + window, by simp [Worker.due?, phase, set, answer], Nat.le_refl _⟩
  | some r =>
    refine ⟨min (since + r.delay) (since + window), ?_, Nat.min_le_right _ _⟩
    simp [Worker.due?, phase, set, answer]

/-- Nothing happens by itself any more: there is no step to take, nothing to take out of the funnel,
and nothing will fall due. -/
structure Spent (s : Supervision σ ρ) : Prop where
  stuck : ∀ a : Action σ, a.isOwn = true ∨ a = .take → s.step a = none
  undue : s.dues = []

namespace Calm

/-- A worker that has nothing to do while it waits for a message has got none, and may wait on. -/
theorem waits (h : s.Calm readers idle) (worker : s.workers[i]? = some ⟨b, .receiving reader since⟩)
    (stuck : s.step (.work i) = none) :
    s.answer? reader since = none ∧ s.idle.any (since + · ≤ s.clock) = false := by
  have waits : s.receive i b reader since = none := by
    simpa [Supervision.step, work, worker] using stuck
  unfold receive at waits
  rw [if_neg (by simp [h.going])] at waits
  split at waits
  · split at waits <;> contradiction
  · rename_i silent
    split at waits
    · contradiction
    · rename_i early
      exact ⟨silent, by simpa using early⟩

/-- A worker that has nothing to do while it holds a message waits for room. -/
theorem full_of_stuck (h : s.Calm readers idle) {m : Message}
    (worker : s.workers[i]? = some ⟨b, .sending reader m⟩) (stuck : s.step (.work i) = none) :
    s.funnel.queue ≠ [] := by
  intro empty
  have room : s.funnel.hasRoom = true := by simp [Funnel.hasRoom, empty, h.room]
  have waits : s.send i b reader m = none := by simpa [Supervision.step, work, worker] using stuck
  unfold send at waits
  rw [if_neg (by simp [h.going]), if_neg (by simp [h.receiving]), if_pos room] at waits
  simp only at waits
  split at waits <;> contradiction

theorem due_later (h : s.Calm readers idle)
    (stuck : ∀ a : Action σ, a.isOwn = true → s.step a = none) : ∀ due ∈ s.dues, s.clock < due := by
  intro due member
  obtain ⟨⟨b, phase⟩, inside, waits⟩ := List.mem_filterMap.mp member
  obtain ⟨i, worker⟩ := List.mem_iff_getElem?.mp inside
  cases phase with
  | receiving reader since =>
    obtain ⟨silent, early⟩ := h.waits worker (stuck (.work i) rfl)
    unfold answer? at silent
    cases answer : Client.respond s.client reader <;> cases window : s.idle <;>
      simp [Worker.due?, answer, window] at waits silent early <;> omega
  | _ => cases waits

/-- When nothing happens any more, a worker that has not ended waits for a reader that stays silent,
without a window. -/
theorem silent_of_spent (h : s.Calm readers idle) (spent : s.Spent) {w : Worker ρ}
    (member : w ∈ s.workers) (going : w.phase.fate = .reading) :
    ∃ reader since, w.phase = .receiving reader since ∧ readers.answers reader = none ∧
      idle = none := by
  obtain ⟨b, phase⟩ := w
  obtain ⟨i, worker⟩ := List.mem_iff_getElem?.mp member
  cases phase with
  | receiving reader since =>
    refine ⟨reader, since, rfl, ?_⟩
    have never : Worker.due? s ⟨b, .receiving reader since⟩ = none :=
      List.filterMap_eq_nil_iff.mp spent.undue _ member
    rw [← readers.responds h.occurs, ← h.idle]
    cases answer : Client.respond s.client reader <;> cases window : s.idle <;>
      simp [Worker.due?, answer, window] at never ⊢
  | sending reader m =>
    have full := h.full_of_stuck worker (spent.stuck (.work i) (.inl rfl))
    have empty := spent.stuck .take (.inr rfl)
    cases queue : s.funnel.queue with
    | nil => exact absurd queue full
    | cons m rest => simp [Supervision.step, Funnel.take?, queue] at empty
  | stopped | crashed => cases going

/-- As long as readers are to be opened or workers to be started there is a step to take. -/
theorem bounds_of_stuck (h : s.Calm readers idle)
    (stuck : ∀ a : Action σ, a.isOwn = true → s.step a = none) : s.stage.bounds = [] := by
  cases stage : s.stage with
  | opening waiting done =>
    cases waiting with
    | nil => exact absurd rfl (h.opening [] done stage)
    | cons b rest =>
      have first := stuck (.openReader 0) rfl
      simp [Supervision.step, stage] at first
  | starting opened =>
    have next := stuck .start rfl
    cases opened <;> simp [Supervision.step, stage] at next
  | running => rfl

/-- As long as something is to happen, there is a step to take or time may pass. -/
theorem spent_or_moves (h : s.Calm readers idle) : s.Spent ∨ ∃ a : Action σ,
    (a.isOwn = true ∨ a = .take ∨ a = .advance (s.clock + 1)) ∧ (s.step a).isSome = true := by
  by_cases stuck : ∀ a : Action σ, a.isOwn = true ∨ a = .take → s.step a = none
  · by_cases undue : s.dues = []
    · exact .inl ⟨stuck, undue⟩
    · have later := h.due_later fun a own => stuck a (.inl own)
      refine .inr ⟨.advance (s.clock + 1), .inr (.inr rfl), ?_⟩
      have allowed : s.clock < s.clock + 1 ∧ ∀ due ∈ s.dues, s.clock + 1 ≤ due :=
        ⟨Nat.lt_succ_self _, later⟩
      rw [Supervision.step, if_pos allowed]
      rfl
  · simp only [Classical.not_forall] at stuck
    obtain ⟨a, kind, moves⟩ := stuck
    exact .inr ⟨a, kind.imp_right .inl, Option.isSome_iff_ne_none.mpr moves⟩

end Calm
end Supervision
end TopicReader
