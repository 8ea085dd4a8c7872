import TopicReader.Proofs.Engine.Accounts

/-! What the events of a run tell of its failures: the errors that were recorded, each with whether
it was the first one, and the failures of the sink. The first error recorded is the one that is
kept. -/
namespace TopicReader

namespace Event

@[simp] def recorded? : Event → Option (RunError × Bool)
  | .recorded e first => some (e, first)
  | _ => none

@[simp] def refused? : Event → Option OutputError
  | .refused e => some e
  | _ => none

end Event

/-- The errors that were recorded, in order, each with whether it was the first one. -/
def recordings (events : List Event) : List (RunError × Bool) := events.filterMap Event.recorded?

/-- The failures of the sink, in order. -/
def refusals (events : List Event) : List OutputError := events.filterMap Event.refused?

section
variable {e : Event} {es fs : List Event}

@[simp] theorem recordings_nil : recordings [] = [] := rfl

@[simp] theorem refusals_nil : refusals [] = [] := rfl

@[simp] theorem recordings_cons : recordings (e :: es) = e.recorded?.toList ++ recordings es :=
  filterMap_cons_toList

@[simp] theorem refusals_cons : refusals (e :: es) = e.refused?.toList ++ refusals es :=
  filterMap_cons_toList

@[simp] theorem recordings_append : recordings (es ++ fs) = recordings es ++ recordings fs :=
  List.filterMap_append

@[simp] theorem refusals_append : refusals (es ++ fs) = refusals es ++ refusals fs :=
  List.filterMap_append

/-- Recording an error shows in one event. -/
@[simp] theorem recordings_recordEvents (c : Coordination) (e : RunError) :
    recordings (c.recordEvents e) = [(e, c.isFree)] := by
  by_cases free : c.isFree <;>
    simp [Coordination.recordEvents, Coordination.recordWarnings, free]

@[simp] theorem refusals_recordEvents (c : Coordination) (e : RunError) :
    refusals (c.recordEvents e) = [] := by
  by_cases free : c.isFree <;>
    simp [Coordination.recordEvents, Coordination.recordWarnings, free]

end

namespace Coordination

/-- How a step deals with the first error: it records none, or it records one. -/
def Notes (c c' : Coordination) (events : List Event) : Prop :=
  recordings events = [] ∧ c'.firstError = c.firstError ∨
    ∃ e, recordings events = [(e, c.isFree)] ∧ c'.firstError = (c.record e).firstError

/-- What the recordings so far say of the first error: the first of them found the slot empty, and
its error is kept; no other did. -/
def HoldsFirst (c : Coordination) : List (RunError × Bool) → Prop
  | [] => c.firstError = none
  | (e, first) :: rest => first = true ∧ c.firstError = some e ∧ ∀ x ∈ rest, x.2 = false

variable {c c' : Coordination} {log : List (RunError × Bool)} {fs : List Event}

/-- A step that records nothing. -/
theorem Notes.silent (none_recorded : recordings fs = []) (same : c'.firstError = c.firstError) :
    c.Notes c' fs := .inl ⟨none_recorded, same⟩

/-- A step that records an error, whatever else it shows. -/
theorem Notes.one {e : RunError} (recorded : recordings fs = [(e, c.isFree)])
    (kept : c'.firstError = (c.record e).firstError) : c.Notes c' fs := .inr ⟨e, recorded, kept⟩

theorem HoldsFirst.note (h : c.HoldsFirst log) (notes : c.Notes c' fs) :
    c'.HoldsFirst (log ++ recordings fs) := by
  rcases notes with ⟨silent, same⟩ | ⟨e, recorded, kept⟩
  · rw [silent, List.append_nil]
    cases log with
    | nil => exact same.trans h
    | cons x rest => exact ⟨h.1, same.trans h.2.1, h.2.2⟩
  · rw [recorded]
    cases log with
    | nil =>
      have free : c.isFree = true := by
        rw [isFree, show c.firstError = none from h]
        rfl
      refine ⟨free, ?_, by simp⟩
      rw [kept, firstError_record, show c.firstError = none from h]
      rfl
    | cons x rest =>
      obtain ⟨first, slot, later⟩ := h
      have taken : c.isFree = false := by simp [isFree, slot]
      refine ⟨first, ?_, ?_⟩
      · rw [kept, firstError_record, slot]
        rfl
      · intro y member
        rcases List.mem_append.mp member with old | new
        · exact later y old
        · obtain rfl := List.mem_singleton.mp new
          exact taken

theorem HoldsFirst.firstError_eq (h : c.HoldsFirst log) : c.firstError = log.head?.map (·.1) := by
  cases log with
  | nil => exact h
  | cons x rest => exact h.2.1

/-- At most one recording found the slot empty. -/
theorem HoldsFirst.countP_first_le (h : c.HoldsFirst log) : log.countP (·.2) ≤ 1 := by
  cases log with
  | nil => exact Nat.zero_le _
  | cons x rest =>
    have others : rest.countP (·.2) = 0 := by
      apply List.countP_eq_zero.mpr
      intro y member
      simp [h.2.2 y member]
    rw [List.countP_cons, others]
    split <;> omega

end Coordination

namespace Supervision

variable {σ ρ : Type} [Client σ ρ] {s t : Supervision σ ρ} {a : Action σ} {fs : List Event}

theorem Step.notes (step : Step s a fs t) : s.coordination.Notes t.coordination fs := by
  cases step with
  | openFailed | openCrashed | readerFailed | joined => exact .one (by simp [recordEvents]) rfl
  | _ => exact .silent rfl rfl

/-- Workers have nothing to do with the sink. -/
theorem Step.refusals_eq (step : Step s a fs t) : refusals fs = [] := by
  cases step <;> simp [recordEvents]

end Supervision

namespace Drain

variable {κ : Type} [Sink κ] {d : Drain κ} {c : Coordination} {f : Funnel} {o : Outcome κ}
  {refused : List OutputError}

theorem Step.notes (step : Step d c f o) : c.Notes o.coordination o.events := by
  cases step with
  | @undecodableFirst m n e phase failed free =>
    exact .one (e := .decoding m.partition m.offset e) (by simp [Coordination.isFree, free])
      (by simp [free])
  | @undecodableLater m n e first phase failed taken =>
    exact .one (e := .decoding m.partition m.offset e) (by simp [Coordination.isFree, taken])
      (by simp [taken])
  | undecodableKept => exact .one (by simp) rfl
  | _ => exact .silent rfl rfl

/-- The output fails with the first failure of the sink, and only with that. -/
def Phase.FailsWhenRefused (refused : List OutputError) : Phase → Prop
  | .finished (.error e) => ∃ x, e = .output x ∧ refused = [x]
  | _ => refused = []

omit [Sink κ] in
theorem Phase.FailsWhenRefused.none_refused {phase : Phase} (h : phase.FailsWhenRefused refused)
    (going : ∀ result, phase ≠ .finished result) : refused = [] := by
  cases phase with
  | finished result => exact absurd rfl (going result)
  | _ => exact h

theorem Step.output (step : Step d c f o) (h : d.phase.FailsWhenRefused refused) :
    o.drain.phase.FailsWhenRefused (refused ++ refusals o.events) := by
  rw [h.none_refused step.unfinished, List.nil_append]
  cases step with
  | refused => exact ⟨_, rfl, rfl⟩
  | refusedKept => exact ⟨_, rfl, rfl⟩
  | undecodableKept => exact refusals_recordEvents _ _
  | _ => rfl

end Drain
end TopicReader
