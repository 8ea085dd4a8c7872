import Mathlib
import TopicReader.Proofs.Engine.Reaches

/-! Runs that are found by evaluating a list of actions. Mathlib is imported whole here, and only
here, for the equations of library functions by which `cbv` unfolds a replay. -/
namespace TopicReader

/-- Takes the actions one after the other, as far as each is possible. -/
def replayWith {S A E : Type} (step : S → A → Option (S × List E)) (s : S) :
    List A → Option (S × List E)
  | [] => some (s, [])
  | a :: rest => do
    let (t, events) ← step s a
    let (u, later) ← replayWith step t rest
    return (u, events ++ later)

/-- A replay is a run, and all its steps are of the kind that its actions are. -/
theorem reaches_of_replayWith {S A E : Type} {step : S → A → Option (S × List E)} {P : A → Prop}
    {s t : S} {actions : List A} {events : List E}
    (h : replayWith step s actions = some (t, events)) (kind : ∀ a ∈ actions, P a) :
    Reaches (fun s a es t => step s a = some (t, es) ∧ P a) s actions events t := by
  induction actions generalizing s events with
  | nil =>
    cases h
    exact .refl
  | cons a rest ih =>
    simp only [replayWith, Option.bind_eq_bind, Option.bind_eq_some_iff, Option.pure_def] at h
    obtain ⟨⟨u, first⟩, moved, ⟨v, later⟩, tail, same⟩ := h
    cases same
    have empty : Reaches (fun s a es t => step s a = some (t, es) ∧ P a) s [] [] s := .refl
    have head : Reaches (fun s a es t => step s a = some (t, es) ∧ P a) s [a] first u := by
      simpa only [List.nil_append] using empty.next ⟨moved, kind a List.mem_cons_self⟩
    exact head.trans (ih tail fun b member => kind b (List.mem_cons_of_mem a member))

/-- What can be replayed to a state and events with some property can be reached. -/
theorem exists_of_replayWith {S A E : Type} {step : S → A → Option (S × List E)} {s : S}
    {actions : List A} {property : S × List E → Bool}
    (h : (replayWith step s actions).any property = true) :
    ∃ t events, Reaches (fun s a es t => step s a = some (t, es)) s actions events t ∧
      property (t, events) = true := by
  obtain ⟨⟨t, events⟩, replayed, holds⟩ := (Option.any_eq_true _ _).mp h
  have run := reaches_of_replayWith (P := fun _ => True) replayed fun _ _ => trivial
  exact ⟨t, events, run.mono And.left, holds⟩

namespace Run

variable {σ ρ κ : Type} [Client σ ρ] [Sink κ]

/-- The replay of a run. -/
def replay (r : Run σ ρ κ) (actions : List (Action σ)) : Option (Run σ ρ κ × List Event) :=
  replayWith step r actions

/-- A replay is a run, and all its steps are of the kind that its actions are. -/
theorem reaches_of_replay {P : Action σ → Prop} {r t : Run σ ρ κ} {actions : List (Action σ)}
    {events : List Event} (h : r.replay actions = some (t, events)) (kind : ∀ a ∈ actions, P a) :
    Reaches (fun r a es t => Moves r a es t ∧ P a) r actions events t :=
  reaches_of_replayWith h kind

/-- What can be replayed to a state and events with some property is a run. -/
theorem exists_of_replay {r : Run σ ρ κ} {actions : List (Action σ)}
    {property : Run σ ρ κ × List Event → Bool} (h : (r.replay actions).any property = true) :
    ∃ s events, Reaches Moves r actions events s ∧ property (s, events) = true :=
  exists_of_replayWith h

end Run
end TopicReader
