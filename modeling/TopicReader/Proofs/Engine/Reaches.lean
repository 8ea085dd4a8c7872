import TopicReader.Engine.Run

/-! Runs of machines that take labelled steps. A run is a chain of steps from one state to another,
with the actions that were taken and the events that were seen, in order. -/
namespace TopicReader

inductive Reaches {S A E : Type} (step : S → A → List E → S → Prop) (s : S) :
    List A → List E → S → Prop where
  | refl : Reaches step s [] [] s
  | next {as es t a fs u} : Reaches step s as es t → step t a fs u →
      Reaches step s (as ++ [a]) (es ++ fs) u

namespace Reaches

variable {S A E : Type} {step step' : S → A → List E → S → Prop} {s t u : S} {as bs : List A}
  {es fs : List E}

theorem trans (first : Reaches step s as es t) (second : Reaches step t bs fs u) :
    Reaches step s (as ++ bs) (es ++ fs) u := by
  induction second with
  | refl => simpa only [List.append_nil] using first
  | next tail head ih => simpa only [List.append_assoc] using Reaches.next ih head

/-- What holds at the beginning and is kept by each step holds of every state that is reached,
together with the actions and events on the way there. -/
theorem invariant {P : List A → List E → S → Prop} (run : Reaches step s as es t)
    (initial : P [] [] s)
    (preserves : ∀ {as es t a fs u}, P as es t → step t a fs u → P (as ++ [a]) (es ++ fs) u) :
    P as es t := by
  induction run with
  | refl => exact initial
  | next tail head ih => exact preserves ih head

/-- Let every step from a state that is going lead to one that is going or done, let no step lead out
of a state that is done, and let each step that counts lower what is left. Then every state that is
reached is going or done, and the steps that count are bounded by what was left at first. -/
theorem descent {counts : A → Bool} {left : S → Nat} {going done : S → List E → Prop}
    (start : going s []) (stops : ∀ t es a fs u, done t es → ¬ step t a fs u)
    (descends : ∀ t es a fs u, going t es → step t a fs u →
      (going u (es ++ fs) ∨ done u (es ++ fs)) ∧ left u + (if counts a then 1 else 0) ≤ left t)
    (run : Reaches step s as es t) :
    (going t es ∨ done t es) ∧ as.countP counts + left t ≤ left s := by
  induction run with
  | refl => exact ⟨.inl start, by simp⟩
  | next before move ih =>
    obtain ⟨state | ended, counted⟩ := ih
    · obtain ⟨next, fewer⟩ := descends _ _ _ _ _ state move
      refine ⟨next, ?_⟩
      rw [List.countP_append, List.countP_singleton]
      omega
    · exact absurd move (stops _ _ _ _ _ ended)

theorem mono (run : Reaches step s as es t)
    (weaker : ∀ {t a fs u}, step t a fs u → step' t a fs u) : Reaches step' s as es t := by
  induction run with
  | refl => exact .refl
  | next tail head ih => exact .next ih (weaker head)

/-- Where a map of the states takes each step to a step, it takes a run to a run. -/
theorem map {T : Type} {moves : T → A → List E → T → Prop} (f : S → T)
    (run : Reaches step s as es t)
    (commutes : ∀ {t a fs u}, step t a fs u → moves (f t) a fs (f u)) :
    Reaches moves (f s) as es (f t) := by
  induction run with
  | refl => exact .refl
  | next tail head ih => exact .next ih (commutes head)

end Reaches

namespace Run

variable {σ ρ κ : Type} [Client σ ρ] [Sink κ]

/-- One step of a run. -/
def Moves (r : Run σ ρ κ) (a : Action σ) (events : List Event) (t : Run σ ρ κ) : Prop :=
  r.step a = some (t, events)

end Run

namespace Supervision

variable {σ ρ : Type} [Client σ ρ]

/-- One step of a supervision that is on its own. -/
def Moves (s : Supervision σ ρ) (a : Action σ) (events : List Event) (t : Supervision σ ρ) : Prop :=
  s.step a = some (t, events)

end Supervision
end TopicReader
