import Mathlib.Data.List.Nodup
import TopicReader.Engine.Run

/-! How a run begins: with distinct partitions that wait for their bounds and with nobody at work,
or already at its end. -/
namespace TopicReader

namespace Query

variable {σ α β : Type}

theorem run_bind (x : Query σ α) (f : α → Query σ β) (s : σ) :
    (x >>= f).run s = match x.run s with
      | (.ok a, s) => (f a).run s
      | (.error e, s) => (.error e, s) := by
  rw [ExceptT.run_bind]
  change StateT.bind x.run _ s = _
  unfold StateT.bind
  cases x.run s with
  | mk answer t => cases answer <;> rfl

theorem ok_of_bind {x : Query σ α} {f : α → Query σ β} {s t : σ} {b : β}
    (h : (x >>= f).run s = (.ok b, t)) :
    ∃ a u, x.run s = (.ok a, u) ∧ (f a).run u = (.ok b, t) := by
  rw [run_bind] at h
  split at h
  · rename_i a u answer
    exact ⟨a, u, answer, h⟩
  · cases h

end Query

section
variable {σ ρ : Type} [Client σ ρ]

/-- A bound is found for the partition that it was asked for. -/
theorem Request.resolve_partition {r : Request} {p : Int} {client client' : σ} {b : Bound}
    (h : (r.resolve p : Query σ Bound).run client = (.ok b, client')) : b.partition = p := by
  unfold Request.resolve at h
  split at h
  · cases h
  · split at h
    · obtain ⟨_, _, _, h⟩ := Query.ok_of_bind h
      cases h
      rfl
    · split at h
      · obtain ⟨_, _, _, h⟩ := Query.ok_of_bind h
        obtain ⟨_, _, _, h⟩ := Query.ok_of_bind h
        cases h
        rfl
      · obtain ⟨_, _, _, h⟩ := Query.ok_of_bind h
        cases h
        rfl

end

namespace Run

theorem nodup_eraseDups {l : List Int} : l.eraseDups.Nodup := by
  cases l with
  | nil => simp
  | cons a rest =>
    rw [List.eraseDups_cons, List.nodup_cons]
    exact ⟨by simp [List.mem_eraseDups], nodup_eraseDups⟩
  termination_by l.length
  decreasing_by exact Nat.lt_succ_of_le (List.length_filter_le _ _)

theorem distinct_nodup (ps : List Int) : (distinct ps).Nodup := nodup_eraseDups

theorem mem_distinct {p : Int} {ps : List Int} : p ∈ distinct ps ↔ p ∈ ps := by
  simp [distinct, List.mem_eraseDups]

variable {σ ρ κ : Type} [Client σ ρ]

theorem partitions_nodup {r : Request} {client client' : σ} {ps : List Int}
    (h : (partitions r : Query σ (List Int)).run client = (.ok ps, client')) : ps.Nodup := by
  unfold partitions at h
  split at h
  · rw [map_eq_pure_bind] at h
    obtain ⟨_, _, _, h⟩ := Query.ok_of_bind h
    cases h
    exact distinct_nodup _
  · cases h
    exact distinct_nodup _

/-- The stages in which a run may begin. -/
inductive Opening : Stage → Prop where
  | refused (e : RunError) : Opening (.returned (.error e))
  | empty : Opening (.returned (.ok ()))
  | waiting {ps : List Int} (some : ps ≠ []) (distinct : ps.Nodup) : Opening (.resolving ps [])

theorem begin_cases (request : Request) (chain : Chain) (client : σ) (sink : κ) :
    ∃ client' stage, Opening stage ∧ begin request chain client sink =
      ⟨request, .ofBounds client' request.topic (if request.isBounded then some request.idle else none)
        [], .ofTail chain sink request.tail, stage⟩ := by
  unfold begin
  cases request.validate with
  | error e => exact ⟨client, _, .refused e, rfl⟩
  | ok _ =>
    simp only
    split
    · exact ⟨_, _, .refused _, rfl⟩
    · exact ⟨_, _, .empty, rfl⟩
    · rename_i ps client' some answer
      exact ⟨_, _, .waiting (by simpa using some) (partitions_nodup answer), rfl⟩

end Run
end TopicReader
