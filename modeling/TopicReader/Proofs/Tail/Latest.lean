import TopicReader.Proofs.Tail.Window

/-! The latest of some timestamps. A window chooses its messages by their timestamps alone, and what
enough others outdo can be left out before the choice. -/
namespace TopicReader

section
variable {α : Type} [LinearOrder α] {n : Nat} {l k more : List α} {d : α}

/-- The greatest elements of a list, as many as there are up to a number, in ascending order. -/
def greatest (n : Nat) (l : List α) : List α := (l.mergeSort (· ≤ ·)).drop (l.length - n)

theorem pairwise_mergeSort_le (l : List α) : (l.mergeSort (· ≤ ·)).Pairwise (· ≤ ·) :=
  TailWindow.pairwise_sort (· ≤ ·) (fun _ _ => Iff.rfl) l

/-- There is one way to put elements in order. -/
theorem mergeSort_eq_of_perm (perm : l.Perm k) (sorted : k.Pairwise (· ≤ ·)) :
    l.mergeSort (· ≤ ·) = k :=
  List.Perm.eq_of_pairwise (fun _ _ _ _ => le_antisymm) (pairwise_mergeSort_le l) sorted
    ((List.mergeSort_perm l _).trans perm)

theorem greatest_perm (perm : l.Perm k) : greatest n l = greatest n k := by
  rw [greatest, greatest, perm.length_eq,
    mergeSort_eq_of_perm (perm.trans (List.mergeSort_perm k _).symm) (pairwise_mergeSort_le k)]

/-- Where enough elements are at or above some value, so are the last ones. -/
theorem le_of_mem_drop (sorted : l.Pairwise (· ≤ ·)) (many : n ≤ l.countP (d ≤ ·)) {x : α}
    (member : x ∈ l.drop (l.length - n)) : d ≤ x := by
  by_contra below
  rw [not_le] at below
  obtain ⟨before, after, shape⟩ := List.append_of_mem member
  have whole : l = l.take (l.length - n) ++ before ++ x :: after := by
    rw [List.append_assoc, ← shape, List.take_append_drop]
  have few : after.length < n := by
    have lengths := congrArg List.length shape
    simp only [List.length_drop, List.length_append, List.length_cons] at lengths
    omega
  generalize l.take (l.length - n) ++ before = front at whole
  have none_in_front : front.countP (d ≤ ·) = 0 := by
    rw [whole] at sorted
    refine List.countP_eq_zero.mpr ?_
    intro y early
    have first := (List.pairwise_append.mp sorted).2.2 y early x List.mem_cons_self
    simpa using first.trans_lt below
  have most : (x :: after).countP (d ≤ ·) ≤ after.length := by
    rw [List.countP_cons_of_neg (by simpa using below)]
    exact List.countP_le_length
  rw [whole, List.countP_append, none_in_front] at many
  omega

/-- Elements that enough others reach or exceed make no difference to the greatest. -/
theorem greatest_append (dominated : ∀ d ∈ more, n ≤ l.countP (d ≤ ·)) :
    greatest n (l ++ more) = greatest n l := by
  cases none : more with
  | nil => rw [List.append_nil]
  | cons d rest =>
    have enough : n ≤ l.length := by
      have many := dominated d (by simp [none])
      exact many.trans List.countP_le_length
    rw [← none]
    have perm := List.mergeSort_perm l (· ≤ ·)
    have sorted := pairwise_mergeSort_le l
    have upper (d : α) (member : d ∈ more) (x : α)
        (last : x ∈ (l.mergeSort (· ≤ ·)).drop (l.length - n)) : d ≤ x := by
      rw [← perm.length_eq] at last
      refine le_of_mem_drop sorted ?_ last
      rw [perm.countP_eq]
      exact dominated d member
    have split := List.take_append_drop (l.length - n) (l.mergeSort (· ≤ ·))
    have front : ((l.mergeSort (· ≤ ·)).take (l.length - n)).length = l.length - n := by
      rw [List.length_take, perm.length_eq]
      omega
    unfold greatest
    generalize (l.mergeSort (· ≤ ·)).take (l.length - n) = small at split front
    generalize (l.mergeSort (· ≤ ·)).drop (l.length - n) = great at split upper ⊢
    rw [← split] at perm sorted
    obtain ⟨_, sortedGreat, below⟩ := List.pairwise_append.mp sorted
    -- All that is not among the greatest goes before them.
    have whole : (l ++ more).mergeSort (· ≤ ·) = (small ++ more).mergeSort (· ≤ ·) ++ great := by
      refine mergeSort_eq_of_perm ?_ (List.pairwise_append.mpr
        ⟨pairwise_mergeSort_le _, sortedGreat, ?_⟩)
      · have moved : (small ++ great ++ more).Perm (small ++ more ++ great) := by
          rw [List.append_assoc, List.append_assoc]
          exact List.perm_append_comm.append_left small
        exact ((perm.symm.append_right more).trans moved).trans
          ((List.mergeSort_perm _ _).symm.append_right great)
      · intro a first b last
        rcases List.mem_append.mp (List.mem_mergeSort.mp first) with old | new
        · exact below a old b last
        · exact upper a new b last
    have place : (l ++ more).length - n = ((small ++ more).mergeSort (· ≤ ·)).length := by
      rw [List.length_mergeSort, List.length_append, List.length_append, front]
      omega
    rw [whole, place, List.drop_left]

end

namespace TailWindow

variable {n : Nat} {ms : List Message}

theorem Outlasts.le {a b : Nat × Message} (first : Outlasts a b) : b.2.time ≤ a.2.time :=
  first.elim le_of_lt fun same => same.1.le

theorem Precedes.le {a b : Nat × Message} (first : Precedes a b) : a.2.time ≤ b.2.time :=
  first.elim le_of_lt fun same => same.1.le

/-- In the order in which messages are kept their times descend. -/
theorem sorted_reverse {l : List (Nat × Message)} (sorted : l.Pairwise Outlasts) :
    (l.map (·.2.time)).reverse.Pairwise (· ≤ ·) :=
  List.pairwise_reverse.mpr (List.pairwise_map.mpr (sorted.imp Outlasts.le))

/-- The times of the messages that a window keeps are the greatest of all. -/
theorem map_time_newest : (newest n ms).map (·.time) = greatest n (ms.map (·.time)) := by
  have all : (ms.map (·.time)).mergeSort (· ≤ ·) = ((ranked ms).map (·.2.time)).reverse := by
    refine mergeSort_eq_of_perm (.trans ?_ (List.reverse_perm _).symm)
      (sorted_reverse pairwise_ranked)
    have numbers : ms.map (·.time) = (numbered ms).map (·.2.time) := by
      conv_lhs => rw [← @map_numbered ms, List.map_map]
      rfl
    rw [numbers]
    exact (perm_ranked.map _).symm
  have kept : ((newest n ms).map (·.time)) = (((ranked ms).take n).map (·.2.time)).reverse := by
    have perm := List.mergeSort_perm ((ranked ms).take n) fun a b => Precedes a b
    have ascending := pairwise_sort Precedes (fun _ _ => precedes_iff_le)
      ((ranked ms).take n)
    rw [newest, List.map_map]
    refine List.Perm.eq_of_pairwise (fun _ _ _ _ => le_antisymm)
      (List.pairwise_map.mpr (ascending.imp Precedes.le))
      (sorted_reverse (pairwise_ranked.sublist (List.take_sublist _ _)))
      ((perm.map _).trans (List.reverse_perm _).symm)
  have length : (ranked ms).length = ms.length := by
    rw [perm_ranked.length_eq, length_numbered]
  rw [kept, greatest, all, List.drop_reverse, List.map_take, List.length_map, List.length_map,
    length]
  congr 1
  refine List.take_eq_take_iff.mpr ?_
  rw [List.length_map, length]
  omega

/-- The latest of some timestamps, as many as there are up to a number, in ascending order. A missing
one is earlier than any other. -/
def latest (n : Nat) (times : List (Option Instant)) : List (Option Instant) :=
  (times.mergeSort fun s t => Instant.rank s ≤ Instant.rank t).drop (times.length - n)

theorem length_latest {times : List (Option Instant)} :
    (latest n times).length = min n times.length := by
  rw [latest, List.length_drop, List.length_mergeSort]
  omega

theorem map_rank_latest {times : List (Option Instant)} :
    (latest n times).map Instant.rank = greatest n (times.map Instant.rank) := by
  rw [latest, greatest, List.map_drop, List.length_map,
    List.map_mergeSort (s := fun a b => decide (a ≤ b)) fun _ _ _ _ => rfl]

/-- The timestamps of the messages that a window keeps are the latest of all. -/
theorem map_timestamp_newest :
    (newest n ms).map (·.timestamp) = latest n (ms.map (·.timestamp)) := by
  refine List.map_injective_iff.mpr Instant.rank_injective ?_
  rw [map_rank_latest, List.map_map, List.map_map]
  exact map_time_newest

end TailWindow
end TopicReader
