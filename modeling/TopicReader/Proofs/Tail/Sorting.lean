import TopicReader.Proofs.Tail.Window

/-! A window against a sort of all messages. What it holds is always the front of the stable sort of
all that it was given, newest first, although it only ever looks for one place by halving and forgets
what it has dropped. What it gives out in the end is the same messages, oldest first. -/
namespace TopicReader

section
variable {α : Type} {p : α → Bool} {l : List α} {x : α}

/-- The number of elements in front with some property, found by halving. It is meant for lists in
which those with the property come first. -/
def partitionPoint (p : α → Bool) (l : List α) : Nat :=
  match split : l.drop (l.length / 2) with
  | [] => 0
  | a :: back =>
    if p a then l.length / 2 + 1 + partitionPoint p back
    else partitionPoint p (l.take (l.length / 2))
termination_by l.length
decreasing_by
  · have lengths := congrArg List.length split
    simp only [List.length_drop, List.length_cons] at lengths
    omega
  · have lengths := congrArg List.length split
    simp only [List.length_drop, List.length_cons] at lengths
    rw [List.length_take]
    omega

/-- Where the elements with the property come first, halving finds their number. -/
theorem partitionPoint_eq (parted : l.Pairwise fun a b => p b = true → p a = true) :
    partitionPoint p l = (l.takeWhile p).length := by
  induction length : l.length using Nat.strongRecOn generalizing l with
  | ind n ih =>
    have whole := List.take_append_drop (l.length / 2) l
    unfold partitionPoint
    split
    · rename_i none
      have short : l.length - l.length / 2 = 0 := by
        rw [← List.length_drop, none]
        rfl
      have empty : l = [] := List.length_eq_zero_iff.mp (by omega)
      rw [empty]
      rfl
    · rename_i a back split
      have half : (l.take (l.length / 2)).length = l.length / 2 := by
        rw [List.length_take]
        omega
      have lengths := congrArg List.length split
      simp only [List.length_drop, List.length_cons] at lengths
      rw [split] at whole
      rw [← whole] at parted
      obtain ⟨front, rest, across⟩ := List.pairwise_append.mp parted
      split
      · rename_i holds
        have all : ∀ b ∈ l.take (l.length / 2), p b = true :=
          fun b early => across b early a List.mem_cons_self holds
        have behind := ih back.length (by omega) (List.pairwise_cons.mp rest).2 rfl
        conv_rhs => rw [← whole, List.takeWhile_append_of_pos all, List.takeWhile_cons_of_pos holds]
        rw [behind, List.length_append, List.length_cons, half]
        omega
      · rename_i fails
        have before := ih (l.length / 2) (by omega) front half
        conv_rhs => rw [← whole, List.takeWhile_append, List.takeWhile_cons_of_neg fails]
        rw [before]
        split
        · rename_i all
          rw [List.append_nil, all]
        · rfl

/-- An element that is put in behind those in front with some property. -/
theorem insertIdx_takeWhile :
    l.insertIdx (l.takeWhile p).length x = l.takeWhile p ++ x :: l.dropWhile p := by
  induction l with
  | nil => rfl
  | cons a rest ih =>
    by_cases holds : p a = true
    · simp [holds, ih]
    · simp [holds]

end

namespace TailWindow

variable {n : Nat} {ms : List Message} {m : Message}

/-- The same messages, newest first, and those with one timestamp, or with none, in the order in
which they came. -/
structure SortsNewestFirst (ms sorted : List Message) : Prop where
  perm : sorted.Perm ms
  ordered : sorted.Pairwise fun a b => b.time ≤ a.time
  stable : ∀ timestamp, sorted.filter (·.timestamp = timestamp) = ms.filter (·.timestamp = timestamp)

/-- All messages, newest first. -/
def newestFirst (ms : List Message) : List Message := ms.mergeSort fun a b => b.time ≤ a.time

theorem newestFirst_sorts : SortsNewestFirst ms (newestFirst ms) := by
  have trans : ∀ a b c : Message, decide (b.time ≤ a.time) = true → decide (c.time ≤ b.time) = true →
      decide (c.time ≤ a.time) = true := by
    simp only [decide_eq_true_eq]
    exact fun a b c first second => second.trans first
  have total : ∀ a b : Message, (decide (b.time ≤ a.time) || decide (a.time ≤ b.time)) = true := by
    simp only [Bool.or_eq_true, decide_eq_true_eq]
    exact fun a b => le_total _ _
  have perm : (newestFirst ms).Perm ms := List.mergeSort_perm _ _
  constructor
  · exact perm
  · exact (List.pairwise_mergeSort trans total ms).imp fun older => of_decide_eq_true older
  · intro timestamp
    -- Messages with one timestamp are in order as they come, so a stable sort keeps them so.
    have alike : (ms.filter (·.timestamp = timestamp)).Pairwise
        fun a b => decide (b.time ≤ a.time) = true := by
      refine List.pairwise_of_forall_mem_list ?_
      intro a first b second
      have first : a.timestamp = timestamp := by simpa using (List.mem_filter.mp first).2
      have second : b.timestamp = timestamp := by simpa using (List.mem_filter.mp second).2
      simp [Message.time, first, second]
    have kept := (List.sublist_mergeSort trans total alike List.filter_sublist).filter
      fun m => decide (m.timestamp = timestamp)
    rw [List.filter_filter] at kept
    simp only [Bool.and_self] at kept
    exact (kept.eq_of_length (perm.filter _).length_eq.symm).symm

/-- Ranking messages by their arrival numbers is sorting them stably. -/
theorem map_ranked : (ranked ms).map (·.2) = newestFirst ms := by
  have swapped : numbered ms = ms.zipIdx.map Prod.swap := List.mapIdx_eq_zipIdx_map
  have same : ∀ a ∈ ms.zipIdx, ∀ b ∈ ms.zipIdx,
      List.zipIdxLE (fun a b : Message => decide (b.time ≤ a.time)) a b =
        decide (Outlasts a.swap b.swap) := by
    rintro ⟨a, i⟩ - ⟨b, j⟩ -
    simp only [List.zipIdxLE, Prod.swap_prod_mk, Outlasts]
    rcases lt_trichotomy a.time b.time with older | equal | newer
    · simp [older.not_ge, older.not_gt, older.ne']
    · simp [equal]
    · simp [newer, newer.le, newer.not_ge]
  have unnumbered : (fun a : Nat × Message => a.2) ∘ Prod.swap = fun a : Message × Nat => a.1 := rfl
  rw [ranked, swapped, ← List.map_mergeSort same, List.map_map, unnumbered, List.mergeSort_zipIdx,
    newestFirst]

/-- No two of the messages that are kept came at the same time. -/
theorem nodup_numbers (n : Nat) : (((ranked ms).take n).map (·.1)).Nodup := by
  have numbers : (numbered ms).map (·.1) = List.range ms.length := by
    apply List.ext_getElem <;> simp [numbered]
  have all : ((ranked ms).map (·.1)).Nodup := by
    rw [(perm_ranked.map _).nodup_iff, numbers]
    exact List.nodup_range
  exact all.sublist ((List.take_sublist _ _).map _)

/-- The entries that are not older than a message stand in front of those that are. -/
theorem parted_entries :
    (ofMessages n ms).entries.Pairwise fun a b => (!isOlder b.2 m) = true → (!isOlder a.2 m) = true := by
  rw [ofMessages_eq]
  refine (pairwise_ranked.sublist (List.take_sublist _ _)).imp ?_
  intro a b outlasts
  have order : b.2.time ≤ a.2.time := outlasts.elim le_of_lt fun same => same.1.le
  simp only [Bool.not_eq_true', ← Bool.not_eq_true, isOlder_iff, not_lt]
  exact fun late => late.trans order

/-- A place that is found by halving is the place where a message belongs. -/
theorem insert_at_partitionPoint : ((ofMessages n ms).insert m).entries =
    ((ofMessages n ms).entries.insertIdx
      (partitionPoint (fun e => !isOlder e.2 m) (ofMessages n ms).entries)
      ((ofMessages n ms).arrivals, m)).take (ofMessages n ms).capacity := by
  rw [partitionPoint_eq parted_entries, insertIdx_takeWhile]
  rfl

/-- A window holds the front of the stable sort of all that it was given, newest first, and gives it
out ordered by timestamp and arrival. The place of a message can be found by halving. -/
theorem window_sorts_all (n : Nat) (ms : List Message) :
    (SortsNewestFirst ms (newestFirst ms) ∧
      (ofMessages n ms).messages = (newestFirst ms).take n ∧
      (ofMessages n ms).size = min n ms.length) ∧
    (∀ m, ((ofMessages n ms).insert m).entries =
      ((ofMessages n ms).entries.insertIdx
        (partitionPoint (fun e => !isOlder e.2 m) (ofMessages n ms).entries)
        ((ofMessages n ms).arrivals, m)).take n) ∧
    ∃ out : List (Nat × Message), (ofMessages n ms).ascending = out.map (·.2) ∧
      out.Perm (ofMessages n ms).entries ∧ (out.map (·.1)).Nodup ∧
      (∀ a ∈ out, ms[a.1]? = some a.2) ∧
      out.Pairwise fun a b => a.2.time < b.2.time ∨ a.2.time = b.2.time ∧ a.1 < b.1 := by
  have entries : (ofMessages n ms).entries = (ranked ms).take n := by rw [ofMessages_eq]
  have capacity : (ofMessages n ms).capacity = n := by rw [ofMessages_eq]
  refine ⟨⟨newestFirst_sorts, ?_, ?_⟩, ?_, ?_⟩
  · rw [messages, entries, List.map_take, map_ranked]
  · rw [size, entries, List.length_take, perm_ranked.length_eq, length_numbered]
  · intro m
    rw [insert_at_partitionPoint, capacity]
  · have perm := List.mergeSort_perm ((ranked ms).take n) fun a b => decide (Precedes a b)
    have known : ∀ a ∈ (ranked ms).take n, a ∈ numbered ms :=
      fun a kept => perm_ranked.mem_iff.mp (List.mem_of_mem_take kept)
    have numbers := (perm.map (·.1)).nodup_iff.mpr (nodup_numbers n)
    refine ⟨_, ascending_ofMessages, entries ▸ perm, numbers, ?_, ?_⟩
    · intro a kept
      exact mem_numbered.mp (known a (perm.mem_iff.mp kept))
    · have ordered := pairwise_sort Precedes (fun _ _ => precedes_iff_le) ((ranked ms).take n)
      refine (ordered.and (List.pairwise_map.mp numbers)).imp ?_
      rintro a b ⟨precedes, apart⟩
      exact precedes.imp_right fun same => ⟨same.1, lt_of_le_of_ne same.2 apart⟩

end TailWindow
end TopicReader
