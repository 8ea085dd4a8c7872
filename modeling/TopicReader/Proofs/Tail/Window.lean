import Mathlib.Data.Int.Basic
import Mathlib.Data.List.Induction
import Mathlib.Data.List.Sort
import Mathlib.Data.Prod.Lex
import Mathlib.Order.WithBot
import TopicReader.Engine.TailWindow

/-! What a window keeps. However many messages it was given, it holds the newest of them: those that a
sort of all of them puts first. -/
namespace TopicReader

namespace Instant

/-- Where a timestamp stands among all others: by its seconds, then by its nanoseconds. The bottom is
for a missing one. -/
def Rank : Type := WithBot (ℤ ×ₗ ℕ)

instance : LinearOrder Rank := inferInstanceAs (LinearOrder (WithBot (ℤ ×ₗ ℕ)))

def rank : Option Instant → Rank
  | none => (⊥ : WithBot (ℤ ×ₗ ℕ))
  | some t => WithBot.some (toLex (t.seconds, t.nanos))

theorem missingOrBefore_iff {s t : Option Instant} :
    missingOrBefore s t = true ↔ rank s < rank t := by
  show _ ↔ @LT.lt (WithBot (ℤ ×ₗ ℕ)) _ (rank s) (rank t)
  cases s <;> cases t <;>
    simp [missingOrBefore, rank, before, Prod.Lex.toLex_lt_toLex, WithBot.coe_lt_coe]

theorem rank_injective : Function.Injective rank := by
  intro s t same
  cases s with
  | none =>
    cases t with
    | none => rfl
    | some t => exact absurd same WithBot.bot_ne_coe
  | some s =>
    cases t with
    | none => exact absurd same WithBot.coe_ne_bot
    | some t =>
      have pairs : (s.seconds, s.nanos) = (t.seconds, t.nanos) := WithBot.coe_injective same
      obtain ⟨seconds, nanos⟩ := Prod.mk.inj pairs
      cases s
      cases t
      simp_all

end Instant

/-- The time of a message. One without a timestamp is older than any other. -/
def Message.time (m : Message) : Instant.Rank := Instant.rank m.timestamp

namespace TailWindow

theorem isOlder_iff {m n : Message} : isOlder m n = true ↔ m.time < n.time :=
  Instant.missingOrBefore_iff

/-- Which of two messages, with their arrival numbers, is kept longer: the newer one, and of two of
the same time the one that came first. -/
def Outlasts (a b : Nat × Message) : Prop :=
  b.2.time < a.2.time ∨ b.2.time = a.2.time ∧ a.1 ≤ b.1

/-- Which of two messages is written first: the older one, and of two of the same time the one that
came first. -/
def Precedes (a b : Nat × Message) : Prop :=
  a.2.time < b.2.time ∨ a.2.time = b.2.time ∧ a.1 ≤ b.1

instance (a b : Nat × Message) : Decidable (Outlasts a b) := inferInstanceAs (Decidable (_ ∨ _))

instance (a b : Nat × Message) : Decidable (Precedes a b) := inferInstanceAs (Decidable (_ ∨ _))

/-- Messages with their arrival numbers. -/
def numbered (ms : List Message) : List (Nat × Message) := ms.mapIdx Prod.mk

def ranked (ms : List Message) : List (Nat × Message) :=
  (numbered ms).mergeSort fun a b => Outlasts a b

/-- The newest of some messages, as many as there are up to a number, in the order in which they are
written. -/
def newest (n : Nat) (ms : List Message) : List Message :=
  (((ranked ms).take n).mergeSort fun a b => Precedes a b).map (·.2)

/-- The window that was given some messages. -/
def ofMessages (n : Nat) (ms : List Message) : TailWindow := ms.foldl insert { capacity := n }

variable {a b c x : Nat × Message} {l : List (Nat × Message)} {n : Nat} {ms : List Message}
  {m : Message}

theorem precedes_iff : precedes a b = true ↔ Precedes a b := by
  simp only [precedes, Precedes, Bool.or_eq_true, Bool.and_eq_true, Bool.not_eq_true',
    decide_eq_true_eq, ← Bool.not_eq_true, isOlder_iff, not_lt]
  constructor
  · rintro (older | ⟨notNewer, first⟩)
    · exact .inl older
    · exact notNewer.lt_or_eq.imp_right fun same => ⟨same, first⟩
  · rintro (older | ⟨same, first⟩)
    · exact .inl older
    · exact .inr ⟨same.le, first⟩

theorem precedes_iff_le : Precedes a b ↔ toLex (a.2.time, a.1) ≤ toLex (b.2.time, b.1) := by
  rw [Prod.Lex.toLex_le_toLex]
  exact Iff.rfl

theorem outlasts_iff_le : Outlasts a b ↔
    toLex (OrderDual.toDual a.2.time, a.1) ≤ toLex (OrderDual.toDual b.2.time, b.1) := by
  simp only [Outlasts, Prod.Lex.toLex_le_toLex, OrderDual.toDual_lt_toDual, OrderDual.toDual_inj,
    eq_comm]

theorem pairwise_sort {α κ : Type} [LinearOrder κ] (le : α → α → Prop) [DecidableRel le]
    {key : α → κ} (ordered : ∀ a b, le a b ↔ key a ≤ key b) (l : List α) :
    (l.mergeSort fun a b => le a b).Pairwise le := by
  have sorted := @List.pairwise_mergeSort α (fun a b => decide (le a b)) ?_ ?_ l
  · simpa using sorted
  · simp only [decide_eq_true_eq, ordered]
    exact fun a b c => le_trans
  · simp only [Bool.or_eq_true, decide_eq_true_eq, ordered]
    exact fun a b => le_total _ _

theorem numbered_append : numbered (ms ++ [m]) = numbered ms ++ [(ms.length, m)] :=
  List.mapIdx_concat

theorem mem_numbered : a ∈ numbered ms ↔ ms[a.1]? = some a.2 := by
  obtain ⟨i, m⟩ := a
  simp only [numbered, List.mem_mapIdx, Prod.mk.injEq, List.getElem?_eq_some_iff]
  constructor
  · rintro ⟨i, bound, rfl, rfl⟩
    exact ⟨bound, rfl⟩
  · rintro ⟨bound, rfl⟩
    exact ⟨i, bound, rfl, rfl⟩

theorem length_numbered : (numbered ms).length = ms.length := List.length_mapIdx

theorem map_numbered : (numbered ms).map (·.2) = ms := by
  apply List.ext_getElem <;> simp [numbered]

theorem perm_ranked : (ranked ms).Perm (numbered ms) := List.mergeSort_perm _ _

theorem pairwise_ranked : (ranked ms).Pairwise Outlasts :=
  pairwise_sort Outlasts (fun _ _ => outlasts_iff_le) _

/-- A message goes behind all that are not older than it. -/
def place (x : Nat × Message) (l : List (Nat × Message)) : List (Nat × Message) :=
  l.orderedInsert (fun x a => a.2.time < x.2.time) x

theorem pairwise_place (sorted : l.Pairwise Outlasts) (later : ∀ a ∈ l, a.1 ≤ x.1) :
    (place x l).Pairwise Outlasts := by
  induction l with
  | nil => exact List.pairwise_singleton _ _
  | cons a rest ih =>
    obtain ⟨head, tail⟩ := List.pairwise_cons.mp sorted
    unfold place
    rw [List.orderedInsert_cons]
    split
    · rename_i older
      refine List.pairwise_cons.mpr ⟨?_, sorted⟩
      intro b member
      rcases List.mem_cons.mp member with rfl | member
      · exact .inl older
      · have after := outlasts_iff_le.mp (head b member)
        exact outlasts_iff_le.mpr (le_trans (outlasts_iff_le.mp (.inl older)) after)
    · rename_i notOlder
      refine List.pairwise_cons.mpr ⟨?_, ih tail fun b member => later b (.tail _ member)⟩
      intro b member
      rcases (List.mem_orderedInsert _).mp member with rfl | member
      · have first := later a List.mem_cons_self
        exact (not_lt.mp notOlder).lt_or_eq.imp_right fun same => ⟨same, first⟩
      · exact head b member

/-- What stands too far behind to be kept makes no difference to what is kept after it. -/
theorem take_place_take : (place x (l.take n)).take n = (place x l).take n := by
  induction l generalizing n with
  | nil => rw [List.take_nil]
  | cons a rest ih =>
    cases n with
    | zero => simp
    | succ n =>
      unfold place at ih ⊢
      rw [List.take_succ_cons, List.orderedInsert_cons, List.orderedInsert_cons]
      split
      · have kept : (a :: rest.take n).take n = (a :: rest).take n := by
          rw [← List.take_succ_cons, List.take_take, Nat.min_eq_left (Nat.le_succ n)]
        rw [List.take_succ_cons, List.take_succ_cons, kept]
      · rw [List.take_succ_cons, List.take_succ_cons, ih]

theorem eq_of_arrival (first : a ∈ numbered ms) (second : b ∈ numbered ms) (same : a.1 = b.1) :
    a = b := by
  rw [mem_numbered, same] at first
  exact Prod.ext same (Option.some.inj (first.symm.trans (mem_numbered.mp second)))

theorem perm_place : (place x l).Perm (l ++ [x]) :=
  (List.perm_orderedInsert _ _ _).trans (List.perm_append_singleton _ _).symm

/-- Giving a window one more message is as good as sorting it in among all others. -/
theorem place_ranked : place (ms.length, m) (ranked ms) = ranked (ms ++ [m]) := by
  have perm : (place (ms.length, m) (ranked ms)).Perm (numbered (ms ++ [m])) := by
    rw [numbered_append]
    exact perm_place.trans (perm_ranked.append_right _)
  refine List.Perm.eq_of_pairwise ?_ (pairwise_place pairwise_ranked ?_) pairwise_ranked
    (perm.trans perm_ranked.symm)
  · intro a b first second before after
    have same := (outlasts_iff_le.mp before).antisymm (outlasts_iff_le.mp after)
    exact eq_of_arrival (perm.mem_iff.mp first) (perm_ranked.mem_iff.mp second)
      (congrArg (fun key => (ofLex key).2) same)
  · intro a member
    obtain ⟨bound, _⟩ := List.getElem?_eq_some_iff.mp
      (mem_numbered.mp (perm_ranked.mem_iff.mp member))
    exact bound.le

theorem insert_eq (w : TailWindow) : w.insert m =
    ⟨w.capacity, w.arrivals + 1, (place (w.arrivals, m) w.entries).take w.capacity⟩ := by
  have same : (fun a : Nat × Message => !isOlder a.2 m) = fun a => decide ¬a.2.time < m.time := by
    funext a
    simp [← isOlder_iff]
  rw [place, List.orderedInsert_eq_take_drop, insert, same]

theorem ofMessages_append : ofMessages n (ms ++ [m]) = (ofMessages n ms).insert m := by
  rw [ofMessages, List.foldl_append]
  rfl

/-- A window holds the messages that outlast all others. -/
theorem ofMessages_eq : ofMessages n ms = ⟨n, ms.length, (ranked ms).take n⟩ := by
  induction ms using List.reverseRecOn with
  | nil => simp [ofMessages, ranked, numbered]
  | append_singleton ms m ih =>
    rw [ofMessages_append, ih, insert_eq, take_place_take, place_ranked, List.length_append,
      List.length_singleton]

/-- What a window has at its end to be written. -/
theorem ascending_ofMessages : (ofMessages n ms).ascending = newest n ms := by
  have same : precedes = fun a b => decide (Precedes a b) := by
    funext a b
    exact Bool.eq_iff_iff.mpr (precedes_iff.trans (decide_eq_true_iff).symm)
  rw [ofMessages_eq, ascending, newest, same]

theorem length_newest : (newest n ms).length = min n ms.length := by
  simp [newest, perm_ranked.length_eq, length_numbered]

theorem newest_nil : newest n [] = [] :=
  List.length_eq_zero_iff.mp (by simp [length_newest])

/-- A window keeps only what it was given. -/
theorem mem_of_mem_newest (member : m ∈ newest n ms) : m ∈ ms := by
  obtain ⟨a, kept, rfl⟩ := List.mem_map.mp member
  have ranked := List.mem_of_mem_take (List.mem_mergeSort.mp kept)
  exact List.mem_of_getElem? (mem_numbered.mp (perm_ranked.mem_iff.mp ranked))

end TailWindow
end TopicReader
