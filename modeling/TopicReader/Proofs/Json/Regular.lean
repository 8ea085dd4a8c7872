import Mathlib.Data.String.Basic
import TopicReader.Proofs.Json.Tree

/-! Values as they are read. Containers nest no deeper than in the document, and the members of an
object stand in ascending order of their names, one for each name, however often a name was given.
-/
namespace TopicReader.Json

variable {α : Type} {name other : String} {v : Value} {done members : List (String × Value)}

/-- Members in ascending order of their names, one for each name. -/
def Ascending (members : List (String × α)) : Prop := members.Pairwise fun a b => a.1 < b.1

theorem mem_insertMember {m : String × Value} (h : m ∈ insertMember name v members) :
    m = (name, v) ∨ m ∈ members := by
  induction members with
  | nil => exact .inl (List.mem_singleton.mp h)
  | cons first rest ih =>
    simp only [insertMember] at h
    split at h
    · exact List.mem_cons.mp h
    · split at h
      · exact (List.mem_cons.mp h).imp_right (List.mem_cons_of_mem _)
      · rcases List.mem_cons.mp h with same | later
        · exact .inr (same ▸ List.mem_cons_self)
        · exact (ih later).imp_right (List.mem_cons_of_mem _)

theorem ascending_insertMember (ascending : Ascending members) :
    Ascending (insertMember name v members) := by
  induction members with
  | nil => exact List.pairwise_singleton _ _
  | cons first rest ih =>
    obtain ⟨least, sorted⟩ := List.pairwise_cons.mp ascending
    simp only [insertMember]
    split
    · rename_i before
      refine List.pairwise_cons.mpr ⟨?_, ascending⟩
      intro m member
      rcases List.mem_cons.mp member with rfl | later
      · exact before
      · exact before.trans (least m later)
    · rename_i not_before
      split
      · rename_i same
        exact List.pairwise_cons.mpr ⟨same ▸ least, sorted⟩
      · rename_i different
        refine List.pairwise_cons.mpr ⟨?_, ih sorted⟩
        intro m member
        rcases mem_insertMember member with rfl | later
        · exact lt_of_le_of_ne (not_lt.mp not_before) (Ne.symm different)
        · exact least m later

/-- A name that comes after all others is put last. -/
theorem insertMember_last (last : ∀ m ∈ members, m.1 < name) :
    insertMember name v members = members ++ [(name, v)] := by
  induction members with
  | nil => rfl
  | cons first rest ih =>
    have before := last first List.mem_cons_self
    simp only [insertMember, if_neg before.asymm, if_neg before.ne', List.cons_append,
      ih fun m member => last m (List.mem_cons_of_mem _ member)]

theorem insertMembers_append (ascending : Ascending (done ++ members)) :
    insertMembers done members = done ++ members := by
  induction members generalizing done with
  | nil => simp
  | cons first rest ih =>
    obtain ⟨_, _, across⟩ := List.pairwise_append.mp ascending
    have last : ∀ m ∈ done, m.1 < first.1 := fun m member => across m member _ List.mem_cons_self
    have regrouped : done ++ first :: rest = (done ++ [first]) ++ rest := by simp
    rw [insertMembers_cons, insertMember_last last]
    rw [regrouped] at ascending ⊢
    exact ih ascending

/-- Members that are in order already stay as they are. -/
theorem insertMembers_ascending (ascending : Ascending members) :
    insertMembers [] members = members :=
  insertMembers_append ascending

theorem lookup_cons_eq {x : α} {rest : List (String × α)} :
    ((name, x) :: rest).lookup other = if other = name then some x else rest.lookup other := by
  by_cases same : other = name
  · rw [if_pos same, List.lookup_cons, beq_iff_eq.mpr same]
  · rw [if_neg same, List.lookup_cons, beq_eq_false_iff_ne.mpr same]

theorem lookup_insertMember : (insertMember name v members).lookup other =
    if other = name then some v else members.lookup other := by
  induction members with
  | nil => exact lookup_cons_eq
  | cons first rest ih =>
    obtain ⟨key, w⟩ := first
    simp only [insertMember]
    split
    · exact lookup_cons_eq
    · split
      · rename_i same
        rw [lookup_cons_eq, lookup_cons_eq, ← same]
        split <;> rfl
      · rename_i different
        rw [lookup_cons_eq, lookup_cons_eq, ih]
        by_cases found : other = key
        · rw [if_pos found, if_pos found, if_neg (found ▸ Ne.symm different)]
        · rw [if_neg found, if_neg found]

theorem lookup_insertMembers_or : (insertMembers done members).lookup name =
    (members.reverse.lookup name).or (done.lookup name) := by
  induction members generalizing done with
  | nil => rfl
  | cons first rest ih =>
    obtain ⟨key, w⟩ := first
    rw [insertMembers_cons, ih, lookup_insertMember, List.reverse_cons, List.lookup_append,
      Option.or_assoc, lookup_cons_eq]
    split <;> rfl

/-- The value of a name is the last one that it was given. -/
theorem lookup_insertMembers : (insertMembers [] members).lookup name = members.reverse.lookup name :=
  lookup_insertMembers_or.trans Option.or_none

namespace Value

/-- Containers nest at most so deep, the members of each object are in order, and each number is as
given. -/
inductive Regular (fits : Number → Prop) : Nat → Value → Prop where
  | null {d} : Regular fits d .null
  | bool {d b} : Regular fits d (.bool b)
  | number {d n} (fit : fits n) : Regular fits d (.number n)
  | text {d s} : Regular fits d (.text s)
  | array {d items} (all : ∀ v ∈ items, Regular fits d v) : Regular fits (d + 1) (.array items)
  | object {d members} (ascending : Ascending members) (all : ∀ m ∈ members, Regular fits d m.2) :
      Regular fits (d + 1) (.object members)

end Value

variable {fits : Number → Prop} {phrase : Phrase} {d : Nat} {s rest : Bytes}

theorem insertMembers_regular (ascending : Ascending done) (first : ∀ m ∈ done, m.2.Regular fits d)
    (all : ∀ m ∈ members, m.2.Regular fits d) : Ascending (insertMembers done members) ∧
      ∀ m ∈ insertMembers done members, m.2.Regular fits d := by
  induction members generalizing done with
  | nil => exact ⟨ascending, first⟩
  | cons m rest ih =>
    obtain ⟨regular, later⟩ := List.forall_mem_cons.mp all
    refine ih (ascending_insertMember ascending) ?_ later
    intro other member
    rcases mem_insertMember member with rfl | before
    · exact regular
    · exact first other before

/-- What the values of each part of a document are like. -/
def Settles (fits : Number → Prop) (d : Nat) : Phrase → Prop
  | .value t | .member _ t => ∀ v, t.value? = some v → v.Regular fits d
  | .items ts => ∀ values, Tree.itemValues? ts = some values → ∀ v ∈ values, v.Regular fits d
  | .members ms => ∀ values, Tree.memberValues? ms = some values → ∀ m ∈ values, m.2.Regular fits d

theorem Spells.settles (h : Spells d phrase s rest)
    (numbers : ∀ l ∈ phrase.literals, ∀ n, l.value? = some n → fits n) : Settles fits d phrase := by
  induction h with
  | null =>
    rintro v ⟨⟩
    exact .null
  | yes | no =>
    rintro v ⟨⟩
    exact .bool
  | @number d l rest =>
    intro v value
    obtain ⟨n, number, rfl⟩ := Option.map_eq_some_iff.mp value
    exact .number (numbers l (List.mem_singleton.mpr rfl) n number)
  | text means =>
    rintro v ⟨⟩
    exact .text
  | emptyArray close =>
    rintro v ⟨⟩
    exact .array (by simp)
  | array first more ih_first ih_more =>
    intro v value
    obtain ⟨front, back⟩ := List.forall_mem_append.mp numbers
    obtain ⟨_, values, rfl⟩ := Option.map_eq_some_iff.mp value
    obtain ⟨x, x_value, xs, xs_values, rfl⟩ := Tree.itemValues?_cons.mp values
    exact .array (List.forall_mem_cons.mpr ⟨ih_first front x x_value, ih_more back xs xs_values⟩)
  | emptyObject close =>
    rintro v ⟨⟩
    exact .object .nil (by simp)
  | @object d name t ms s u rest first more ih_first ih_more =>
    intro v value
    obtain ⟨front, back⟩ := List.forall_mem_append.mp numbers
    obtain ⟨_, values, rfl⟩ := Option.map_eq_some_iff.mp value
    obtain ⟨x, x_value, xs, xs_values, rfl⟩ := Tree.memberValues?_cons.mp values
    have regular : ∀ m ∈ (name, x) :: xs, m.2.Regular fits d :=
      List.forall_mem_cons.mpr ⟨ih_first front x x_value, ih_more back xs xs_values⟩
    obtain ⟨ascending, all⟩ := insertMembers_regular .nil (by simp) regular
    exact .object ascending all
  | lastItem =>
    rintro values ⟨⟩
    simp
  | nextItem item more ih_item ih_more =>
    intro values all
    obtain ⟨front, back⟩ := List.forall_mem_append.mp numbers
    obtain ⟨x, x_value, xs, xs_values, rfl⟩ := Tree.itemValues?_cons.mp all
    exact List.forall_mem_cons.mpr ⟨ih_item front x x_value, ih_more back xs xs_values⟩
  | lastMember =>
    rintro values ⟨⟩
    simp
  | nextMember member more ih_member ih_more =>
    intro values all
    obtain ⟨front, back⟩ := List.forall_mem_append.mp numbers
    obtain ⟨x, x_value, xs, xs_values, rfl⟩ := Tree.memberValues?_cons.mp all
    exact List.forall_mem_cons.mpr ⟨ih_member front x x_value, ih_more back xs xs_values⟩
  | member means colon value ih => exact ih numbers

/-- The value of a document is regular. -/
theorem Written.regular {t : Tree} (h : Written d t s) (value : t.value? = some v)
    (numbers : ∀ l ∈ t.literals, ∀ n, l.value? = some n → fits n) : v.Regular fits d := by
  obtain ⟨rest, spells, _⟩ := h
  exact spells.settles numbers v value

end TopicReader.Json
