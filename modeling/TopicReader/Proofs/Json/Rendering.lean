import TopicReader.Proofs.Json.NumberWriting
import TopicReader.Proofs.Json.Place
import TopicReader.Proofs.Json.TextWriting
import TopicReader.Proofs.Json.Unambiguous

/-! Values as they are laid out. What is written for a regular value is a document again, and its tree
has at each place what the value has there; so it reads as the same value, as long as all numbers are
exact. -/
namespace TopicReader.Json

variable {fits : Number → Prop} {phrase : Phrase} {d level outer : Nat} {s rest : Bytes} {v : Value}

namespace Value

mutual

/-- The tree that a value is written as. -/
noncomputable def tree : Value → Tree
  | .null => .null
  | .bool b => .bool b
  | .number n => .number n.literal
  | .text s => .text s
  | .array items => .array (itemTrees items)
  | .object members => .object (memberTrees members)

noncomputable def itemTrees : List Value → List Tree
  | [] => []
  | v :: rest => v.tree :: itemTrees rest

noncomputable def memberTrees : List (String × Value) → List (String × Tree)
  | [] => []
  | (name, v) :: rest => (name, v.tree) :: memberTrees rest

end

end Value

theorem skipSpace_newline : skipSpace (Utf8.bytes (newline level) ++ s) = skipSpace s := by
  rw [skipSpace, List.dropWhile_append_of_pos]
  · rfl
  · intro b member
    obtain ⟨c, inside, byte⟩ := List.mem_flatMap.mp member
    rcases List.mem_cons.mp inside with rfl | space
    · exact List.mem_singleton.mp byte ▸ rfl
    · obtain rfl := List.eq_of_mem_replicate space
      exact List.mem_singleton.mp byte ▸ rfl

namespace Spells

/-- No part of a document begins with white space. -/
theorem skipSpace_eq (h : Spells d phrase s rest) : skipSpace s = s := by
  obtain ⟨b, tail, rfl, other⟩ : ∃ b tail, s = b :: tail ∧ isSpace b = false := by
    cases h with
    | @number d l rest =>
      obtain ⟨b, first, sign_or_digit⟩ := l.head rest
      obtain ⟨tail, shape⟩ := List.head?_eq_some_iff.mp first
      refine ⟨b, tail, shape, ?_⟩
      rcases sign_or_digit with rfl | digit
      · rfl
      · exact Scan.not_space_of_isDigit digit
    | _ => exact ⟨_, _, rfl, rfl⟩
  exact List.dropWhile_cons_of_neg (by simp [other])

/-- A part may be moved to a line of its own. -/
theorem indented (h : Spells d phrase s rest) :
    Spells d phrase (skipSpace (Utf8.bytes (newline level) ++ s)) rest := by
  rw [skipSpace_newline, h.skipSpace_eq]
  exact h

end Spells

section

open Value

/-- The rest of an array that has been laid out up to an item. -/
theorem spells_prettyItems {items : List Value}
    (each : ∀ v ∈ items, ∀ level rest,
      Spells d (.value v.tree) (Utf8.bytes (v.pretty level) ++ rest) rest) :
    Spells d (.items (itemTrees items)) (skipSpace (Utf8.bytes (prettyItems level items) ++
      (Utf8.bytes (newline outer) ++ 0x5D :: rest))) rest := by
  induction items with
  | nil =>
    have last : Spells d (.items []) (0x5D :: rest) rest := .lastItem
    exact last.indented
  | cons v more ih =>
    obtain ⟨first, later⟩ := List.forall_mem_cons.mp each
    have comma : Utf8.bytes (prettyItems level (v :: more)) ++
        (Utf8.bytes (newline outer) ++ 0x5D :: rest) =
          0x2C :: (Utf8.bytes (newline level) ++ (Utf8.bytes (v.pretty level) ++
            (Utf8.bytes (prettyItems level more) ++
              (Utf8.bytes (newline outer) ++ 0x5D :: rest)))) := by
      have byte : String.utf8EncodeChar ',' = [0x2C] := rfl
      simp [prettyItems, Utf8.bytes, byte]
    rw [comma]
    exact .nextItem (first level _).indented (ih later)

/-- A member is its name, a colon and a value. -/
theorem spells_pretty_member {name : String}
    (value : ∀ level rest, Spells d (.value v.tree) (Utf8.bytes (v.pretty level) ++ rest) rest) :
    Spells d (.member name v.tree)
      (Utf8.bytes (Text.quoted name ++ ':' :: ' ' :: v.pretty level) ++ rest) rest := by
  have written : Utf8.bytes (Text.quoted name ++ ':' :: ' ' :: v.pretty level) ++ rest =
      0x22 :: (Utf8.bytes (name.toList.flatMap Text.escape) ++ 0x22 ::
        (0x3A :: 0x20 :: (Utf8.bytes (v.pretty level) ++ rest))) := by
    have colon : Utf8.bytes (':' :: ' ' :: v.pretty level) =
        0x3A :: 0x20 :: Utf8.bytes (v.pretty level) := rfl
    simp [Text.bytes_quoted, colon]
  rw [written]
  refine .member (Text.means_written name) rfl ?_
  have begun := value level rest
  exact begun.skipSpace_eq.symm ▸ begun

theorem spells_prettyMembers {members : List (String × Value)}
    (each : ∀ m ∈ members, ∀ level rest,
      Spells d (.value m.2.tree) (Utf8.bytes (m.2.pretty level) ++ rest) rest) :
    Spells d (.members (memberTrees members)) (skipSpace (Utf8.bytes (prettyMembers level members) ++
      (Utf8.bytes (newline outer) ++ 0x7D :: rest))) rest := by
  induction members with
  | nil =>
    have last : Spells d (.members []) (0x7D :: rest) rest := .lastMember
    exact last.indented
  | cons m more ih =>
    obtain ⟨name, v⟩ := m
    obtain ⟨first, later⟩ := List.forall_mem_cons.mp each
    have comma : Utf8.bytes (prettyMembers level ((name, v) :: more)) ++
        (Utf8.bytes (newline outer) ++ 0x7D :: rest) =
          0x2C :: (Utf8.bytes (newline level) ++
            (Utf8.bytes (Text.quoted name ++ ':' :: ' ' :: v.pretty level) ++
              (Utf8.bytes (prettyMembers level more) ++
                (Utf8.bytes (newline outer) ++ 0x7D :: rest)))) := by
      have byte : String.utf8EncodeChar ',' = [0x2C] := rfl
      simp [prettyMembers, Utf8.bytes, byte]
    rw [comma]
    exact .nextMember (spells_pretty_member first).indented (ih later)

/-- What is written for a value spells its tree, at any indentation and before any text. -/
theorem spells_pretty (regular : v.Regular fits d) (level : Nat) (rest : Bytes) :
    Spells d (.value v.tree) (Utf8.bytes (v.pretty level) ++ rest) rest := by
  induction regular generalizing level rest with
  | null => exact .null
  | @bool d b =>
    cases b with
    | true => exact .yes
    | false => exact .no
  | @number d n fit =>
    rw [Value.pretty, ← n.literal_bytes]
    exact .number
  | @text d s =>
    have written : Spells d (.value (.text s)) _ rest := .text (Text.means_written s)
    simpa [Value.tree, Value.pretty, Text.bytes_quoted] using written
  | @array d items all ih =>
    cases items with
    | nil => exact .emptyArray rfl
    | cons v more =>
      obtain ⟨first, later⟩ := List.forall_mem_cons.mp ih
      have written : Utf8.bytes (Value.pretty level (.array (v :: more))) ++ rest =
          0x5B :: (Utf8.bytes (newline (level + 1)) ++ (Utf8.bytes (v.pretty (level + 1)) ++
            (Utf8.bytes (prettyItems (level + 1) more) ++
              (Utf8.bytes (newline level) ++ 0x5D :: rest)))) := by
        have opening : String.utf8EncodeChar '[' = [0x5B] := rfl
        have closing : String.utf8EncodeChar ']' = [0x5D] := rfl
        simp [Value.pretty, Utf8.bytes, opening, closing]
      rw [written]
      exact .array (first (level + 1) _).indented (spells_prettyItems later)
  | @object d members ascending all ih =>
    cases members with
    | nil => exact .emptyObject rfl
    | cons m more =>
      obtain ⟨name, v⟩ := m
      obtain ⟨first, later⟩ := List.forall_mem_cons.mp ih
      have written : Utf8.bytes (Value.pretty level (.object ((name, v) :: more))) ++ rest =
          0x7B :: (Utf8.bytes (newline (level + 1)) ++
            (Utf8.bytes (Text.quoted name ++ ':' :: ' ' :: v.pretty (level + 1)) ++
              (Utf8.bytes (prettyMembers (level + 1) more) ++
                (Utf8.bytes (newline level) ++ 0x7D :: rest)))) := by
        have opening : String.utf8EncodeChar '\x7b' = [0x7B] := rfl
        have closing : String.utf8EncodeChar '\x7d' = [0x7D] := rfl
        simp [Value.pretty, Utf8.bytes, opening, closing]
      rw [written]
      exact .object (spells_pretty_member first).indented (spells_prettyMembers later)

/-- An integer is spelled by its digits. -/
theorem spells_ofInt (k : Int) (rest : Bytes) :
    Spells d (.value (.number (.ofInt k))) (Utf8.bytes (Decimal.chars k) ++ rest) rest :=
  have regular : (Value.number (.whole k)).Regular (fun _ => True) d := .number trivial
  spells_pretty regular 0 rest

/-- The bytes of a document that has been laid out. -/
def Value.bytes (v : Value) : Bytes := Utf8.encode (String.ofList (v.pretty 0))

/-- What is laid out is a document, written as the tree of the value. -/
theorem Value.Regular.written (regular : v.Regular fits d) : Written d v.tree v.bytes := by
  have spells := spells_pretty regular 0 []
  refine ⟨[], ?_, rfl⟩
  rw [List.append_nil] at spells
  rw [Value.bytes, Utf8.encode_eq, String.toList_ofList, spells.skipSpace_eq]
  exact spells

end

namespace Value

theorem itemTrees_eq_map (items : List Value) : itemTrees items = items.map tree := by
  induction items with
  | nil => rfl
  | cons v rest ih => rw [itemTrees, ih, List.map_cons]

theorem memberTrees_eq_map (members : List (String × Value)) :
    memberTrees members = members.map fun m => (m.1, m.2.tree) := by
  induction members with
  | nil => rfl
  | cons m rest ih => rw [memberTrees, ih, List.map_cons]

theorem itemValues?_itemTrees {items : List Value}
    (each : ∀ v ∈ items, v.tree.value? = some v) :
    Tree.itemValues? (itemTrees items) = some items := by
  induction items with
  | nil => rfl
  | cons v rest ih =>
    obtain ⟨first, later⟩ := List.forall_mem_cons.mp each
    exact Tree.itemValues?_cons.mpr ⟨v, first, rest, ih later, rfl⟩

theorem memberValues?_memberTrees {members : List (String × Value)}
    (each : ∀ m ∈ members, m.2.tree.value? = some m.2) :
    Tree.memberValues? (memberTrees members) = some members := by
  induction members with
  | nil => rfl
  | cons m rest ih =>
    obtain ⟨first, later⟩ := List.forall_mem_cons.mp each
    exact Tree.memberValues?_cons.mpr ⟨m.2, first, rest, ih later, rfl⟩

/-- A value is the value of its tree, if this is so for its numbers. -/
theorem Regular.tree_value (regular : v.Regular fits d)
    (numbers : ∀ n, fits n → n.literal.value? = some n) : v.tree.value? = some v := by
  induction regular with
  | null | bool | text => rfl
  | number fit => rw [tree, Tree.value?, numbers _ fit, Option.map_some]
  | array all ih => rw [tree, Tree.value?, itemValues?_itemTrees ih, Option.map_some]
  | @object d members ascending all ih =>
    rw [tree, Tree.value?, memberValues?_memberTrees ih, Option.map_some,
      insertMembers_ascending ascending]

variable {step : Step} {path : List Step} {w : Value} {name : String}

theorem lookup_memberTrees (members : List (String × Value)) :
    (memberTrees members).lookup name = (members.lookup name).map tree := by
  induction members with
  | nil => rfl
  | cons m rest ih =>
    rw [memberTrees, lookup_cons_eq, lookup_cons_eq, ih]
    split <;> rfl

/-- Of members in order, the last one of a name is the only one. -/
theorem lookup_reverse {members : List (String × Value)} (ascending : Ascending members) :
    members.reverse.lookup name = members.lookup name := by
  rw [← lookup_insertMembers, insertMembers_ascending ascending]

theorem Regular.child_tree (regular : v.Regular fits d) :
    v.tree.child? step = (v.child? step).map tree := by
  cases regular with
  | null | bool | text | number => rfl
  | @array d items all =>
    cases step with
    | item index => rw [tree, Tree.child?, child?, itemTrees_eq_map, List.getElem?_map]
    | member name => rfl
  | @object d members ascending all =>
    cases step with
    | item index => rfl
    | member name =>
      have reversed : (memberTrees members).reverse = memberTrees members.reverse := by
        rw [memberTrees_eq_map, memberTrees_eq_map, List.map_reverse]
      rw [tree, Tree.child?, child?, reversed, lookup_memberTrees, lookup_reverse ascending]

theorem mem_of_lookup {members : List (String × Value)} (found : members.lookup name = some w) :
    (name, w) ∈ members := by
  obtain ⟨before, after, rfl, _⟩ := List.lookup_eq_some_iff.mp found
  exact List.mem_append_right before List.mem_cons_self

theorem Regular.child (regular : v.Regular fits d) (held : v.child? step = some w) :
    ∃ e, w.Regular fits e := by
  cases regular with
  | null | bool | text | number => cases held
  | array all =>
    cases step with
    | item index => exact ⟨_, all w (List.mem_of_getElem? held)⟩
    | member name => cases held
  | object ascending all =>
    cases step with
    | item index => cases held
    | member name => exact ⟨_, all (name, w) (mem_of_lookup held)⟩

theorem Regular.at_regular (regular : v.Regular fits d) (held : v.at? path = some w) :
    ∃ e, w.Regular fits e := by
  induction path generalizing v d with
  | nil =>
    cases held
    exact ⟨d, regular⟩
  | cons step path ih =>
    obtain ⟨u, inside, later⟩ := Option.bind_eq_some_iff.mp held
    obtain ⟨e, inner⟩ := regular.child inside
    exact ih inner later

/-- At each place, the names of an object are in the order of their bytes. -/
theorem Regular.names_ascending {members : List (String × Value)} (regular : v.Regular fits d)
    (held : v.at? path = some (.object members)) :
    (members.map fun m => Utf8.encode m.1).Pairwise (· < ·) := by
  obtain ⟨e, object⟩ := regular.at_regular held
  cases object with
  | object ascending all => exact List.pairwise_map.mpr (ascending.imp Utf8.encode_lt)

/-- At each place, the tree holds the tree of what the value has there. -/
theorem Regular.at_tree (regular : v.Regular fits d) :
    v.tree.at? path = (v.at? path).map tree := by
  induction path generalizing v d with
  | nil => rfl
  | cons step path ih =>
    rw [Tree.at?, at?, regular.child_tree]
    cases held : v.child? step with
    | none => rfl
    | some w =>
      obtain ⟨e, inner⟩ := regular.child held
      exact ih inner

end Value
end TopicReader.Json
