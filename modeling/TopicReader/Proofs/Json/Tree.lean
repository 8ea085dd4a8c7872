import TopicReader.Proofs.Json.NumberReading
import TopicReader.Proofs.Json.TextReading

/-! Documents as they are written. A tree keeps the digits of every number and all members of an
object, also those of one name. Each derivation of the grammar whose texts stand for texts spells a
tree, and a tree has a value if and only if none of its numbers is too large. -/
namespace TopicReader.Json

open Grammar

inductive Tree where
  | null
  | bool (b : Bool)
  | number (l : Literal)
  | text (s : String)
  | array (items : List Tree)
  | object (members : List (String × Tree))

/-- A number is not too large. -/
def Literal.Fits (l : Literal) : Prop := ∃ v, l.value? = some v

/-- Members put into place one after the other. -/
def insertMembers (done members : List (String × Value)) : List (String × Value) :=
  members.foldl (fun done m => insertMember m.1 m.2 done) done

@[simp] theorem insertMembers_nil (done : List (String × Value)) : insertMembers done [] = done := rfl

@[simp] theorem insertMembers_cons (done rest : List (String × Value)) (name : String) (v : Value) :
    insertMembers done ((name, v) :: rest) = insertMembers (insertMember name v done) rest := rfl

namespace Tree

mutual

/-- The numbers of a tree, in the order in which they are written. -/
def literals : Tree → List Literal
  | .null | .bool _ | .text _ => []
  | .number l => [l]
  | .array items => itemLiterals items
  | .object members => memberLiterals members

def itemLiterals : List Tree → List Literal
  | [] => []
  | t :: rest => t.literals ++ itemLiterals rest

def memberLiterals : List (String × Tree) → List Literal
  | [] => []
  | (_, t) :: rest => t.literals ++ memberLiterals rest

end

mutual

/-- The value of a tree, unless one of its numbers is too large. -/
def value? : Tree → Option Value
  | .null => some .null
  | .bool b => some (.bool b)
  | .number l => l.value?.map .number
  | .text s => some (.text s)
  | .array items => (itemValues? items).map .array
  | .object members => (memberValues? members).map fun values => .object (insertMembers [] values)

def itemValues? : List Tree → Option (List Value)
  | [] => some []
  | t :: rest => do return (← t.value?) :: (← itemValues? rest)

def memberValues? : List (String × Tree) → Option (List (String × Value))
  | [] => some []
  | (name, t) :: rest => do return (name, ← t.value?) :: (← memberValues? rest)

end

theorem itemValues?_cons {t : Tree} {ts : List Tree} {values : List Value} :
    itemValues? (t :: ts) = some values ↔
      ∃ v, t.value? = some v ∧ ∃ vs, itemValues? ts = some vs ∧ v :: vs = values := by
  simp [itemValues?, Option.bind_eq_some_iff]

theorem memberValues?_cons {name : String} {t : Tree} {ms : List (String × Tree)}
    {values : List (String × Value)} :
    memberValues? ((name, t) :: ms) = some values ↔
      ∃ v, t.value? = some v ∧ ∃ vs, memberValues? ms = some vs ∧ (name, v) :: vs = values := by
  simp [memberValues?, Option.bind_eq_some_iff]

mutual

theorem fits_iff : ∀ t : Tree, t.value?.isSome = true ↔ ∀ l ∈ t.literals, l.Fits
  | .null | .bool _ | .text _ => by simp [value?, literals]
  | .number l => by simp [value?, literals, Literal.Fits, Option.isSome_iff_exists]
  | .array items => by simpa [value?, literals] using items_fit_iff items
  | .object members => by simpa [value?, literals] using members_fit_iff members

theorem items_fit_iff : ∀ ts : List Tree,
    (itemValues? ts).isSome = true ↔ ∀ l ∈ itemLiterals ts, l.Fits
  | [] => by simp [itemValues?, itemLiterals]
  | t :: rest => by
    rw [itemLiterals, List.forall_mem_append, ← fits_iff t, ← items_fit_iff rest]
    cases first : t.value? <;> cases more : itemValues? rest <;> simp [itemValues?, first, more]

theorem members_fit_iff : ∀ ms : List (String × Tree),
    (memberValues? ms).isSome = true ↔ ∀ l ∈ memberLiterals ms, l.Fits
  | [] => by simp [memberValues?, memberLiterals]
  | (name, t) :: rest => by
    rw [memberLiterals, List.forall_mem_append, ← fits_iff t, ← members_fit_iff rest]
    cases first : t.value? <;> cases more : memberValues? rest <;> simp [memberValues?, first, more]

end

/-- What the first byte of a tree may be. -/
def Begins : Tree → UInt8 → Prop
  | .null, b => b = 0x6E
  | .bool true, b => b = 0x74
  | .bool false, b => b = 0x66
  | .number _, b => b = 0x2D ∨ isDigit b = true
  | .text _, b => b = 0x22
  | .array _, b => b = 0x5B
  | .object _, b => b = 0x7B

end Tree

/-- The parts of a document, with what they hold. -/
inductive Phrase where
  | value (t : Tree)
  | items (ts : List Tree)
  | members (ms : List (String × Tree))
  | member (name : String) (t : Tree)

namespace Phrase

def part : Phrase → Part
  | .value _ => .value
  | .items _ => .items
  | .members _ => .members
  | .member _ _ => .member

def literals : Phrase → List Literal
  | .value t => t.literals
  | .items ts => Tree.itemLiterals ts
  | .members ms => Tree.memberLiterals ms
  | .member _ t => t.literals

end Phrase

/-- A derivation of the grammar, with what it spells. -/
inductive Spells : Nat → Phrase → Bytes → Bytes → Prop where
  | null {d rest} : Spells d (.value .null) (0x6E :: 0x75 :: 0x6C :: 0x6C :: rest) rest
  | yes {d rest} : Spells d (.value (.bool true)) (0x74 :: 0x72 :: 0x75 :: 0x65 :: rest) rest
  | no {d rest} :
      Spells d (.value (.bool false)) (0x66 :: 0x61 :: 0x6C :: 0x73 :: 0x65 :: rest) rest
  | number {d l rest} : Spells d (.value (.number l)) (l.bytes ++ rest) rest
  | text {d c text rest} (means : Means c text) :
      Spells d (.value (.text text)) (0x22 :: (c ++ 0x22 :: rest)) rest
  | emptyArray {d s rest} (close : skipSpace s = 0x5D :: rest) :
      Spells (d + 1) (.value (.array [])) (0x5B :: s) rest
  | array {d v ts s t rest} (first : Spells d (.value v) (skipSpace s) t)
      (more : Spells d (.items ts) (skipSpace t) rest) :
      Spells (d + 1) (.value (.array (v :: ts))) (0x5B :: s) rest
  | emptyObject {d s rest} (close : skipSpace s = 0x7D :: rest) :
      Spells (d + 1) (.value (.object [])) (0x7B :: s) rest
  | object {d name v ms s t rest} (first : Spells d (.member name v) (skipSpace s) t)
      (more : Spells d (.members ms) (skipSpace t) rest) :
      Spells (d + 1) (.value (.object ((name, v) :: ms))) (0x7B :: s) rest
  | lastItem {d rest} : Spells d (.items []) (0x5D :: rest) rest
  | nextItem {d v ts s t rest} (item : Spells d (.value v) (skipSpace s) t)
      (more : Spells d (.items ts) (skipSpace t) rest) :
      Spells d (.items (v :: ts)) (0x2C :: s) rest
  | lastMember {d rest} : Spells d (.members []) (0x7D :: rest) rest
  | nextMember {d name v ms s t rest} (member : Spells d (.member name v) (skipSpace s) t)
      (more : Spells d (.members ms) (skipSpace t) rest) :
      Spells d (.members ((name, v) :: ms)) (0x2C :: s) rest
  | member {d c name v s t rest} (means : Means c name) (colon : skipSpace s = 0x3A :: t)
      (value : Spells d (.value v) (skipSpace t) rest) :
      Spells d (.member name v) (0x22 :: (c ++ 0x22 :: s)) rest

/-- A document is one tree with white space around it. -/
def Written (depth : Nat) (t : Tree) (s : Bytes) : Prop :=
  ∃ rest, Spells depth (.value t) (skipSpace s) rest ∧ skipSpace rest = []

variable {number : Literal → Prop} {part : Part} {phrase : Phrase} {d : Nat} {s rest : Bytes}
  {t : Tree}

namespace Spells

theorem derives (h : Spells d phrase s rest) (numbers : ∀ l ∈ phrase.literals, number l) :
    Derives number Decodable phrase.part d s rest := by
  have decodable {c : Bytes} {text : String} (means : Means c text) : Decodable c :=
    decodable_iff.mpr ⟨text, means⟩
  induction h with
  | @null d rest => exact .word (w := [0x6E, 0x75, 0x6C, 0x6C]) (by simp [words])
  | @yes d rest => exact .word (w := [0x74, 0x72, 0x75, 0x65]) (by simp [words])
  | @no d rest => exact .word (w := [0x66, 0x61, 0x6C, 0x73, 0x65]) (by simp [words])
  | number => exact .number (numbers _ (List.mem_singleton.mpr rfl))
  | text means => exact .text (Text.content_of_decodable (decodable means)) (decodable means)
  | emptyArray close => exact .emptyArray close
  | array first more ih_first ih_more =>
    obtain ⟨front, back⟩ := List.forall_mem_append.mp numbers
    exact .array (ih_first front) (ih_more back)
  | emptyObject close => exact .emptyObject close
  | object first more ih_first ih_more =>
    obtain ⟨front, back⟩ := List.forall_mem_append.mp numbers
    exact .object (ih_first front) (ih_more back)
  | lastItem => exact .lastItem
  | nextItem item more ih_item ih_more =>
    obtain ⟨front, back⟩ := List.forall_mem_append.mp numbers
    exact .nextItem (ih_item front) (ih_more back)
  | lastMember => exact .lastMember
  | nextMember member more ih_member ih_more =>
    obtain ⟨front, back⟩ := List.forall_mem_append.mp numbers
    exact .nextMember (ih_member front) (ih_more back)
  | member means colon value ih =>
    exact .member (Text.content_of_decodable (decodable means)) (decodable means) colon (ih numbers)

/-- The derivation alone, whatever the numbers are. -/
theorem shape (h : Spells d phrase s rest) :
    Derives (fun _ => True) Decodable phrase.part d s rest :=
  h.derives fun _ _ => trivial

/-- What follows a value within a container ends a number, white space or not. -/
theorem delimited (h : Spells d phrase (skipSpace s) rest)
    (inside : phrase.part = .items ∨ phrase.part = .members) : Delimited s :=
  delimited_of_skipSpace (h.shape.delimited inside)

end Spells

/-- What a derivation spells, part by part. -/
def Spelled (number : Literal → Prop) (d : Nat) (s rest : Bytes) : Part → Prop
  | .value => ∃ t, Spells d (.value t) s rest ∧ ∀ l ∈ t.literals, number l
  | .items => ∃ ts, Spells d (.items ts) s rest ∧ ∀ l ∈ Tree.itemLiterals ts, number l
  | .members => ∃ ms, Spells d (.members ms) s rest ∧ ∀ l ∈ Tree.memberLiterals ms, number l
  | .member => ∃ name t, Spells d (.member name t) s rest ∧ ∀ l ∈ t.literals, number l

theorem Derives.spelled (h : Derives number Decodable part d s rest) :
    Spelled number d s rest part := by
  induction h with
  | word known =>
    simp only [words, List.mem_cons, List.not_mem_nil, or_false] at known
    rcases known with rfl | rfl | rfl
    · exact ⟨_, .yes, by simp [Tree.literals]⟩
    · exact ⟨_, .no, by simp [Tree.literals]⟩
    · exact ⟨_, .null, by simp [Tree.literals]⟩
  | number fits => exact ⟨_, .number, by simpa [Tree.literals] using fits⟩
  | text content fits =>
    obtain ⟨text, means⟩ := decodable_iff.mp fits
    exact ⟨_, .text means, by simp [Tree.literals]⟩
  | emptyArray close => exact ⟨_, .emptyArray close, by simp [Tree.literals, Tree.itemLiterals]⟩
  | array first more ih_first ih_more =>
    obtain ⟨t, value, front⟩ := ih_first
    obtain ⟨ts, items, back⟩ := ih_more
    exact ⟨_, .array value items, List.forall_mem_append.mpr ⟨front, back⟩⟩
  | emptyObject close =>
    exact ⟨_, .emptyObject close, by simp [Tree.literals, Tree.memberLiterals]⟩
  | object first more ih_first ih_more =>
    obtain ⟨name, t, member, front⟩ := ih_first
    obtain ⟨ms, members, back⟩ := ih_more
    exact ⟨_, .object member members, List.forall_mem_append.mpr ⟨front, back⟩⟩
  | lastItem => exact ⟨_, .lastItem, by simp [Tree.itemLiterals]⟩
  | nextItem item more ih_item ih_more =>
    obtain ⟨t, value, front⟩ := ih_item
    obtain ⟨ts, items, back⟩ := ih_more
    exact ⟨_, .nextItem value items, List.forall_mem_append.mpr ⟨front, back⟩⟩
  | lastMember => exact ⟨_, .lastMember, by simp [Tree.memberLiterals]⟩
  | nextMember member more ih_member ih_more =>
    obtain ⟨name, t, first, front⟩ := ih_member
    obtain ⟨ms, members, back⟩ := ih_more
    exact ⟨_, .nextMember first members, List.forall_mem_append.mpr ⟨front, back⟩⟩
  | member content fits colon value ih =>
    obtain ⟨name, means⟩ := decodable_iff.mp fits
    obtain ⟨t, value, numbers⟩ := ih
    exact ⟨name, t, .member means colon value, numbers⟩

end TopicReader.Json
