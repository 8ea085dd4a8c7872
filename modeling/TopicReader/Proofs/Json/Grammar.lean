import TopicReader.Json.Document

/-! The grammar of JSON, apart from any reader. A derivation relates a text to what is left of it
behind one value, or behind the rest of a container. It bounds how deep containers nest, and it asks
of every number and of every text what the grammar is given to ask of them. -/
namespace TopicReader.Json

/-- The power of ten at the end of a number, as it is written. -/
structure Exponent where
  letter : UInt8
  sign : Option UInt8
  digits : Bytes
  is_mark : letter = 0x65 ∨ letter = 0x45
  is_sign : ∀ b ∈ sign, b = 0x2B ∨ b = 0x2D
  some_digits : digits ≠ []
  all_digits : digits.all isDigit = true

/-- A number as it is written. The fraction is empty where there is no decimal point. -/
structure Literal where
  negative : Bool
  whole : Bytes
  fraction : Bytes
  exponent : Option Exponent
  some_whole : whole ≠ []
  all_whole : whole.all isDigit = true
  no_leading_zero : whole.head? = some 0x30 → whole = [0x30]
  all_fraction : fraction.all isDigit = true

namespace Literal

def signBytes (negative : Bool) : Bytes := if negative then [0x2D] else []

def fractionBytes (fraction : Bytes) : Bytes := if fraction = [] then [] else 0x2E :: fraction

def exponentBytes : Option Exponent → Bytes
  | none => []
  | some e => e.letter :: (e.sign.toList ++ e.digits)

def bytes (l : Literal) : Bytes :=
  signBytes l.negative ++ (l.whole ++ (fractionBytes l.fraction ++ exponentBytes l.exponent))

end Literal

/-- The code unit that four hexadecimal digits spell. -/
def codeUnit? (a b c d : UInt8) : Option Nat := do
  return (((← hexValue? a) * 16 + (← hexValue? b)) * 16 + (← hexValue? c)) * 16 + (← hexValue? d)

theorem codeUnit?_eq_some {a b c d : UInt8} {n : Nat} : codeUnit? a b c d = some n ↔
    ∃ w, hexValue? a = some w ∧ ∃ x, hexValue? b = some x ∧ ∃ y, hexValue? c = some y ∧
      ∃ z, hexValue? d = some z ∧ ((w * 16 + x) * 16 + y) * 16 + z = n := by
  simp [codeUnit?, Option.bind_eq_some_iff]

/-- What may stand between the quotes of a text. -/
inductive Content : Bytes → Prop where
  | nil : Content []
  | plain {b s} (quote : b ≠ 0x22) (backslash : b ≠ 0x5C) (control : ¬ b < 0x20)
      (rest : Content s) : Content (b :: s)
  | simple {e b s} (letter : simpleEscape? e = some b) (rest : Content s) :
      Content (0x5C :: e :: s)
  | unicode {a b c d n s} (digits : codeUnit? a b c d = some n) (rest : Content s) :
      Content (0x5C :: 0x75 :: a :: b :: c :: d :: s)

def words : List Bytes :=
  [[0x74, 0x72, 0x75, 0x65], [0x66, 0x61, 0x6C, 0x73, 0x65], [0x6E, 0x75, 0x6C, 0x6C]]

namespace Grammar

/-- The parts of a document: a value, what follows an item or a member up to the end of the
container, and a member. -/
inductive Part where
  | value
  | items
  | members
  | member

end Grammar

open Grammar

inductive Derives (number : Literal → Prop) (text : Bytes → Prop) :
    Part → Nat → Bytes → Bytes → Prop where
  | word {d w rest} (known : w ∈ words) : Derives number text .value d (w ++ rest) rest
  | number {d l rest} (fits : number l) : Derives number text .value d (l.bytes ++ rest) rest
  | text {d c rest} (content : Content c) (fits : text c) :
      Derives number text .value d (0x22 :: (c ++ 0x22 :: rest)) rest
  | emptyArray {d s rest} (close : skipSpace s = 0x5D :: rest) :
      Derives number text .value (d + 1) (0x5B :: s) rest
  | array {d s t rest} (first : Derives number text .value d (skipSpace s) t)
      (more : Derives number text .items d (skipSpace t) rest) :
      Derives number text .value (d + 1) (0x5B :: s) rest
  | emptyObject {d s rest} (close : skipSpace s = 0x7D :: rest) :
      Derives number text .value (d + 1) (0x7B :: s) rest
  | object {d s t rest} (first : Derives number text .member d (skipSpace s) t)
      (more : Derives number text .members d (skipSpace t) rest) :
      Derives number text .value (d + 1) (0x7B :: s) rest
  | lastItem {d rest} : Derives number text .items d (0x5D :: rest) rest
  | nextItem {d s t rest} (item : Derives number text .value d (skipSpace s) t)
      (more : Derives number text .items d (skipSpace t) rest) :
      Derives number text .items d (0x2C :: s) rest
  | lastMember {d rest} : Derives number text .members d (0x7D :: rest) rest
  | nextMember {d s t rest} (member : Derives number text .member d (skipSpace s) t)
      (more : Derives number text .members d (skipSpace t) rest) :
      Derives number text .members d (0x2C :: s) rest
  | member {d c s t rest} (content : Content c) (fits : text c)
      (colon : skipSpace s = 0x3A :: t) (value : Derives number text .value d (skipSpace t) rest) :
      Derives number text .member d (0x22 :: (c ++ 0x22 :: s)) rest

/-- One value with white space around it. -/
def Document (number : Literal → Prop) (text : Bytes → Prop) (depth : Nat) (s : Bytes) : Prop :=
  ∃ rest, Derives number text .value depth (skipSpace s) rest ∧ skipSpace rest = []

/-- A number ends before any byte that cannot be part of one. -/
def Delimited (s : Bytes) : Prop :=
  ∀ b ∈ s.head?, isDigit b = false ∧ b ≠ 0x2E ∧ b ≠ 0x65 ∧ b ≠ 0x45

theorem delimited_nil : Delimited [] := by simp [Delimited]

theorem isSpace_iff {b : UInt8} : isSpace b = true ↔ b = 0x20 ∨ b = 0x09 ∨ b = 0x0A ∨ b = 0x0D := by
  simp [isSpace, or_assoc]

theorem isSpace_of_skipSpace {s rest : Bytes} {b : UInt8} (h : skipSpace s = b :: rest) :
    isSpace b = false := by
  have first := List.head?_dropWhile_not isSpace s
  rw [← skipSpace, h] at first
  exact first

/-- White space ends a number, and what comes after white space may too. -/
theorem delimited_of_skipSpace {s : Bytes} (h : Delimited (skipSpace s)) : Delimited s := by
  cases s with
  | nil => exact delimited_nil
  | cons b rest =>
    by_cases space : isSpace b = true
    · intro c first
      obtain rfl : b = c := by simpa using first
      rcases isSpace_iff.mp space with rfl | rfl | rfl | rfl <;> decide
    · rw [skipSpace, List.dropWhile_cons_of_neg space] at h
      exact h

namespace Derives

variable {number number' : Literal → Prop} {text text' : Bytes → Prop} {part : Part} {d d' : Nat}
  {s rest : Bytes}

theorem mono (h : Derives number text part d s rest) (numbers : ∀ l, number l → number' l)
    (texts : ∀ c, text c → text' c) (deeper : d ≤ d') :
    Derives number' text' part d' s rest := by
  induction h generalizing d' with
  | word known => exact .word known
  | number fits => exact .number (numbers _ fits)
  | text content fits => exact .text content (texts _ fits)
  | emptyArray close =>
    obtain ⟨e, rfl⟩ := Nat.exists_eq_succ_of_ne_zero (Nat.ne_zero_of_lt deeper)
    exact .emptyArray close
  | array first more ih_first ih_more =>
    obtain ⟨e, rfl⟩ := Nat.exists_eq_succ_of_ne_zero (Nat.ne_zero_of_lt deeper)
    have inner := Nat.le_of_succ_le_succ deeper
    exact .array (ih_first inner) (ih_more inner)
  | emptyObject close =>
    obtain ⟨e, rfl⟩ := Nat.exists_eq_succ_of_ne_zero (Nat.ne_zero_of_lt deeper)
    exact .emptyObject close
  | object first more ih_first ih_more =>
    obtain ⟨e, rfl⟩ := Nat.exists_eq_succ_of_ne_zero (Nat.ne_zero_of_lt deeper)
    have inner := Nat.le_of_succ_le_succ deeper
    exact .object (ih_first inner) (ih_more inner)
  | lastItem => exact .lastItem
  | nextItem item more ih_item ih_more => exact .nextItem (ih_item deeper) (ih_more deeper)
  | lastMember => exact .lastMember
  | nextMember member more ih_member ih_more =>
    exact .nextMember (ih_member deeper) (ih_more deeper)
  | member content fits colon value ih =>
    exact .member content (texts _ fits) colon (ih deeper)

/-- What follows a value within a container ends a number. -/
theorem delimited (h : Derives number text part d s rest) (inside : part = .items ∨ part = .members) :
    Delimited s := by
  cases h with
  | lastItem | nextItem | lastMember | nextMember => simp [Delimited]; decide
  | _ => simp at inside

end Derives
end TopicReader.Json
