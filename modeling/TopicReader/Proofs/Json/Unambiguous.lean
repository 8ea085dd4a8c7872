import TopicReader.Proofs.Json.Reading

/-! A text spells at most one tree. The first byte of a value tells its kind, and a number ends
before the first byte that cannot be part of one, so a derivation has no choice. -/
namespace TopicReader.Json

variable {d e : Nat} {s rest x y : Bytes} {t u : Tree} {phrase : Phrase}

namespace Literal

theorem digits_append_inj {a b : Bytes} (first : a.all isDigit = true)
    (second : b.all isDigit = true) (ends : ∀ c ∈ x.head?, isDigit c = false)
    (stops : ∀ c ∈ y.head?, isDigit c = false) (same : a ++ x = b ++ y) : a = b ∧ x = y := by
  obtain ⟨taken, left⟩ := Number.takeWhile_digits first ends
  obtain ⟨taken', left'⟩ := Number.takeWhile_digits second stops
  rw [same] at taken left
  exact ⟨taken.symm.trans taken', left.symm.trans left'⟩

/-- A sign is told from the digits that follow it. -/
theorem sign_append_inj {a b : Option UInt8} (first : ∀ c ∈ a, c = 0x2B ∨ c = 0x2D)
    (second : ∀ c ∈ b, c = 0x2B ∨ c = 0x2D) (digit : ∃ c, x.head? = some c ∧ isDigit c = true)
    (digit' : ∃ c, y.head? = some c ∧ isDigit c = true)
    (same : a.toList ++ x = b.toList ++ y) : a = b ∧ x = y := by
  have no_digit {o : Option UInt8} {c : UInt8} (is_sign : ∀ c ∈ o, c = 0x2B ∨ c = 0x2D)
      (some : o = some c) : isDigit c = false := by
    rcases is_sign c some with rfl | rfl <;> rfl
  obtain ⟨c, head, is_digit⟩ := digit
  obtain ⟨c', head', is_digit'⟩ := digit'
  cases a with
  | none =>
    cases b with
    | none => exact ⟨rfl, same⟩
    | some m =>
      obtain rfl : x = m :: y := same
      cases head
      simp [no_digit second rfl] at is_digit
  | some l =>
    cases b with
    | none =>
      obtain rfl : l :: x = y := same
      cases head'
      simp [no_digit first rfl] at is_digit'
    | some m =>
      cases same
      exact ⟨rfl, rfl⟩

theorem exponent_append_inj {f g : Option Exponent} (ends : Delimited x) (stops : Delimited y)
    (same : exponentBytes f ++ x = exponentBytes g ++ y) : f = g ∧ x = y := by
  have no_mark {z : Bytes} {h : Exponent} {s : Bytes} (delimited : Delimited z) :
      z ≠ h.letter :: s := by
    rintro rfl
    obtain ⟨_, _, small, large⟩ := delimited h.letter rfl
    exact h.is_mark.elim small large
  cases f with
  | none =>
    cases g with
    | none => exact ⟨rfl, same⟩
    | some g => exact absurd same (no_mark ends)
  | some f =>
    cases g with
    | none => exact absurd same.symm (no_mark stops)
    | some g =>
      simp only [exponentBytes, List.cons_append, List.append_assoc, List.cons.injEq] at same
      obtain ⟨letter, spelled⟩ := same
      obtain ⟨sign, digits⟩ := sign_append_inj f.is_sign g.is_sign
        (Number.head_digit x f.all_digits f.some_digits)
        (Number.head_digit y g.all_digits g.some_digits) spelled
      obtain ⟨digits, after⟩ := digits_append_inj f.all_digits g.all_digits
        (fun c first => (ends c first).1) (fun c first => (stops c first).1) digits
      obtain ⟨_, _, _, _, _, _, _⟩ := f
      obtain ⟨_, _, _, _, _, _, _⟩ := g
      cases letter
      cases sign
      cases digits
      exact ⟨rfl, after⟩

theorem exponent_ne_point {f : Option Exponent} (delimited : Delimited x) :
    exponentBytes f ++ x ≠ 0x2E :: y := by
  intro same
  cases f with
  | none =>
    obtain rfl : x = 0x2E :: y := same
    exact (delimited 0x2E rfl).2.1 rfl
  | some f =>
    have point : f.letter = 0x2E := (List.cons.inj same).1
    rcases f.is_mark with mark | mark <;> rw [mark] at point <;> cases point

theorem fraction_append_inj {a b : Bytes} {f g : Option Exponent} (first : a.all isDigit = true)
    (second : b.all isDigit = true) (ends : Delimited x) (stops : Delimited y)
    (same : fractionBytes a ++ (exponentBytes f ++ x) = fractionBytes b ++ (exponentBytes g ++ y)) :
    a = b ∧ exponentBytes f ++ x = exponentBytes g ++ y := by
  cases a with
  | nil =>
    cases b with
    | nil => exact ⟨rfl, same⟩
    | cons c b => exact absurd same (exponent_ne_point ends)
  | cons c a =>
    cases b with
    | nil => exact absurd same.symm (exponent_ne_point stops)
    | cons c' b =>
      exact digits_append_inj first second (Number.exponent_stops ends)
        (Number.exponent_stops stops) (List.cons.inj same).2

/-- A number is told from what follows it. -/
theorem append_inj {l m : Literal} (ends : Delimited x) (stops : Delimited y)
    (same : l.bytes ++ x = m.bytes ++ y) : l = m ∧ x = y := by
  have digit (l : Literal) (z : Bytes) := Number.head_digit
    (fractionBytes l.fraction ++ (exponentBytes l.exponent ++ z)) l.all_whole l.some_whole
  have sign_eq (l : Literal) :
      signBytes l.negative = (if l.negative then some 0x2D else none : Option UInt8).toList := by
    cases l.negative <;> rfl
  have is_sign (l : Literal) :
      ∀ c ∈ (if l.negative then some 0x2D else none : Option UInt8), c = 0x2B ∨ c = 0x2D := by
    cases l.negative <;> simp
  simp only [bytes, List.append_assoc, sign_eq] at same
  obtain ⟨sign, unsigned⟩ := sign_append_inj (is_sign l) (is_sign m) (digit l x) (digit m y) same
  obtain ⟨whole, tail⟩ := digits_append_inj l.all_whole m.all_whole (Number.fraction_stops ends)
    (Number.fraction_stops stops) unsigned
  obtain ⟨fraction, power⟩ := fraction_append_inj l.all_fraction m.all_fraction ends stops tail
  obtain ⟨exponent, after⟩ := exponent_append_inj ends stops power
  have negative : l.negative = m.negative := by
    cases left : l.negative <;> cases right : m.negative <;> simp [left, right] at sign ⊢
  obtain ⟨_, _, _, _, _, _, _, _⟩ := l
  obtain ⟨_, _, _, _, _, _, _, _⟩ := m
  cases negative
  cases whole
  cases fraction
  cases exponent
  exact ⟨rfl, after⟩

end Literal

/-- Trees of one kind. -/
def Tree.Alike : Tree → Tree → Prop
  | .null, .null => True
  | .bool a, .bool b => a = b
  | .number _, .number _ => True
  | .text _, .text _ => True
  | .array _, .array _ => True
  | .object _, .object _ => True
  | _, _ => False

/-- The first byte tells the kind. -/
theorem Tree.Begins.alike {b : UInt8} (h : t.Begins b) (h' : u.Begins b) : t.Alike u := by
  have other {c : UInt8} (same : b = c) (no_sign : c ≠ 0x2D) (no_digit : isDigit c = false) :
      ¬ (b = 0x2D ∨ isDigit b = true) := by
    subst same
    simp [no_sign, no_digit]
  rcases t with _ | (_ | _) | _ | _ | _ | _ <;> rcases u with _ | (_ | _) | _ | _ | _ | _ <;>
    first
    | trivial
    | rfl
    | exact absurd (h.symm.trans h') (by decide)
    | exact absurd h' (other h (by decide) rfl)
    | exact absurd h (other h' (by decide) rfl)

namespace Spells

theorem begins (h : Spells d (.value t) s rest) : ∃ b tail, s = b :: tail ∧ t.Begins b := by
  cases h with
  | @number d l rest =>
    obtain ⟨b, first, sign_or_digit⟩ := l.head rest
    obtain ⟨tail, shape⟩ := List.head?_eq_some_iff.mp first
    exact ⟨b, tail, shape, sign_or_digit⟩
  | _ => exact ⟨_, _, rfl, rfl⟩

theorem alike {rest' : Bytes} (h : Spells d (.value t) s rest) (h' : Spells e (.value u) s rest') :
    t.Alike u := by
  obtain ⟨b, tail, shape, first⟩ := h.begins
  obtain ⟨c, tail', shape', first'⟩ := h'.begins
  cases shape.symm.trans shape'
  exact first.alike first'

/-- What closes a container begins no value. -/
theorem not_closes {b : UInt8} (h : Spells d (.value t) s rest) (no_digit : isDigit b = false)
    (other : b ∉ [0x2D, 0x22, 0x5B, 0x7B, 0x74, 0x66, 0x6E]) : s ≠ b :: x := by
  rintro rfl
  obtain ⟨_, _, ⟨⟩, first⟩ := h.begins
  rcases t with _ | (_ | _) | _ | _ | _ | _ <;> simp_all [Tree.Begins]

end Spells

/-- Whether no other phrase of the same part can be spelled. -/
def Unique (s rest : Bytes) : Phrase → Prop
  | .value t => ∀ ⦃e u rest'⦄, Delimited rest → Delimited rest' → Spells e (.value u) s rest' →
    u = t ∧ rest' = rest
  | .items ts => ∀ ⦃e us rest'⦄, Spells e (.items us) s rest' → us = ts ∧ rest' = rest
  | .members ms => ∀ ⦃e ns rest'⦄, Spells e (.members ns) s rest' → ns = ms ∧ rest' = rest
  | .member name t => ∀ ⦃e other u rest'⦄, Delimited rest → Delimited rest' →
    Spells e (.member other u) s rest' → other = name ∧ u = t ∧ rest' = rest

theorem Spells.unique (h : Spells d phrase s rest) : Unique s rest phrase := by
  induction h with
  | null =>
    intro e u rest' _ _ h'
    have alike := (Spells.null (d := d)).alike h'
    cases u with
    | null =>
      cases h'
      exact ⟨rfl, rfl⟩
    | _ => exact alike.elim
  | yes =>
    intro e u rest' _ _ h'
    have alike := (Spells.yes (d := d)).alike h'
    cases u with
    | bool b =>
      cases alike
      cases h'
      exact ⟨rfl, rfl⟩
    | _ => exact alike.elim
  | no =>
    intro e u rest' _ _ h'
    have alike := (Spells.no (d := d)).alike h'
    cases u with
    | bool b =>
      cases alike
      cases h'
      exact ⟨rfl, rfl⟩
    | _ => exact alike.elim
  | @number d l rest =>
    intro e u rest' ends stops h'
    have alike := (Spells.number (d := d)).alike h'
    cases u with
    | number m =>
      generalize same : l.bytes ++ rest = s at h'
      cases h'
      obtain ⟨rfl, rfl⟩ := Literal.append_inj ends stops same
      exact ⟨rfl, rfl⟩
    | _ => exact alike.elim
  | @text d c text rest means =>
    intro e u rest' _ _ h'
    have alike := (Spells.text (d := d) means).alike h'
    cases u with
    | text other =>
      generalize same : c ++ 0x22 :: rest = s at h'
      cases h' with
      | @text _ c' _ _ means' =>
        have read := Text.content_of_means means rest
        rw [same, Text.content_of_means means' rest'] at read
        cases read
        exact ⟨rfl, rfl⟩
    | _ => exact alike.elim
  | @emptyArray d s rest close =>
    intro e u rest' _ _ h'
    have alike := (Spells.emptyArray (d := d) close).alike h'
    cases u with
    | array items =>
      cases h' with
      | emptyArray close' =>
        cases close.symm.trans close'
        exact ⟨rfl, rfl⟩
      | array first more => exact absurd close (first.not_closes rfl (by decide))
    | _ => exact alike.elim
  | @array d v ts s t rest first more ih_first ih_more =>
    intro e u rest' _ _ h'
    have alike := (first.array more).alike h'
    cases u with
    | array items =>
      cases h' with
      | emptyArray close => exact absurd close (first.not_closes rfl (by decide))
      | array first' more' =>
        obtain ⟨rfl, rfl⟩ := ih_first (more.delimited (.inl rfl))
          (more'.delimited (.inl rfl)) first'
        obtain ⟨rfl, rfl⟩ := ih_more more'
        exact ⟨rfl, rfl⟩
    | _ => exact alike.elim
  | @emptyObject d s rest close =>
    intro e u rest' _ _ h'
    have alike := (Spells.emptyObject (d := d) close).alike h'
    cases u with
    | object members =>
      cases h' with
      | emptyObject close' =>
        cases close.symm.trans close'
        exact ⟨rfl, rfl⟩
      | object first more =>
        rw [close] at first
        cases first
    | _ => exact alike.elim
  | @object d name v ms s t rest first more ih_first ih_more =>
    intro e u rest' _ _ h'
    have alike := (first.object more).alike h'
    cases u with
    | object members =>
      cases h' with
      | emptyObject close =>
        rw [close] at first
        cases first
      | object first' more' =>
        obtain ⟨rfl, rfl, rfl⟩ := ih_first (more.delimited (.inr rfl))
          (more'.delimited (.inr rfl)) first'
        obtain ⟨rfl, rfl⟩ := ih_more more'
        exact ⟨rfl, rfl⟩
    | _ => exact alike.elim
  | lastItem =>
    intro e us rest' h'
    cases h'
    exact ⟨rfl, rfl⟩
  | @nextItem d v ts s t rest item more ih_item ih_more =>
    intro e us rest' h'
    cases h' with
    | nextItem item' more' =>
      obtain ⟨rfl, rfl⟩ := ih_item (more.delimited (.inl rfl)) (more'.delimited (.inl rfl)) item'
      obtain ⟨rfl, rfl⟩ := ih_more more'
      exact ⟨rfl, rfl⟩
  | lastMember =>
    intro e ns rest' h'
    cases h'
    exact ⟨rfl, rfl⟩
  | @nextMember d name v ms s t rest member more ih_member ih_more =>
    intro e ns rest' h'
    cases h' with
    | nextMember member' more' =>
      obtain ⟨rfl, rfl, rfl⟩ := ih_member (more.delimited (.inr rfl))
        (more'.delimited (.inr rfl)) member'
      obtain ⟨rfl, rfl⟩ := ih_more more'
      exact ⟨rfl, rfl⟩
  | @member d c name v s t rest means colon value ih =>
    intro e other u rest' ends stops h'
    generalize same : c ++ 0x22 :: s = w at h'
    cases h' with
    | @member _ c' _ _ s' t' _ means' colon' value' =>
      have read := Text.content_of_means means s
      rw [same, Text.content_of_means means' s'] at read
      cases read
      cases colon.symm.trans colon'
      obtain ⟨rfl, rfl⟩ := ih ends stops value'
      exact ⟨rfl, rfl, rfl⟩

/-- A document is written as one tree only. -/
theorem Written.unique (h : Written d t s) (h' : Written e u s) : u = t := by
  obtain ⟨rest, spells, ended⟩ := h
  obtain ⟨rest', spells', ended'⟩ := h'
  exact (spells.unique (delimited_of_skipSpace (ended ▸ delimited_nil))
    (delimited_of_skipSpace (ended' ▸ delimited_nil)) spells').1

end TopicReader.Json
