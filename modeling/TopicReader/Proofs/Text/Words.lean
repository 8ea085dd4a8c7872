import TopicReader.Text.Letter
import TopicReader.Text.LetterCase

/-! Words in longer texts: with white space around them, and in any letter case. Lowering a text makes
a word of ASCII out of no other spelling than one in ASCII, as long as the word has neither of the two
letters that also come from elsewhere. -/
namespace TopicReader.Text

variable {s word : List Char} {c d : Char}

/-- A text that is a word but for the white space around it. -/
def Surrounds (word s : List Char) : Prop :=
  ∃ before after, s = before ++ word ++ after ∧ (∀ c ∈ before, isBlank c = true) ∧
    ∀ c ∈ after, isBlank c = true

theorem takeWhile_blank : ∀ c ∈ s.takeWhile isBlank, isBlank c = true := by
  intro c member
  exact List.all_eq_true.mp List.all_takeWhile c member

/-- What is cut off a text is white space. -/
theorem surrounds_trim (s : List Char) : Surrounds (trim s) s := by
  refine ⟨s.takeWhile isBlank, ((s.dropWhile isBlank).reverse.takeWhile isBlank).reverse, ?_,
    takeWhile_blank, ?_⟩
  · have inner : trim s ++ ((s.dropWhile isBlank).reverse.takeWhile isBlank).reverse =
        s.dropWhile isBlank := by
      rw [trim, ← List.reverse_append, List.takeWhile_append_dropWhile, List.reverse_reverse]
    rw [List.append_assoc, inner, List.takeWhile_append_dropWhile]
  · intro c member
    exact takeWhile_blank c (List.mem_reverse.mp member)

theorem dropWhile_solid (solid : ∀ c ∈ word, isBlank c = false) : word.dropWhile isBlank = word := by
  cases word with
  | nil => rfl
  | cons c rest => rw [List.dropWhile_cons_of_neg (by simp [solid c List.mem_cons_self])]

/-- A word without white space is what is left of a text that it stands in alone. -/
theorem trim_eq (solid : ∀ c ∈ word, isBlank c = false) (stands : Surrounds word s) :
    trim s = word := by
  obtain ⟨before, after, rfl, front, back⟩ := stands
  have first : (before ++ word ++ after).dropWhile isBlank = (word ++ after).dropWhile isBlank := by
    rw [List.append_assoc, List.dropWhile_append_of_pos front]
  cases word with
  | nil =>
    have all : (after ++ []).dropWhile isBlank = [] := List.dropWhile_append_of_pos back
    have nothing : after.dropWhile isBlank = [] := by rwa [List.append_nil] at all
    rw [trim, first, List.nil_append, nothing]
    rfl
  | cons c rest =>
    have stops : (c :: rest ++ after).dropWhile isBlank = c :: rest ++ after := by
      rw [List.cons_append, List.dropWhile_cons_of_neg (by simp [solid c List.mem_cons_self])]
    have reversed : ∀ d ∈ (c :: rest).reverse, isBlank d = false := fun d member =>
      solid d (List.mem_reverse.mp member)
    rw [trim, first, stops, List.reverse_append,
      List.dropWhile_append_of_pos fun d member => back d (List.mem_reverse.mp member),
      dropWhile_solid reversed, List.reverse_reverse]

/-- The capital letters, in lower case. -/
theorem capitals : ∀ n < 91, 65 ≤ n → lower (Char.ofNat n) = (Char.ofNat n).toLower ∧
    'a' ≤ (Char.ofNat n).toLower ∧ (Char.ofNat n).toLower ≤ 'z' := by
  decide

/-- What is no capital letter stays as it is. -/
theorem toLower_cases (c : Char) : lower c = c.toLower ∧
    (c.toLower = c ∨ 'a' ≤ c.toLower ∧ c.toLower ≤ 'z') := by
  by_cases capital : 'A' ≤ c ∧ c ≤ 'Z'
  · have low : 65 ≤ c.toNat := UInt32.le_iff_toNat_le.mp capital.1
    have high : c.toNat ≤ 90 := UInt32.le_iff_toNat_le.mp capital.2
    obtain ⟨same, letter⟩ := capitals c.toNat (by omega) low
    rw [Char.ofNat_toNat] at same letter
    exact ⟨same, .inr letter⟩
  · have still : c.toLower = c := dif_neg capital
    exact ⟨(if_neg capital).trans still.symm, .inl still⟩

/-- Only two characters have more to their lower case than ASCII letters do. -/
theorem lowerCase_cases (c : Char) :
    lowerCase c = [c.toLower] ∨ c = '\u212A' ∧ lowerCase c = ['k'] ∨
      c = '\u0130' ∧ lowerCase c = ['i', '\u0307'] := by
  by_cases kelvin : c = '\u212A'
  · subst kelvin
    exact .inr (.inl ⟨rfl, by decide⟩)
  · by_cases dotted : c = '\u0130'
    · subst dotted
      exact .inr (.inr ⟨rfl, by decide⟩)
    · left
      have unlisted : asciiLower.lookup c = none := by
        simp only [asciiLower, List.lookup_cons, beq_eq_false_iff_ne.mpr kelvin,
          beq_eq_false_iff_ne.mpr dotted, List.lookup_nil]
      rw [lowerCase, unlisted, (toLower_cases c).1]
      rfl

/-- Lowering makes a word out of the spellings in ASCII only, if the word has neither letter that
comes from outside. -/
theorem lowered_eq_iff (plain : ∀ d ∈ word, d ∉ ['k', 'i', '\u212A', '\u0130']) :
    s.flatMap lowerCase = word ↔ s.map Char.toLower = word := by
  induction s generalizing word with
  | nil => rfl
  | cons c s ih =>
    rw [List.flatMap_cons, List.map_cons]
    rcases lowerCase_cases c with lowered | ⟨rfl, lowered⟩ | ⟨rfl, lowered⟩
    · rw [lowered, List.singleton_append]
      cases word with
      | nil => simp
      | cons d word =>
        rw [List.cons.injEq, List.cons.injEq,
          ih fun d member => plain d (List.mem_cons_of_mem _ member)]
    · rw [lowered]
      constructor
      · rintro rfl
        exact absurd (plain 'k' List.mem_cons_self) (by decide)
      · rintro rfl
        exact absurd (plain _ List.mem_cons_self) (by decide)
    · rw [lowered]
      constructor
      · rintro rfl
        exact absurd (plain 'i' List.mem_cons_self) (by decide)
      · rintro rfl
        exact absurd (plain _ List.mem_cons_self) (by decide)

/-- What is in lower case and no letter was not lowered. -/
theorem eq_of_toLower (same : c.toLower = d) (other : ¬ ('a' ≤ d ∧ d ≤ 'z')) : c = d := by
  subst same
  rcases (toLower_cases c).2 with still | letter
  · exact still.symm
  · exact absurd letter other

theorem eq_of_map_toLower (same : s.map Char.toLower = word)
    (other : ∀ d ∈ word, ¬ ('a' ≤ d ∧ d ≤ 'z')) : s = word := by
  subst same
  have still : s.map id = s.map Char.toLower := by
    apply List.map_congr_left
    intro c member
    exact eq_of_toLower rfl (other _ (List.mem_map.mpr ⟨c, member, rfl⟩))
  rwa [List.map_id] at still

theorem toLower_eq_self (outside : c.toNat < 65 ∨ 90 < c.toNat) : c.toLower = c := by
  apply dif_neg
  rintro ⟨low, high⟩
  have least : 65 ≤ c.toNat := UInt32.le_iff_toNat_le.mp low
  have greatest : c.toNat ≤ 90 := UInt32.le_iff_toNat_le.mp high
  omega

/-- White space has no other case. -/
theorem toLower_of_blank (blank : isBlank c = true) : c.toLower = c := by
  simp only [isBlank, blankRanges, List.any_cons, List.any_nil, Bool.or_eq_true, Bool.and_eq_true,
    decide_eq_true_eq, Bool.false_eq_true, or_false] at blank
  exact toLower_eq_self (by omega)

/-- A word without white space has none in any letter case. -/
theorem solid_of_toLower (same : s.map Char.toLower = word)
    (solid : ∀ d ∈ word, isBlank d = false) : ∀ c ∈ s, isBlank c = false := by
  subst same
  intro c member
  have lowered := solid _ (List.mem_map.mpr ⟨c, member, rfl⟩)
  cases blank : isBlank c with
  | false => rfl
  | true =>
    rw [toLower_of_blank blank, blank] at lowered
    cases lowered

end TopicReader.Text
