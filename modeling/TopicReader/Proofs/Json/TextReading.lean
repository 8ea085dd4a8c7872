import TopicReader.Proofs.Json.Grammar

/-! The texts of the grammar and those that can be read. Escapes must spell characters, where two
code units may have to come together, and what they resolve to must be UTF-8. -/
namespace TopicReader.Json

open Json.Text

/-- The bytes that the content of a text stands for. -/
inductive Resolves : Bytes → Bytes → Prop where
  | nil : Resolves [] []
  | plain {b s t} (quote : b ≠ 0x22) (backslash : b ≠ 0x5C) (control : ¬ b < 0x20)
      (rest : Resolves s t) : Resolves (b :: s) (b :: t)
  | simple {e b s t} (letter : simpleEscape? e = some b) (rest : Resolves s t) :
      Resolves (0x5C :: e :: s) (b :: t)
  | unicode {a b c d n s t} (digits : codeUnit? a b c d = some n) (not_leading : isLeading n = false)
      (not_trailing : isTrailing n = false) (rest : Resolves s t) :
      Resolves (0x5C :: 0x75 :: a :: b :: c :: d :: s) (String.utf8EncodeChar (Char.ofNat n) ++ t)
  | pair {a b c d e f g h m n s t} (first : codeUnit? a b c d = some m)
      (second : codeUnit? e f g h = some n) (leading : isLeading m = true)
      (trailing : isTrailing n = true) (rest : Resolves s t) :
      Resolves (0x5C :: 0x75 :: a :: b :: c :: d :: 0x5C :: 0x75 :: e :: f :: g :: h :: s)
        (String.utf8EncodeChar (join m n) ++ t)

/-- Whether the content of a text stands for a text. -/
def Decodable (c : Bytes) : Prop := ∃ bytes text, Resolves c bytes ∧ Utf8.decode? bytes = some text

/-- The text that the content of a text stands for. -/
def Means (c : Bytes) (text : String) : Prop :=
  ∃ bytes, Resolves c bytes ∧ Utf8.decode? bytes = some text

theorem decodable_iff {c : Bytes} : Decodable c ↔ ∃ text, Means c text := exists_comm

namespace Text

variable {c s rest out done bytes : Bytes} {a b d e : UInt8} {n : Nat}

theorem content_of_resolves (h : Resolves c bytes) : Content c := by
  induction h with
  | nil => exact .nil
  | plain quote backslash control rest ih => exact .plain quote backslash control ih
  | simple letter rest ih => exact .simple letter ih
  | unicode digits not_leading not_trailing rest ih => exact .unicode digits ih
  | pair first second leading trailing rest ih => exact .unicode first (.unicode second ih)

theorem content_of_decodable (h : Decodable c) : Content c := by
  obtain ⟨bytes, text, resolves, _⟩ := h
  exact content_of_resolves resolves

theorem not_both_surrogates (leading : isLeading n = true) : isTrailing n = false := by
  simp only [isLeading, isTrailing, Bool.and_eq_true, decide_eq_true_eq, Bool.and_eq_false_iff,
    decide_eq_false_iff_not] at leading ⊢
  omega

theorem read_unicode {a b c d : UInt8} (digits : codeUnit? a b c d = some n)
    (not_leading : isLeading n = false) (not_trailing : isTrailing n = false) :
    read .plain done (0x5C :: 0x75 :: a :: b :: c :: d :: s) =
      read .plain ((String.utf8EncodeChar (Char.ofNat n)).reverse ++ done) s := by
  obtain ⟨_, first, _, second, _, third, _, fourth, rfl⟩ := codeUnit?_eq_some.mp digits
  simp [read, first, second, third, fourth, not_leading, not_trailing]

theorem read_leading {a b c d : UInt8} (digits : codeUnit? a b c d = some n)
    (leading : isLeading n = true) :
    read .plain done (0x5C :: 0x75 :: a :: b :: c :: d :: s) = read (.partner n) done s := by
  have not_trailing := not_both_surrogates leading
  obtain ⟨_, first, _, second, _, third, _, fourth, rfl⟩ := codeUnit?_eq_some.mp digits
  simp [read, first, second, third, fourth, leading, not_trailing]

theorem read_partner {a b c d : UInt8} {m : Nat} (digits : codeUnit? a b c d = some n)
    (trailing : isTrailing n = true) :
    read (.partner m) done (0x5C :: 0x75 :: a :: b :: c :: d :: s) =
      read .plain ((String.utf8EncodeChar (join m n)).reverse ++ done) s := by
  obtain ⟨_, first, _, second, _, third, _, fourth, rfl⟩ := codeUnit?_eq_some.mp digits
  simp [read, first, second, third, fourth, trailing]

theorem read_resolves (h : Resolves c bytes) (done rest : Bytes) :
    read .plain done (c ++ 0x22 :: rest) = .ok (done.reverse ++ bytes, rest) := by
  induction h generalizing done with
  | nil => simp [read]
  | @plain b s t quote backslash control tail ih =>
    have moved : read .plain done (b :: (s ++ 0x22 :: rest)) =
        read .plain (b :: done) (s ++ 0x22 :: rest) := by
      simp [read, quote, backslash, control]
    rw [List.cons_append, moved, ih]
    simp
  | @simple e b s t letter tail ih =>
    have not_unicode : e ≠ 0x75 := by
      rintro rfl
      simp [simpleEscape?] at letter
    have moved : read .plain done (0x5C :: e :: (s ++ 0x22 :: rest)) =
        read .plain (b :: done) (s ++ 0x22 :: rest) := by
      simp [read, not_unicode, letter]
    rw [List.cons_append, List.cons_append, moved, ih]
    simp
  | unicode digits not_leading not_trailing tail ih =>
    simp only [List.cons_append]
    rw [read_unicode digits not_leading not_trailing, ih]
    simp
  | pair first second leading trailing tail ih =>
    simp only [List.cons_append]
    rw [read_leading first leading, read_partner second trailing, ih]
    simp

theorem hex_step {leading : Option Nat} {count value : Nat} {r : Bytes × Bytes}
    (h : read (.hex leading count value) done s = .ok r) :
    ∃ b t digit, s = b :: t ∧ hexValue? b = some digit ∧
      (count < 3 → read (.hex leading (count + 1) (value * 16 + digit)) done t = .ok r) := by
  cases s with
  | nil => cases h
  | cons b t =>
    cases digit : hexValue? b with
    | none => simp [read, digit] at h
    | some n =>
      refine ⟨b, t, n, rfl, digit, ?_⟩
      intro early
      simpa [read, digit, early] using h

/-- Four hexadecimal digits follow the letter `u`. -/
theorem codeUnit_of_read {leading : Option Nat} {r : Bytes × Bytes}
    (h : read (.hex leading 0 0) done s = .ok r) :
    ∃ a b c d t n, s = a :: b :: c :: d :: t ∧ codeUnit? a b c d = some n := by
  obtain ⟨a, s, w, rfl, first, h⟩ := hex_step h
  obtain ⟨b, s, x, rfl, second, h⟩ := hex_step (h (by decide))
  obtain ⟨c, s, y, rfl, third, h⟩ := hex_step (h (by decide))
  obtain ⟨d, s, z, rfl, fourth, _⟩ := hex_step (h (by decide))
  exact ⟨a, b, c, d, s, _, rfl,
    codeUnit?_eq_some.mpr ⟨w, first, x, second, y, third, z, fourth, rfl⟩⟩

/-- A leading code unit is followed by the escape of a trailing one. -/
theorem partner_of_read {m : Nat} {r : Bytes × Bytes} (h : read (.partner m) done s = .ok r) :
    ∃ a b c d t n, s = 0x5C :: 0x75 :: a :: b :: c :: d :: t ∧ codeUnit? a b c d = some n ∧
      isTrailing n = true := by
  cases s with
  | nil => cases h
  | cons x s =>
    by_cases backslash : x = 0x5C
    · subst backslash
      cases s with
      | nil => cases h
      | cons y s =>
        by_cases unicode : y = 0x75
        · subst unicode
          have hex : read (.hex (some m) 0 0) done s = .ok r := by simpa [read] using h
          obtain ⟨a, b, c, d, t, n, rfl, digits⟩ := codeUnit_of_read hex
          refine ⟨a, b, c, d, t, n, rfl, digits, ?_⟩
          cases trailing : isTrailing n with
          | true => rfl
          | false =>
            obtain ⟨_, first, _, second, _, third, _, fourth, rfl⟩ := codeUnit?_eq_some.mp digits
            simp [read, first, second, third, fourth, trailing] at hex
        · simp [read, unicode] at h
    · simp [read, backslash] at h

theorem resolves_of_read (h : read .plain done s = .ok (out, rest)) :
    ∃ c bytes, Resolves c bytes ∧ s = c ++ 0x22 :: rest ∧ out = done.reverse ++ bytes := by
  induction size : s.length using Nat.strongRecOn generalizing s done with
  | ind size ih =>
    subst size
    cases s with
    | nil => cases h
    | cons b s =>
      by_cases quote : b = 0x22
      · subst quote
        obtain ⟨rfl, rfl⟩ : done.reverse = out ∧ s = rest := by simpa [read] using h
        exact ⟨[], [], .nil, rfl, by simp⟩
      · by_cases backslash : b = 0x5C
        · subst backslash
          cases s with
          | nil => simp [read] at h
          | cons e s =>
            by_cases unicode : e = 0x75
            · subst unicode
              have hex : read (.hex none 0 0) done s = .ok (out, rest) := by simpa [read] using h
              obtain ⟨a, b, c, d, t, n, rfl, digits⟩ := codeUnit_of_read hex
              cases leading : isLeading n with
              | true =>
                rw [read_leading digits leading] at h
                obtain ⟨e, f, g, i, u, m, rfl, partner, trailing⟩ := partner_of_read h
                rw [read_partner partner trailing] at h
                obtain ⟨c', bytes, resolves, rfl, same⟩ :=
                  ih u.length (by simp only [List.length_cons]; omega) h rfl
                exact ⟨_, _, .pair digits partner leading trailing resolves, rfl, by simp [same]⟩
              | false =>
                cases trailing : isTrailing n with
                | true =>
                  obtain ⟨_, first, _, second, _, third, _, fourth, rfl⟩ :=
                    codeUnit?_eq_some.mp digits
                  simp [read, first, second, third, fourth, trailing] at hex
                | false =>
                  rw [read_unicode digits leading trailing] at h
                  obtain ⟨c', bytes, resolves, rfl, same⟩ :=
                    ih t.length (by simp only [List.length_cons]; omega) h rfl
                  exact ⟨_, _, .unicode digits leading trailing resolves, rfl, by simp [same]⟩
            · cases letter : simpleEscape? e with
              | none => simp [read, unicode, letter] at h
              | some b =>
                have tail : read .plain (b :: done) s = .ok (out, rest) := by
                  simpa [read, unicode, letter] using h
                obtain ⟨c', bytes, resolves, rfl, same⟩ :=
                  ih s.length (by simp only [List.length_cons]; omega) tail rfl
                exact ⟨_, _, .simple letter resolves, rfl, by simp [same]⟩
        · by_cases control : b < 0x20
          · simp [read, quote, backslash, control] at h
          · have tail : read .plain (b :: done) s = .ok (out, rest) := by
              simpa [read, quote, backslash, control] using h
            obtain ⟨c', bytes, resolves, rfl, same⟩ :=
              ih s.length (by simp only [List.length_cons]; omega) tail rfl
            exact ⟨_, _, .plain quote backslash control resolves, rfl, by simp [same]⟩

/-- A text is read from content that stands for it. -/
theorem content_of_means {text : String} (h : Means c text) (rest : Bytes) :
    content (c ++ 0x22 :: rest) = .ok (text, rest) := by
  obtain ⟨bytes, resolves, decoded⟩ := h
  rw [content, read_resolves resolves]
  simp [bind, Except.bind, decoded]

/-- What is read as a text has a content that stands for it. -/
theorem means_of_content {text : String} (h : content s = .ok (text, rest)) :
    ∃ c, Means c text ∧ s = c ++ 0x22 :: rest := by
  unfold content at h
  cases answer : read .plain [] s with
  | error f => simp [answer, bind, Except.bind] at h
  | ok pair =>
    obtain ⟨bytes, left⟩ := pair
    obtain ⟨c, resolved, resolves, rfl, same⟩ := resolves_of_read answer
    obtain rfl : bytes = resolved := same
    simp only [answer, bind, Except.bind] at h
    split at h
    · rename_i text decoded
      cases h
      exact ⟨c, ⟨bytes, resolves, decoded⟩, rfl⟩
    · cases h

end Text
end TopicReader.Json
