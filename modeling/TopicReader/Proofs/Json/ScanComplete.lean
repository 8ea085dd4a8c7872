import TopicReader.Proofs.Json.Grammar

/-! The scan accepts every document of the grammar, whatever else the grammar asks of numbers and
texts and however deep its containers nest. -/
namespace TopicReader.Json.Scan

open Grammar

variable {stack : List Container} {b : UInt8} {s t rest : Bytes} {expected : Expected}
  {part : NumberPart} {isName : Bool}

def accepts (s : State) (bytes : Bytes) : Bool := (run s bytes).any State.accepting

theorem accepts_cons {before : State} (after : State) (h : step before b = some after) :
    accepts before (b :: s) = accepts after s := by
  simp [accepts, run, List.foldlM_cons, h]

theorem accepts_space (space : isSpace b = true) :
    accepts ⟨stack, .between expected⟩ (b :: s) = accepts ⟨stack, .between expected⟩ s := by
  apply accepts_cons
  simp [step, between, space]

theorem accepts_skipSpace :
    accepts ⟨stack, .between expected⟩ (skipSpace s) = accepts ⟨stack, .between expected⟩ s := by
  induction s with
  | nil => rfl
  | cons b rest ih =>
    by_cases space : isSpace b = true
    · rw [accepts_space space, ← ih, skipSpace, List.dropWhile_cons_of_pos space, skipSpace]
    · rw [skipSpace, List.dropWhile_cons_of_neg space]

/-- What begins a value is neither white space nor the end of an array. -/
theorem accepts_firstItem {after : State} (begun : beginValue stack b = some after)
    (space : isSpace b = false) :
    accepts ⟨stack, .between .firstItem⟩ (b :: s) = accepts ⟨stack, .between .value⟩ (b :: s) := by
  have not_close : b ≠ 0x5D := by
    rintro rfl
    simp [beginValue, isDigit] at begun
  rw [accepts_cons after, accepts_cons after]
  · simp [step, between, space, begun]
  · simp [step, between, space, begun, not_close]

theorem accepts_word {w : Bytes} (known : w ∈ words) :
    accepts ⟨stack, .between .value⟩ (w ++ rest) = accepts ⟨stack, .between .separator⟩ rest := by
  simp only [words, List.mem_cons, List.not_mem_nil, or_false] at known
  rcases known with rfl | rfl | rfl <;> rfl

theorem accepts_content {c : Bytes} (content : Content c) :
    accepts ⟨stack, .text isName⟩ (c ++ s) = accepts ⟨stack, .text isName⟩ s := by
  induction content with
  | nil => rfl
  | plain quote backslash control rest ih =>
    rw [List.cons_append, ← ih]
    apply accepts_cons
    simp [step, quote, backslash, control]
  | @simple e b s letter rest ih =>
    have not_unicode : e ≠ 0x75 := by
      rintro rfl
      simp [simpleEscape?] at letter
    calc accepts ⟨stack, .text isName⟩ (0x5C :: e :: (s ++ _))
      _ = accepts ⟨stack, .escape isName⟩ (e :: (s ++ _)) := accepts_cons _ (by simp [step])
      _ = accepts ⟨stack, .text isName⟩ (s ++ _) :=
        accepts_cons _ (by simp [step, not_unicode, letter])
      _ = _ := ih
  | @unicode a b c d n s digits rest ih =>
    obtain ⟨_, first, _, second, _, third, _, fourth, _⟩ := codeUnit?_eq_some.mp digits
    calc accepts ⟨stack, .text isName⟩ (0x5C :: 0x75 :: a :: b :: c :: d :: (s ++ _))
      _ = accepts ⟨stack, .escape isName⟩ (0x75 :: a :: b :: c :: d :: (s ++ _)) :=
        accepts_cons _ (by simp [step])
      _ = accepts ⟨stack, .hex isName 4⟩ (a :: b :: c :: d :: (s ++ _)) :=
        accepts_cons _ (by simp [step])
      _ = accepts ⟨stack, .hex isName 3⟩ (b :: c :: d :: (s ++ _)) :=
        accepts_cons _ (by simp [step, first])
      _ = accepts ⟨stack, .hex isName 2⟩ (c :: d :: (s ++ _)) :=
        accepts_cons _ (by simp [step, second])
      _ = accepts ⟨stack, .hex isName 1⟩ (d :: (s ++ _)) :=
        accepts_cons _ (by simp [step, third])
      _ = accepts ⟨stack, .text isName⟩ (s ++ _) := accepts_cons _ (by simp [step, fourth])
      _ = _ := ih

/-- A complete number that ends leaves the scan where a value ends. -/
theorem accepts_ended (complete : part.complete = true) (delimited : Delimited rest) :
    accepts ⟨stack, .number part⟩ rest = accepts ⟨stack, .between .separator⟩ rest := by
  cases rest with
  | nil => simp [accepts, run, State.accepting, complete]
  | cons b rest =>
    obtain ⟨digit, point, small, large⟩ := delimited b (by simp)
    have ended : part.next b = none := by
      cases part <;> simp_all [NumberPart.next, NumberPart.complete]
    simp [accepts, run, List.foldlM_cons, step, ended, complete]

theorem accepts_digits {digits : Bytes} (all_digits : digits.all isDigit = true)
    (stays : ∀ b, isDigit b = true → part.next b = some part) :
    accepts ⟨stack, .number part⟩ (digits ++ rest) = accepts ⟨stack, .number part⟩ rest := by
  induction digits with
  | nil => rfl
  | cons b more ih =>
    simp only [List.all_cons, Bool.and_eq_true] at all_digits
    rw [List.cons_append, ← ih all_digits.2]
    apply accepts_cons
    simp [step, stays b all_digits.1]

theorem accepts_exponent {e : Option Exponent} (complete : part.complete = true)
    (marks : ∀ b, b = 0x65 ∨ b = 0x45 → part.next b = some .mark) (delimited : Delimited rest) :
    accepts ⟨stack, .number part⟩ (Literal.exponentBytes e ++ rest) =
      accepts ⟨stack, .between .separator⟩ rest := by
  cases e with
  | none => exact accepts_ended complete delimited
  | some e =>
    have power {part : NumberPart} (digits : ∀ b, isDigit b = true → part.next b = some .power) :
        accepts ⟨stack, .number part⟩ (e.digits ++ rest) =
          accepts ⟨stack, .between .separator⟩ rest := by
      have all_digits := e.all_digits
      cases shape : e.digits with
      | nil => exact absurd shape e.some_digits
      | cons b more =>
        simp only [shape, List.all_cons, Bool.and_eq_true] at all_digits
        rw [List.cons_append, accepts_cons ⟨stack, .number .power⟩,
          accepts_digits all_digits.2, accepts_ended rfl delimited]
        · intro b digit
          simp [NumberPart.next, digit]
        · simp [step, digits b all_digits.1]
    rw [Literal.exponentBytes, List.cons_append, List.append_assoc,
      accepts_cons ⟨stack, .number .mark⟩ (by simp [step, marks _ e.is_mark])]
    cases sign : e.sign with
    | none =>
      apply power
      intro b digit
      have no_sign : ¬ (b = 0x2B ∨ b = 0x2D) := by
        rintro (rfl | rfl) <;> simp [isDigit] at digit
      simp [NumberPart.next, digit, no_sign]
    | some b =>
      have is_sign := e.is_sign b sign
      rw [Option.toList_some, List.singleton_append,
        accepts_cons ⟨stack, .number .markSign⟩]
      · apply power
        intro b digit
        simp [NumberPart.next, digit]
      · simp [step, NumberPart.next, is_sign]

theorem accepts_fraction {fraction : Bytes} {e : Option Exponent}
    (all_digits : fraction.all isDigit = true) (whole : part = .zero ∨ part = .digits)
    (delimited : Delimited rest) :
    accepts ⟨stack, .number part⟩
        (Literal.fractionBytes fraction ++ (Literal.exponentBytes e ++ rest)) =
      accepts ⟨stack, .between .separator⟩ rest := by
  cases fraction with
  | nil =>
    refine accepts_exponent ?_ ?_ delimited
    · rcases whole with rfl | rfl <;> rfl
    · rcases whole with rfl | rfl <;> rintro b (rfl | rfl) <;> rfl
  | cons b more =>
    simp only [List.all_cons, Bool.and_eq_true] at all_digits
    have point : part.next 0x2E = some .point := by rcases whole with rfl | rfl <;> rfl
    have first : NumberPart.point.next b = some .fraction := by simp [NumberPart.next, all_digits.1]
    rw [Literal.fractionBytes, if_neg (by simp), List.cons_append, List.cons_append,
      accepts_cons ⟨stack, .number .point⟩ (by simp [step, point]),
      accepts_cons ⟨stack, .number .fraction⟩ (by simp [step, first]),
      accepts_digits all_digits.2 (by intro b digit; simp [NumberPart.next, digit])]
    refine accepts_exponent rfl ?_ delimited
    rintro b (rfl | rfl) <;> rfl

theorem accepts_whole {before : State} {l : Literal} (delimited : Delimited rest)
    (zero : step before 0x30 = some ⟨stack, .number .zero⟩)
    (digit : ∀ b, isDigit b = true → b ≠ 0x30 → step before b = some ⟨stack, .number .digits⟩) :
    accepts before (l.whole ++ (Literal.fractionBytes l.fraction ++
        (Literal.exponentBytes l.exponent ++ rest))) =
      accepts ⟨stack, .between .separator⟩ rest := by
  have all_whole := l.all_whole
  have no_leading_zero := l.no_leading_zero
  cases shape : l.whole with
  | nil => exact absurd shape l.some_whole
  | cons b more =>
    simp only [shape, List.all_cons, Bool.and_eq_true] at all_whole
    rw [List.cons_append]
    by_cases is_zero : b = 0x30
    · subst is_zero
      obtain rfl : more = [] := by simpa [shape] using no_leading_zero
      rw [accepts_cons _ zero]
      exact accepts_fraction l.all_fraction (.inl rfl) delimited
    · rw [accepts_cons _ (digit b all_whole.1 is_zero), accepts_digits all_whole.2]
      · exact accepts_fraction l.all_fraction (.inr rfl) delimited
      · intro b digit
        simp [NumberPart.next, digit]

theorem ne_of_isDigit {c : UInt8} (digit : isDigit b = true) (other : isDigit c = false) : b ≠ c := by
  rintro rfl
  rw [other] at digit
  cases digit

theorem not_space_of_isDigit (digit : isDigit b = true) : isSpace b = false := by
  cases space : isSpace b with
  | false => rfl
  | true => rcases isSpace_iff.mp space with rfl | rfl | rfl | rfl <;> cases digit

theorem beginValue_digit (digit : isDigit b = true) (nonzero : b ≠ 0x30) :
    beginValue stack b = some ⟨stack, .number .digits⟩ := by
  have brace := ne_of_isDigit digit (c := 0x7B) rfl
  have bracket := ne_of_isDigit digit (c := 0x5B) rfl
  have quote := ne_of_isDigit digit (c := 0x22) rfl
  have minus := ne_of_isDigit digit (c := 0x2D) rfl
  simp [beginValue, brace, bracket, quote, minus, nonzero, digit]

theorem step_value (space : isSpace b = false) :
    step ⟨stack, .between .value⟩ b = beginValue stack b := by
  simp [step, between, space]

theorem accepts_number {l : Literal} (delimited : Delimited rest) :
    accepts ⟨stack, .between .value⟩ (l.bytes ++ rest) =
      accepts ⟨stack, .between .separator⟩ rest := by
  simp only [Literal.bytes, List.append_assoc]
  cases l.negative with
  | false =>
    exact accepts_whole delimited rfl fun b digit nonzero =>
      (step_value (not_space_of_isDigit digit)).trans (beginValue_digit digit nonzero)
  | true =>
    rw [Literal.signBytes, if_pos rfl, List.singleton_append,
      accepts_cons ⟨stack, .number .sign⟩ rfl]
    apply accepts_whole delimited rfl
    intro b digit nonzero
    simp [step, NumberPart.next, digit, nonzero]

section
variable {number : Literal → Prop} {text : Bytes → Prop} {d : Nat}

/-- A value begins with a byte that the scan knows. -/
theorem begins (stack : List Container) (h : Derives number text .value d s rest) :
    ∃ b t after, s = b :: t ∧ isSpace b = false ∧ beginValue stack b = some after := by
  cases h with
  | @word _ w _ known =>
    simp only [words, List.mem_cons, List.not_mem_nil, or_false] at known
    rcases known with rfl | rfl | rfl <;> exact ⟨_, _, _, rfl, rfl, rfl⟩
  | @number _ l _ fits =>
    have all_whole := l.all_whole
    simp only [Literal.bytes, List.append_assoc]
    cases l.negative with
    | true => exact ⟨_, _, _, rfl, rfl, rfl⟩
    | false =>
      cases shape : l.whole with
      | nil => exact absurd shape l.some_whole
      | cons b more =>
        simp only [shape, List.all_cons, Bool.and_eq_true] at all_whole
        by_cases zero : b = 0x30
        · subst zero
          exact ⟨_, _, _, rfl, rfl, rfl⟩
        · exact ⟨b, _, _, rfl, not_space_of_isDigit all_whole.1, beginValue_digit all_whole.1 zero⟩
  | text => exact ⟨_, _, _, rfl, rfl, rfl⟩
  | emptyArray => exact ⟨_, _, _, rfl, rfl, rfl⟩
  | array => exact ⟨_, _, _, rfl, rfl, rfl⟩
  | emptyObject => exact ⟨_, _, _, rfl, rfl, rfl⟩
  | object => exact ⟨_, _, _, rfl, rfl, rfl⟩

/-- What the scan makes of each part of a document. -/
def Scans (stack : List Container) : Part → Bytes → Bytes → Prop
  | .value, s, rest => Delimited rest →
    accepts ⟨stack, .between .value⟩ s = accepts ⟨stack, .between .separator⟩ rest
  | .items, s, rest => accepts ⟨.array :: stack, .between .separator⟩ s =
    accepts ⟨stack, .between .separator⟩ rest
  | .members, s, rest => accepts ⟨.object :: stack, .between .separator⟩ s =
    accepts ⟨stack, .between .separator⟩ rest
  | .member, s, rest => Delimited rest →
    accepts ⟨stack, .between .name⟩ s = accepts ⟨stack, .between .separator⟩ rest

theorem scans {part : Part} (h : Derives number text part d s rest) (stack : List Container) :
    Scans stack part s rest := by
  induction h generalizing stack with
  | word known => exact fun _ => accepts_word known
  | number fits => exact accepts_number
  | @text d c rest content fits =>
    intro _
    rw [accepts_cons ⟨stack, .text false⟩ rfl, accepts_content content]
    exact accepts_cons _ rfl
  | @emptyArray d s rest close =>
    intro _
    rw [accepts_cons ⟨.array :: stack, .between .firstItem⟩ rfl, ← accepts_skipSpace,
      close]
    exact accepts_cons _ rfl
  | @array d s t rest first more ih_first ih_more =>
    intro _
    obtain ⟨b, u, after, shape, space, begun⟩ := begins (.array :: stack) first
    rw [accepts_cons ⟨.array :: stack, .between .firstItem⟩ rfl, ← accepts_skipSpace,
      shape, accepts_firstItem begun space, ← shape,
      ih_first (.array :: stack) (delimited_of_skipSpace (more.delimited (.inl rfl))),
      ← accepts_skipSpace]
    exact ih_more stack
  | @emptyObject d s rest close =>
    intro _
    rw [accepts_cons ⟨.object :: stack, .between .firstName⟩ rfl, ← accepts_skipSpace,
      close]
    exact accepts_cons _ rfl
  | @object d s t rest first more ih_first ih_more =>
    intro _
    rw [accepts_cons ⟨.object :: stack, .between .firstName⟩ rfl, ← accepts_skipSpace]
    have named : accepts ⟨.object :: stack, .between .firstName⟩ (skipSpace s) =
        accepts ⟨.object :: stack, .between .name⟩ (skipSpace s) := by
      generalize skipSpace s = u at first
      cases first with
      | member =>
        rw [accepts_cons ⟨.object :: stack, .text true⟩ rfl,
          accepts_cons ⟨.object :: stack, .text true⟩ rfl]
    rw [named, ih_first (.object :: stack) (delimited_of_skipSpace (more.delimited (.inr rfl))),
      ← accepts_skipSpace]
    exact ih_more stack
  | lastItem => exact accepts_cons _ rfl
  | @nextItem d s t rest item more ih_item ih_more =>
    rw [Scans, accepts_cons ⟨.array :: stack, .between .value⟩ rfl, ← accepts_skipSpace,
      ih_item (.array :: stack) (delimited_of_skipSpace (more.delimited (.inl rfl))),
      ← accepts_skipSpace]
    exact ih_more stack
  | lastMember => exact accepts_cons _ rfl
  | @nextMember d s t rest member more ih_member ih_more =>
    rw [Scans, accepts_cons ⟨.object :: stack, .between .name⟩ rfl, ← accepts_skipSpace,
      ih_member (.object :: stack) (delimited_of_skipSpace (more.delimited (.inr rfl))),
      ← accepts_skipSpace]
    exact ih_more stack
  | @member d c s t rest content fits colon value ih =>
    intro delimited
    rw [accepts_cons ⟨stack, .text true⟩ rfl, accepts_content content,
      accepts_cons ⟨stack, .between .colon⟩ rfl, ← accepts_skipSpace, colon,
      accepts_cons ⟨stack, .between .value⟩ rfl, ← accepts_skipSpace]
    exact ih stack delimited

end

theorem accepting_separator : accepts ⟨[], .between .separator⟩ s = true ↔ skipSpace s = [] := by
  rw [← accepts_skipSpace]
  cases shape : skipSpace s with
  | nil =>
    constructor
    · intro _
      rfl
    · intro _
      rfl
  | cons b t =>
    simp [accepts, run, List.foldlM_cons, step, between, isSpace_of_skipSpace shape, separate]

end TopicReader.Json.Scan

namespace TopicReader.Json

/-- Every document of the grammar is well formed. -/
theorem wellFormed_of_document {number : Literal → Prop} {text : Bytes → Prop} {d : Nat} {s : Bytes}
    (h : Document number text d s) : wellFormed s = true := by
  obtain ⟨rest, value, ended⟩ := h
  have delimited : Delimited rest := delimited_of_skipSpace (ended ▸ delimited_nil)
  have scanned := Scan.scans value [] delimited
  rw [Scan.accepts_skipSpace] at scanned
  exact scanned.trans (Scan.accepting_separator.mpr ended)

end TopicReader.Json
