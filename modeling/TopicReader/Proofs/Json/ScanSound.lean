import TopicReader.Proofs.Json.ScanComplete

/-! The scan accepts nothing but documents of the grammar. Each of its states demands something of
the text that is left; a byte that the scan takes brings back the demand of the state before. -/
namespace TopicReader.Json

/-- A part of a document that may nest to any depth, with any numbers and texts. -/
def Lax (part : Grammar.Part) (s rest : Bytes) : Prop :=
  ∃ d, Derives (fun _ => True) (fun _ => True) part d s rest

namespace Lax

variable {s t rest : Bytes}

/-- Two parts nest to a common depth. -/
theorem both {part part' : Grammar.Part} {s' t' : Bytes} (first : Lax part s t)
    (second : Lax part' s' t') :
    ∃ d, Derives (fun _ => True) (fun _ => True) part d s t ∧
      Derives (fun _ => True) (fun _ => True) part' d s' t' := by
  obtain ⟨d, first⟩ := first
  obtain ⟨e, second⟩ := second
  exact ⟨max d e, first.mono (fun _ => id) (fun _ => id) (Nat.le_max_left d e),
    second.mono (fun _ => id) (fun _ => id) (Nat.le_max_right d e)⟩

theorem array (first : Lax .value (skipSpace s) t) (more : Lax .items (skipSpace t) rest) :
    Lax .value (0x5B :: s) rest := by
  obtain ⟨d, first, more⟩ := first.both more
  exact ⟨d + 1, .array first more⟩

theorem object (first : Lax .member (skipSpace s) t) (more : Lax .members (skipSpace t) rest) :
    Lax .value (0x7B :: s) rest := by
  obtain ⟨d, first, more⟩ := first.both more
  exact ⟨d + 1, .object first more⟩

theorem nextItem (item : Lax .value (skipSpace s) t) (more : Lax .items (skipSpace t) rest) :
    Lax .items (0x2C :: s) rest := by
  obtain ⟨d, item, more⟩ := item.both more
  exact ⟨d, .nextItem item more⟩

theorem nextMember (member : Lax .member (skipSpace s) t)
    (more : Lax .members (skipSpace t) rest) : Lax .members (0x2C :: s) rest := by
  obtain ⟨d, member, more⟩ := member.both more
  exact ⟨d, .nextMember member more⟩

theorem member {c : Bytes} (content : Content c) (colon : skipSpace s = 0x3A :: t)
    (value : Lax .value (skipSpace t) rest) : Lax .member (0x22 :: (c ++ 0x22 :: s)) rest := by
  obtain ⟨d, value⟩ := value
  exact ⟨d, .member content trivial colon value⟩

end Lax

namespace Scan

variable {stack : List Container} {b : UInt8} {s t rest : Bytes} {expected : Expected}
  {part next : NumberPart} {isName : Bool} {before after : State}

/-- The text ends the open containers, from the inside out, and then itself. -/
inductive Ends : List Container → Bytes → Prop where
  | done {s : Bytes} (ended : skipSpace s = []) : Ends [] s
  | array {stack : List Container} {s t : Bytes} (items : Lax .items (skipSpace s) t)
      (outer : Ends stack t) : Ends (.array :: stack) s
  | object {stack : List Container} {s t : Bytes} (members : Lax .members (skipSpace s) t)
      (outer : Ends stack t) : Ends (.object :: stack) s

/-- The rest of a number, from each of its parts on. -/
def Completes : NumberPart → Bytes → Prop
  | .sign, s => ∃ l : Literal, l.negative = false ∧ s = l.bytes
  | .zero, s => ∃ fraction e, fraction.all isDigit = true ∧
    s = Literal.fractionBytes fraction ++ Literal.exponentBytes e
  | .digits, s => ∃ digits fraction e, digits.all isDigit = true ∧ fraction.all isDigit = true ∧
    s = digits ++ (Literal.fractionBytes fraction ++ Literal.exponentBytes e)
  | .point, s => ∃ digits e, digits ≠ [] ∧ digits.all isDigit = true ∧
    s = digits ++ Literal.exponentBytes e
  | .fraction, s => ∃ digits e, digits.all isDigit = true ∧ s = digits ++ Literal.exponentBytes e
  | .mark, s => ∃ (sign : Option UInt8) (digits : Bytes), (∀ b ∈ sign, b = 0x2B ∨ b = 0x2D) ∧
    digits ≠ [] ∧ digits.all isDigit = true ∧ s = sign.toList ++ digits
  | .markSign, s => s ≠ [] ∧ s.all isDigit = true
  | .power, s => s.all isDigit = true

/-- What must follow between two tokens. -/
def Follows (stack : List Container) : Expected → Bytes → Prop
  | .value, s => ∃ t, Lax .value (skipSpace s) t ∧ Ends stack t
  | .firstItem, s => (∃ t, skipSpace s = 0x5D :: t ∧ Ends stack.tail t) ∨
    ∃ t, Lax .value (skipSpace s) t ∧ Ends stack t
  | .firstName, s => (∃ t, skipSpace s = 0x7D :: t ∧ Ends stack.tail t) ∨
    ∃ t, Lax .member (skipSpace s) t ∧ Ends stack t
  | .name, s => ∃ t, Lax .member (skipSpace s) t ∧ Ends stack t
  | .colon, s => ∃ t u, skipSpace s = 0x3A :: t ∧ Lax .value (skipSpace t) u ∧ Ends stack u
  | .separator, s => Ends stack s

/-- The rest of a text whose content goes on with `c`, and what must follow it. -/
def Quoted (stack : List Container) (isName : Bool) (c s : Bytes) : Prop :=
  ∃ t, s = c ++ 0x22 :: t ∧ Follows stack (if isName then .colon else .separator) t

/-- What a state demands of the text that is left. -/
def Demands (stack : List Container) : Mode → Bytes → Prop
  | .between expected, s => Follows stack expected s
  | .text isName, s => ∃ c, Content c ∧ Quoted stack isName c s
  | .escape isName, s => ∃ c, Content (0x5C :: c) ∧ Quoted stack isName c s
  | .hex isName left, s => ∃ digits c, digits.length = max left 1 ∧
    (∀ b ∈ digits, (hexValue? b).isSome) ∧ Content c ∧ Quoted stack isName (digits ++ c) s
  | .number part, s => ∃ c t, Completes part c ∧ s = c ++ t ∧ Ends stack t
  | .literal w, s => ∃ t, s = w ++ t ∧ Ends stack t

theorem skipSpace_space (space : isSpace b = true) : skipSpace (b :: s) = skipSpace s :=
  List.dropWhile_cons_of_pos space

theorem skipSpace_other (space : isSpace b = false) : skipSpace (b :: s) = b :: s :=
  List.dropWhile_cons_of_neg (by simp [space])

theorem Ends.congr (h : Ends stack s) (same : skipSpace t = skipSpace s) : Ends stack t := by
  cases h with
  | done ended => exact .done (same.trans ended)
  | array items outer => exact .array (same ▸ items) outer
  | object members outer => exact .object (same ▸ members) outer

/-- White space before a token makes no difference. -/
theorem Follows.congr (h : Follows stack expected s) (same : skipSpace t = skipSpace s) :
    Follows stack expected t := by
  cases expected with
  | separator => exact Ends.congr h same
  | _ => simpa only [Follows, same] using h

theorem completes_nil (complete : part.complete = true) : Completes part [] := by
  cases part with
  | zero => exact ⟨[], none, rfl, rfl⟩
  | digits => exact ⟨[], [], none, rfl, rfl, rfl⟩
  | fraction => exact ⟨[], none, rfl, rfl⟩
  | power => rfl
  | _ => cases complete

theorem exponent_of_mark (mark : b = 0x65 ∨ b = 0x45) (h : Completes .mark s) :
    ∃ e : Exponent, b :: s = Literal.exponentBytes (some e) := by
  obtain ⟨sign, digits, is_sign, some_digits, all_digits, rfl⟩ := h
  exact ⟨⟨b, sign, digits, mark, is_sign, some_digits, all_digits⟩, rfl⟩

theorem fraction_of_point (point : b = 0x2E) (h : Completes .point s) :
    Completes .zero (b :: s) := by
  obtain ⟨digits, e, some_digits, all_digits, rfl⟩ := h
  refine ⟨digits, e, all_digits, ?_⟩
  rw [Literal.fractionBytes, if_neg some_digits, point, List.cons_append]

theorem completes_of_next (moved : part.next b = some next) (h : Completes next s) :
    Completes part (b :: s) := by
  cases part with
  | sign =>
    simp only [NumberPart.next] at moved
    split at moved
    · rename_i zero
      cases moved
      obtain ⟨fraction, e, all_fraction, rfl⟩ := h
      exact ⟨⟨false, [0x30], fraction, e, by simp, rfl, fun _ => rfl, all_fraction⟩, rfl,
        by rw [zero]; rfl⟩
    · rename_i nonzero
      split at moved
      · rename_i digit
        cases moved
        obtain ⟨digits, fraction, e, all_digits, all_fraction, rfl⟩ := h
        refine ⟨⟨false, b :: digits, fraction, e, by simp, ?_, ?_, all_fraction⟩, rfl, rfl⟩
        · simp [digit, all_digits]
        · simp [nonzero]
      · cases moved
  | zero =>
    simp only [NumberPart.next] at moved
    split at moved
    · rename_i point
      cases moved
      exact fraction_of_point point h
    · split at moved
      · rename_i mark
        cases moved
        obtain ⟨e, same⟩ := exponent_of_mark mark h
        exact ⟨[], some e, rfl, same⟩
      · cases moved
  | digits =>
    simp only [NumberPart.next] at moved
    split at moved
    · rename_i digit
      cases moved
      obtain ⟨digits, fraction, e, all_digits, all_fraction, rfl⟩ := h
      exact ⟨b :: digits, fraction, e, by simp [digit, all_digits], all_fraction, rfl⟩
    · split at moved
      · rename_i point
        cases moved
        obtain ⟨fraction, e, all_fraction, same⟩ := fraction_of_point point h
        exact ⟨[], fraction, e, rfl, all_fraction, same⟩
      · split at moved
        · rename_i mark
          cases moved
          obtain ⟨e, same⟩ := exponent_of_mark mark h
          exact ⟨[], [], some e, rfl, rfl, same⟩
        · cases moved
  | point =>
    simp only [NumberPart.next] at moved
    split at moved
    · rename_i digit
      cases moved
      obtain ⟨digits, e, all_digits, rfl⟩ := h
      exact ⟨b :: digits, e, by simp, by simp [digit, all_digits], rfl⟩
    · cases moved
  | fraction =>
    simp only [NumberPart.next] at moved
    split at moved
    · rename_i digit
      cases moved
      obtain ⟨digits, e, all_digits, rfl⟩ := h
      exact ⟨b :: digits, e, by simp [digit, all_digits], rfl⟩
    · split at moved
      · rename_i mark
        cases moved
        obtain ⟨e, same⟩ := exponent_of_mark mark h
        exact ⟨[], some e, rfl, same⟩
      · cases moved
  | mark =>
    simp only [NumberPart.next] at moved
    split at moved
    · rename_i is_sign
      cases moved
      exact ⟨some b, s, by simpa using is_sign, h.1, h.2, rfl⟩
    · split at moved
      · rename_i digit
        cases moved
        have more : s.all isDigit = true := h
        exact ⟨none, b :: s, by simp, by simp, by rw [List.all_cons, digit, more]; rfl, rfl⟩
      · cases moved
  | markSign =>
    simp only [NumberPart.next] at moved
    split at moved
    · rename_i digit
      cases moved
      have more : s.all isDigit = true := h
      exact ⟨by simp, by rw [List.all_cons, digit, more]; rfl⟩
    · cases moved
  | power =>
    simp only [NumberPart.next] at moved
    split at moved
    · rename_i digit
      cases moved
      have more : s.all isDigit = true := h
      simpa only [Completes, List.all_cons, digit, Bool.true_and] using more
    · cases moved

theorem beginValue_cases (begun : beginValue stack b = some after) :
    (b = 0x7B ∧ after = ⟨.object :: stack, .between .firstName⟩) ∨
    (b = 0x5B ∧ after = ⟨.array :: stack, .between .firstItem⟩) ∨
    (b = 0x22 ∧ after = ⟨stack, .text false⟩) ∨
    (b = 0x2D ∧ after = ⟨stack, .number .sign⟩) ∨
    (∃ part, NumberPart.sign.next b = some part ∧ after = ⟨stack, .number part⟩) ∨
    ∃ w, b :: w ∈ words ∧ after = ⟨stack, .literal w⟩ := by
  unfold beginValue at begun
  simp only [words, List.mem_cons, List.cons.injEq, List.not_mem_nil, or_false]
  repeat' split at begun
  all_goals cases begun
  all_goals simp_all [NumberPart.next]

/-- A first byte that begins a value brings back the demand for the value. -/
theorem value_of_begun (begun : beginValue stack b = some after)
    (h : Demands after.stack after.mode s) : ∃ t, Lax .value (b :: s) t ∧ Ends stack t := by
  have number {c t : Bytes} (whole : Completes .sign c) : Lax .value (c ++ t) t := by
    obtain ⟨l, _, rfl⟩ := whole
    exact ⟨0, .number trivial⟩
  rcases beginValue_cases begun with ⟨rfl, rfl⟩ | ⟨rfl, rfl⟩ | ⟨rfl, rfl⟩ | ⟨rfl, rfl⟩ |
    ⟨part, moved, rfl⟩ | ⟨w, known, rfl⟩
  · rcases h with ⟨t, close, outer⟩ | ⟨t, first, ends⟩
    · exact ⟨t, ⟨1, .emptyObject close⟩, outer⟩
    · cases ends with
      | object members outer => exact ⟨_, first.object members, outer⟩
  · rcases h with ⟨t, close, outer⟩ | ⟨t, first, ends⟩
    · exact ⟨t, ⟨1, .emptyArray close⟩, outer⟩
    · cases ends with
      | array items outer => exact ⟨_, first.array items, outer⟩
  · obtain ⟨c, content, t, rfl, outer⟩ := h
    exact ⟨t, ⟨0, .text content trivial⟩, outer⟩
  · obtain ⟨_, t, ⟨l, positive, rfl⟩, rfl, outer⟩ := h
    have spelled : 0x2D :: (l.bytes ++ t) = Literal.bytes { l with negative := true } ++ t := by
      simp [Literal.bytes, Literal.signBytes, positive]
    exact ⟨t, ⟨0, spelled ▸ .number trivial⟩, outer⟩
  · obtain ⟨c, t, completes, rfl, outer⟩ := h
    exact ⟨t, number (c := b :: c) (completes_of_next moved completes), outer⟩
  · obtain ⟨t, rfl, outer⟩ := h
    exact ⟨t, ⟨0, .word known⟩, outer⟩

/-- The byte after a value goes on with the container around it. -/
theorem ends_of_separate (separated : separate stack b = some after) (space : isSpace b = false)
    (h : Demands after.stack after.mode s) : Ends stack (b :: s) := by
  unfold separate at separated
  split at separated
  · rename_i outer
    split at separated
    · rename_i comma
      cases separated
      subst comma
      obtain ⟨t, value, ends⟩ := h
      cases ends with
      | array items outer => exact .array (value.nextItem items) outer
    · split at separated
      · rename_i close
        cases separated
        subst close
        exact .array ⟨0, .lastItem⟩ h
      · cases separated
  · rename_i outer
    split at separated
    · rename_i comma
      cases separated
      subst comma
      obtain ⟨t, member, ends⟩ := h
      cases ends with
      | object members outer => exact .object (member.nextMember members) outer
    · split at separated
      · rename_i close
        cases separated
        subst close
        exact .object ⟨0, .lastMember⟩ h
      · cases separated
  · cases separated

theorem member_of_quoted {c : Bytes} (content : Content c) (h : Quoted stack true c s) :
    ∃ t, Lax .member (0x22 :: s) t ∧ Ends stack t := by
  obtain ⟨t, rfl, u, v, colon, value, outer⟩ := h
  exact ⟨v, .member content colon value, outer⟩

/-- A byte between two tokens brings back the demand of the state before. -/
theorem follows_of_between (moved : between stack expected b = some after)
    (h : Demands after.stack after.mode s) : Follows stack expected (b :: s) := by
  unfold between at moved
  split at moved
  · rename_i space
    cases moved
    exact Follows.congr h (skipSpace_space space)
  · rename_i other
    have space : isSpace b = false := by simpa using other
    have token : skipSpace (b :: s) = b :: s := skipSpace_other space
    cases expected with
    | value =>
      obtain ⟨t, value, ends⟩ := value_of_begun moved h
      exact ⟨t, by rwa [token], ends⟩
    | firstItem =>
      simp only at moved
      split at moved
      · rename_i close
        cases moved
        subst close
        exact .inl ⟨s, token, h⟩
      · obtain ⟨t, value, ends⟩ := value_of_begun moved h
        exact .inr ⟨t, by rwa [token], ends⟩
    | firstName =>
      simp only at moved
      split at moved
      · rename_i close
        cases moved
        subst close
        exact .inl ⟨s, token, h⟩
      · split at moved
        · rename_i quote
          cases moved
          subst quote
          obtain ⟨c, content, quoted⟩ := h
          obtain ⟨t, member, ends⟩ := member_of_quoted content quoted
          exact .inr ⟨t, by rwa [token], ends⟩
        · cases moved
    | name =>
      simp only at moved
      split at moved
      · rename_i quote
        cases moved
        subst quote
        obtain ⟨c, content, quoted⟩ := h
        obtain ⟨t, member, ends⟩ := member_of_quoted content quoted
        exact ⟨t, by rwa [token], ends⟩
      · cases moved
    | colon =>
      simp only at moved
      split at moved
      · rename_i colon
        cases moved
        subst colon
        obtain ⟨t, value, ends⟩ := h
        exact ⟨s, t, token, value, ends⟩
      · cases moved
    | separator => exact ends_of_separate moved space h

/-- A byte within a text brings back the demand of the state before. -/
theorem demands_of_text (moved : step ⟨stack, .text isName⟩ b = some after)
    (h : Demands after.stack after.mode s) : Demands stack (.text isName) (b :: s) := by
  simp only [step] at moved
  split at moved
  · rename_i quote
    cases moved
    exact ⟨[], .nil, s, by rw [quote]; rfl, h⟩
  · rename_i quote
    split at moved
    · rename_i backslash
      cases moved
      obtain ⟨c, content, t, rfl, outer⟩ := h
      exact ⟨0x5C :: c, content, t, by rw [backslash]; rfl, outer⟩
    · rename_i backslash
      split at moved
      · cases moved
      · rename_i printable
        cases moved
        obtain ⟨c, content, t, rfl, outer⟩ := h
        exact ⟨b :: c, .plain quote backslash printable content, t, rfl, outer⟩

theorem content_of_hex {digits c : Bytes} (length : digits.length = 4)
    (hex : ∀ b ∈ digits, (hexValue? b).isSome) (content : Content c) :
    Content (0x5C :: 0x75 :: (digits ++ c)) := by
  obtain ⟨w, x, y, z, rfl⟩ : ∃ w x y z, digits = [w, x, y, z] := by
    match digits, length with
    | [w, x, y, z], _ => exact ⟨w, x, y, z, rfl⟩
  simp only [List.mem_cons, List.not_mem_nil, or_false, forall_eq_or_imp, forall_eq,
    Option.isSome_iff_exists] at hex
  obtain ⟨⟨_, first⟩, ⟨_, second⟩, ⟨_, third⟩, _, fourth⟩ := hex
  exact .unicode (codeUnit?_eq_some.mpr ⟨_, first, _, second, _, third, _, fourth, rfl⟩) content

theorem demands_of_escape (moved : step ⟨stack, .escape isName⟩ b = some after)
    (h : Demands after.stack after.mode s) : Demands stack (.escape isName) (b :: s) := by
  simp only [step] at moved
  split at moved
  · rename_i unicode
    cases moved
    subst unicode
    obtain ⟨digits, c, length, hex, content, t, rfl, outer⟩ := h
    exact ⟨0x75 :: (digits ++ c), content_of_hex length hex content, t, rfl, outer⟩
  · obtain ⟨e, letter, rfl⟩ := Option.map_eq_some_iff.mp moved
    obtain ⟨c, content, t, rfl, outer⟩ := h
    exact ⟨b :: c, .simple letter content, t, rfl, outer⟩

theorem demands_of_hex {left : Nat} (moved : step ⟨stack, .hex isName left⟩ b = some after)
    (h : Demands after.stack after.mode s) : Demands stack (.hex isName left) (b :: s) := by
  simp only [step] at moved
  obtain ⟨n, digit, rfl⟩ := Option.map_eq_some_iff.mp moved
  split at h
  · rename_i last
    obtain ⟨c, content, t, rfl, outer⟩ := h
    exact ⟨[b], c, by simp; omega, by simp [digit], content, t, rfl, outer⟩
  · rename_i more
    obtain ⟨digits, c, length, hex, content, t, rfl, outer⟩ := h
    refine ⟨b :: digits, c, ?_, ?_, content, t, rfl, outer⟩
    · simp only [List.length_cons, length]
      omega
    · simpa [digit] using hex

theorem demands_of_number (moved : step ⟨stack, .number part⟩ b = some after)
    (h : Demands after.stack after.mode s) : Demands stack (.number part) (b :: s) := by
  simp only [step] at moved
  split at moved
  · rename_i next goes_on
    cases moved
    obtain ⟨c, t, completes, rfl, ends⟩ := h
    exact ⟨b :: c, t, completes_of_next goes_on completes, rfl, ends⟩
  · split at moved
    · rename_i complete
      exact ⟨[], b :: s, completes_nil complete, rfl, follows_of_between moved h⟩
    · cases moved

theorem demands_of_literal {w : Bytes} (moved : step ⟨stack, .literal w⟩ b = some after)
    (h : Demands after.stack after.mode s) : Demands stack (.literal w) (b :: s) := by
  simp only [step] at moved
  split at moved
  · exact ⟨b :: s, rfl, follows_of_between moved h⟩
  · split at moved
    · rename_i same
      cases moved
      subst same
      exact ⟨s, rfl, h⟩
    · cases moved
  · split at moved
    · rename_i same
      cases moved
      subst same
      obtain ⟨t, rfl, outer⟩ := h
      exact ⟨t, rfl, outer⟩
    · cases moved

theorem demands_of_step (moved : step before b = some after)
    (h : Demands after.stack after.mode s) : Demands before.stack before.mode (b :: s) := by
  obtain ⟨stack, mode⟩ := before
  cases mode with
  | between expected => exact follows_of_between moved h
  | text isName => exact demands_of_text moved h
  | escape isName => exact demands_of_escape moved h
  | hex isName left => exact demands_of_hex moved h
  | number part => exact demands_of_number moved h
  | literal w => exact demands_of_literal moved h

theorem demands_nil (accepting : before.accepting = true) :
    Demands before.stack before.mode [] := by
  obtain ⟨stack, mode⟩ := before
  simp only [State.accepting, Bool.and_eq_true, List.isEmpty_iff] at accepting
  obtain ⟨rfl, ends⟩ := accepting
  split at ends
  · exact .done rfl
  · exact ⟨[], [], completes_nil ends, rfl, .done rfl⟩
  · cases ends

/-- What the scan accepts from a state is what the state demands. -/
theorem demands_of_accepts (before : State) (accepted : accepts before s = true) :
    Demands before.stack before.mode s := by
  induction s generalizing before with
  | nil => exact demands_nil (by simpa [accepts, run] using accepted)
  | cons b rest ih =>
    cases moved : step before b with
    | none => simp [accepts, run, List.foldlM_cons, moved] at accepted
    | some after =>
      rw [accepts_cons after moved] at accepted
      exact demands_of_step moved (ih after accepted)

end Scan

/-- The scan accepts exactly the documents of the grammar that bounds nothing. -/
theorem wellFormed_iff {s : Bytes} :
    wellFormed s = true ↔ ∃ d, Document (fun _ => True) (fun _ => True) d s := by
  constructor
  · intro accepted
    obtain ⟨rest, ⟨d, value⟩, ends⟩ := Scan.demands_of_accepts .start accepted
    cases ends with
    | done ended => exact ⟨d, rest, value, ended⟩
  · rintro ⟨d, document⟩
    exact wellFormed_of_document document

end TopicReader.Json
