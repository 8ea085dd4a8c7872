import TopicReader.Proofs.Json.ScanComplete
import TopicReader.Proofs.Json.Tree

/-! Reading gives the value of the tree that a document spells, where containers nest within the
limit and no number is too large. So documents are read if and only if the grammar derives them with
numbers that are not too large, texts that stand for texts, and containers that nest within the
limit. -/
namespace TopicReader.Json

open Grammar

variable {number : Literal → Prop} {text : Bytes → Prop} {part : Part} {phrase : Phrase} {d n : Nat}
  {s t rest : Bytes} {v : Value}

theorem length_skipSpace (s : Bytes) : (skipSpace s).length ≤ s.length := by
  have split := congrArg List.length (List.takeWhile_append_dropWhile (p := isSpace) (l := s))
  rw [List.length_append] at split
  unfold skipSpace
  omega

theorem skipSpace_skipSpace (s : Bytes) : skipSpace (skipSpace s) = skipSpace s := by
  cases shape : skipSpace s with
  | nil => rfl
  | cons b t => exact List.dropWhile_cons_of_neg (by simp [isSpace_of_skipSpace shape])

/-- Every part of a document takes at least one byte. -/
theorem Derives.length_lt (h : Derives number text part d s rest) :
    rest.length < s.length := by
  induction h with
  | word known =>
    simp only [words, List.mem_cons, List.not_mem_nil, or_false] at known
    rcases known with rfl | rfl | rfl <;> simp only [List.length_append, List.length_cons] <;> omega
  | @number d l rest fits =>
    have some_whole := List.length_pos_iff.mpr l.some_whole
    simp only [Literal.bytes, List.length_append]
    omega
  | text => simp only [List.length_cons, List.length_append]; omega
  | @emptyArray d s rest close =>
    have skipped := length_skipSpace s
    simp only [close, List.length_cons] at skipped ⊢
    omega
  | @array d s t rest first more ih_first ih_more =>
    have outer := length_skipSpace s
    have inner := length_skipSpace t
    simp only [List.length_cons]
    omega
  | @emptyObject d s rest close =>
    have skipped := length_skipSpace s
    simp only [close, List.length_cons] at skipped ⊢
    omega
  | @object d s t rest first more ih_first ih_more =>
    have outer := length_skipSpace s
    have inner := length_skipSpace t
    simp only [List.length_cons]
    omega
  | lastItem => simp
  | @nextItem d s t rest item more ih_item ih_more =>
    have outer := length_skipSpace s
    have inner := length_skipSpace t
    simp only [List.length_cons]
    omega
  | lastMember => simp
  | @nextMember d s t rest member more ih_member ih_more =>
    have outer := length_skipSpace s
    have inner := length_skipSpace t
    simp only [List.length_cons]
    omega
  | @member d c s t rest content fits colon value ih =>
    have outer := length_skipSpace s
    have inner := length_skipSpace t
    simp only [colon, List.length_cons, List.length_append] at outer ⊢
    omega

theorem readValue_scalar (no_array : (skipSpace s).head? ≠ some 0x5B)
    (no_object : (skipSpace s).head? ≠ some 0x7B) : readValue d s = readScalar (skipSpace s) := by
  cases d with
  | zero =>
    unfold readValue
    split
    · rename_i shape
      simp [shape] at no_array
    · rename_i shape
      simp [shape] at no_object
    · rfl
  | succ d =>
    unfold readValue
    split
    · rename_i shape
      simp [shape] at no_array
    · rename_i shape
      simp [shape] at no_object
    · rfl

theorem readScalar_number (no_quote : s.head? ≠ some 0x22) (no_true : s.head? ≠ some 0x74)
    (no_false : s.head? ≠ some 0x66) (no_null : s.head? ≠ some 0x6E) :
    readScalar s = (Number.read s).map fun (n, rest) => (.number n, rest) := by
  unfold readScalar
  split
  · simp at no_quote
  · simp at no_true
  · simp at no_false
  · simp at no_null
  · rfl

/-- A number begins with a sign or a digit. -/
theorem Literal.head (l : Literal) (rest : Bytes) :
    ∃ b, (l.bytes ++ rest).head? = some b ∧ (b = 0x2D ∨ isDigit b = true) := by
  unfold Literal.bytes
  cases l.negative with
  | true => exact ⟨_, rfl, .inl rfl⟩
  | false =>
    obtain ⟨b, first, digit⟩ := Number.head_digit
      (fractionBytes l.fraction ++ exponentBytes l.exponent ++ rest) l.all_whole l.some_whole
    refine ⟨b, ?_, .inr digit⟩
    rw [signBytes, if_neg (by simp), List.nil_append, List.append_assoc]
    exact first

theorem Literal.append_ne (l : Literal) {b : UInt8} (no_sign : b ≠ 0x2D)
    (no_digit : isDigit b = false) : (l.bytes ++ rest).head? ≠ some b := by
  obtain ⟨c, first, sign_or_digit⟩ := l.head rest
  rw [first]
  rintro ⟨⟩
  rcases sign_or_digit with sign | digit
  · exact no_sign sign
  · rw [no_digit] at digit
    cases digit

theorem readScalar_literal {l : Literal} {n : Number} (value : l.value? = some n)
    (delimited : Delimited rest) : readScalar (l.bytes ++ rest) = .ok (.number n, rest) := by
  have read := Number.read_literal l delimited
  rw [value] at read
  rw [readScalar_number (l.append_ne (by decide) rfl) (l.append_ne (by decide) rfl)
    (l.append_ne (by decide) rfl) (l.append_ne (by decide) rfl)]
  cases answer : Number.read (l.bytes ++ rest) with
  | error f => simp [answer, Except.toOption] at read
  | ok pair =>
    obtain rfl : pair = (n, rest) := by simpa [answer, Except.toOption] using read
    rfl

theorem readScalar_text {c : Bytes} {text : String} (means : Means c text) :
    readScalar (0x22 :: (c ++ 0x22 :: rest)) = .ok (.text text, rest) := by
  simp [readScalar, Text.content_of_means means, Except.map]

/-- A name, a colon and a value are read one after the other. -/
def ReadsMember (d : Nat) (s : Bytes) (name : String) (v : Value) (rest : Bytes) : Prop :=
  ∃ t w u, s = 0x22 :: t ∧ Text.content t = .ok (name, w) ∧ skipSpace w = 0x3A :: u ∧
    readValue d u = .ok (v, rest)

/-- What reading makes of each part of a document. The rest of a container is read after a value or
a member that comes before it, with enough fuel. -/
def Reads (d : Nat) : Phrase → Bytes → Bytes → Prop
  | .value t, s, rest => Delimited rest → ∀ v, t.value? = some v →
    ∀ w, skipSpace w = s → readValue d w = .ok (v, rest)
  | .items ts, s, rest => ∀ vs, Tree.itemValues? ts = some vs →
    ∀ n done w t v, readValue d w = .ok (v, t) → skipSpace t = s → s.length ≤ n →
      readItems (readValue d) n done w = .ok (done.reverse ++ v :: vs, rest)
  | .member name t, s, rest => Delimited rest → ∀ v, t.value? = some v → ReadsMember d s name v rest
  | .members ms, s, rest => ∀ vs, Tree.memberValues? ms = some vs →
    ∀ n done w t name v, ReadsMember d (skipSpace w) name v t → skipSpace t = s → s.length ≤ n →
      readMembers (readValue d) n done w = .ok (insertMembers done ((name, v) :: vs), rest)

theorem readValue_array {w : Bytes} (same : skipSpace w = 0x5B :: s)
    (no_close : (skipSpace s).head? ≠ some 0x5D) : readValue (d + 1) w =
      (readItems (readValue d) (skipSpace s).length [] (skipSpace s)).map
        fun (items, rest) => (.array items, rest) := by
  rw [readValue, same]
  simp only
  split
  · rename_i shape
    simp [shape] at no_close
  · rfl

theorem readValue_object {w : Bytes} (same : skipSpace w = 0x7B :: s)
    (no_close : (skipSpace s).head? ≠ some 0x7D) : readValue (d + 1) w =
      (readMembers (readValue d) (skipSpace s).length [] (skipSpace s)).map
        fun (members, rest) => (.object members, rest) := by
  rw [readValue, same]
  simp only
  split
  · rename_i shape
    simp [shape] at no_close
  · rfl

theorem readValue_of_scalar {w : Bytes} (no_array : s.head? ≠ some 0x5B)
    (no_object : s.head? ≠ some 0x7B) (same : skipSpace w = s) : readValue d w = readScalar s := by
  rw [readValue_scalar (same ▸ no_array) (same ▸ no_object), same]

theorem reads (h : Spells d phrase s rest) : Reads d phrase s rest := by
  induction h with
  | null | yes | no =>
    rintro _ v ⟨⟩ w same
    exact readValue_of_scalar (by simp) (by simp) same
  | @number d l rest =>
    intro delimited v value w same
    obtain ⟨n, number, rfl⟩ := Option.map_eq_some_iff.mp value
    rw [readValue_of_scalar (l.append_ne (by decide) rfl) (l.append_ne (by decide) rfl) same]
    exact readScalar_literal number delimited
  | text means =>
    rintro _ v ⟨⟩ w same
    rw [readValue_of_scalar (by simp) (by simp) same]
    exact readScalar_text means
  | emptyArray close =>
    rintro _ v ⟨⟩ w same
    simp [readValue, same, close]
  | @array d first ts s t rest begun more ih_first ih_more =>
    intro _ v value w same
    obtain ⟨_, values, rfl⟩ := Option.map_eq_some_iff.mp value
    obtain ⟨x, x_value, xs, xs_values, rfl⟩ := Tree.itemValues?_cons.mp values
    obtain ⟨b, u, after, shape, _, begins⟩ := Scan.begins [] begun.shape
    have no_close : (skipSpace s).head? ≠ some 0x5D := by
      rw [shape]
      rintro ⟨⟩
      cases begins
    have read := ih_first (more.delimited (.inl rfl)) x x_value
      (skipSpace s) (skipSpace_skipSpace s)
    have shorter := begun.shape.length_lt
    have skipped := length_skipSpace t
    have all := ih_more xs xs_values (skipSpace s).length [] (skipSpace s) t x read rfl (by omega)
    rw [readValue_array same no_close, all]
    rfl
  | emptyObject close =>
    rintro _ v ⟨⟩ w same
    simp [readValue, same, close]
  | @object d name first ms s t rest begun more ih_first ih_more =>
    intro _ v value w same
    obtain ⟨_, values, rfl⟩ := Option.map_eq_some_iff.mp value
    obtain ⟨x, x_value, xs, xs_values, rfl⟩ := Tree.memberValues?_cons.mp values
    have read := ih_first (more.delimited (.inr rfl)) x x_value
    have no_close : (skipSpace s).head? ≠ some 0x7D := by
      obtain ⟨_, _, _, shape, _⟩ := read
      simp [shape]
    have shorter := begun.shape.length_lt
    have skipped := length_skipSpace t
    rw [← skipSpace_skipSpace s] at read
    have all :=
      ih_more xs xs_values (skipSpace s).length [] (skipSpace s) t name x read rfl (by omega)
    rw [readValue_object same no_close, all]
    rfl
  | lastItem =>
    rintro vs ⟨⟩ n done w t v read same fuel
    obtain ⟨n, rfl⟩ := Nat.exists_eq_succ_of_ne_zero (Nat.ne_zero_of_lt fuel)
    simp [readItems, read, bind, Except.bind, same]
  | @nextItem d next ts s t rest item more ih_item ih_more =>
    intro vs values n done w u v read same fuel
    obtain ⟨x, x_value, xs, xs_values, rfl⟩ := Tree.itemValues?_cons.mp values
    obtain ⟨n, rfl⟩ := Nat.exists_eq_succ_of_ne_zero (Nat.ne_zero_of_lt fuel)
    have another := ih_item (more.delimited (.inl rfl)) x x_value s rfl
    have shorter := item.shape.length_lt
    have outer := length_skipSpace s
    have inner := length_skipSpace t
    simp only [List.length_cons] at fuel
    have all := ih_more xs xs_values n (v :: done) s t x another rfl (by omega)
    simp [readItems, read, bind, Except.bind, same, all]
  | lastMember =>
    rintro vs ⟨⟩ n done w t name v ⟨u, x, y, quote, content, colon, read⟩ same fuel
    obtain ⟨n, rfl⟩ := Nat.exists_eq_succ_of_ne_zero (Nat.ne_zero_of_lt fuel)
    simp [readMembers, quote, content, colon, read, bind, Except.bind, same]
  | @nextMember d other next ms s t rest member more ih_member ih_more =>
    rintro vs values n done w u name v ⟨x, y, z, quote, content, colon, read⟩ same fuel
    obtain ⟨a, a_value, xs, xs_values, rfl⟩ := Tree.memberValues?_cons.mp values
    obtain ⟨n, rfl⟩ := Nat.exists_eq_succ_of_ne_zero (Nat.ne_zero_of_lt fuel)
    have another := ih_member (more.delimited (.inr rfl)) a a_value
    have shorter := member.shape.length_lt
    have outer := length_skipSpace s
    have inner := length_skipSpace t
    simp only [List.length_cons] at fuel
    have all := ih_more xs xs_values n (insertMember name v done) s t other a another rfl (by omega)
    simp [readMembers, quote, content, colon, read, bind, Except.bind, same, all]
  | @member d c name first s t rest means colon value ih =>
    intro delimited v v_value
    exact ⟨_, s, t, rfl, Text.content_of_means means s, colon, ih delimited v v_value t rfl⟩

theorem spells_of_readScalar (h : readScalar s = .ok (v, rest)) :
    ∃ t, Spells d (.value t) s rest ∧ t.value? = some v := by
  unfold readScalar at h
  split at h
  · rename_i t
    cases answer : Text.content t with
    | error f => simp [answer, Except.map] at h
    | ok pair =>
      obtain ⟨text, u⟩ := pair
      obtain ⟨c, means, rfl⟩ := Text.means_of_content answer
      simp only [answer, Except.map] at h
      cases h
      exact ⟨.text text, .text means, rfl⟩
  · cases h
    exact ⟨_, .yes, rfl⟩
  · cases h
    exact ⟨_, .no, rfl⟩
  · cases h
    exact ⟨_, .null, rfl⟩
  · cases answer : Number.read s with
    | error f => simp [answer, Except.map] at h
    | ok pair =>
      obtain ⟨n, u⟩ := pair
      obtain ⟨l, value, rfl⟩ := Number.literal_of_read answer
      simp only [answer, Except.map] at h
      cases h
      exact ⟨.number l, .number, by simp [Tree.value?, value]⟩

/-- Whether what a reader of values takes is a tree, and what it gives is the value of that tree. -/
def Sound (d : Nat) (item : Bytes → Except Failure (Value × Bytes)) : Prop :=
  ∀ s v rest, item s = .ok (v, rest) →
    ∃ t, Spells d (.value t) (skipSpace s) rest ∧ t.value? = some v

theorem spells_of_readItems {item : Bytes → Except Failure (Value × Bytes)} (sound : Sound d item)
    {done items : List Value} (h : readItems item n done s = .ok (items, rest)) :
    ∃ t ts u values, Spells d (.value t) (skipSpace s) u ∧ Spells d (.items ts) (skipSpace u) rest ∧
      Tree.itemValues? (t :: ts) = some values ∧ items = done.reverse ++ values := by
  induction n generalizing done s with
  | zero => cases h
  | succ n ih =>
    unfold readItems at h
    cases answer : item s with
    | error f => simp [answer, bind, Except.bind] at h
    | ok pair =>
      obtain ⟨v, u⟩ := pair
      obtain ⟨t, first, value⟩ := sound s v u answer
      simp only [answer, bind, Except.bind] at h
      split at h
      · rename_i w comma
        obtain ⟨next, ts, x, values, item, more, next_values, rfl⟩ := ih h
        refine ⟨t, next :: ts, u, v :: values, first, comma ▸ .nextItem item more, ?_, by simp⟩
        exact Tree.itemValues?_cons.mpr ⟨v, value, values, next_values, rfl⟩
      · rename_i w close
        cases h
        exact ⟨t, [], u, [v], first, close ▸ .lastItem,
          Tree.itemValues?_cons.mpr ⟨v, value, [], rfl, rfl⟩, by simp⟩
      · cases h

theorem spells_of_readMembers {item : Bytes → Except Failure (Value × Bytes)}
    (sound : Sound d item) {done members : List (String × Value)}
    (h : readMembers item n done s = .ok (members, rest)) :
    ∃ name t ms u values, Spells d (.member name t) (skipSpace s) u ∧
      Spells d (.members ms) (skipSpace u) rest ∧
      Tree.memberValues? ((name, t) :: ms) = some values ∧ members = insertMembers done values := by
  induction n generalizing done s with
  | zero => cases h
  | succ n ih =>
    unfold readMembers at h
    split at h
    · rename_i x quote
      cases read : Text.content x with
      | error f => simp [read, bind, Except.bind] at h
      | ok pair =>
        obtain ⟨name, w⟩ := pair
        obtain ⟨c, means, rfl⟩ := Text.means_of_content read
        simp only [read, bind, Except.bind] at h
        split at h
        · rename_i y colon
          cases answer : item y with
          | error f => simp [answer] at h
          | ok pair =>
            obtain ⟨v, u⟩ := pair
            obtain ⟨t, item, value⟩ := sound y v u answer
            have first : Spells d (.member name t) (skipSpace s) u :=
              quote ▸ .member means colon item
            simp only [answer] at h
            split at h
            · rename_i z comma
              obtain ⟨other, next, ms, a, values, member, more, next_values, rfl⟩ := ih h
              refine ⟨name, t, (other, next) :: ms, u, (name, v) :: values, first,
                comma ▸ .nextMember member more, ?_, rfl⟩
              exact Tree.memberValues?_cons.mpr ⟨v, value, values, next_values, rfl⟩
            · rename_i z close
              cases h
              exact ⟨name, t, [], u, [(name, v)], first, close ▸ .lastMember,
                Tree.memberValues?_cons.mpr ⟨v, value, [], rfl, rfl⟩, rfl⟩
            · cases h
        · cases h
    · cases h

theorem sound_readValue (d : Nat) : Sound d (readValue d) := by
  induction d with
  | zero =>
    intro s v rest h
    unfold readValue at h
    split at h
    · cases h
    · cases h
    · exact spells_of_readScalar h
  | succ d ih =>
    intro s v rest h
    unfold readValue at h
    split at h
    · rename_i t bracket
      rw [bracket]
      split at h
      · rename_i u close
        cases h
        exact ⟨.array [], .emptyArray close, rfl⟩
      · cases answer : readItems (readValue d) (skipSpace t).length [] (skipSpace t) with
        | error f => simp [answer, Except.map] at h
        | ok pair =>
          obtain ⟨items, u⟩ := pair
          simp only [answer, Except.map] at h
          cases h
          obtain ⟨first, ts, w, values, item, more, same, rfl⟩ := spells_of_readItems ih answer
          refine ⟨.array (first :: ts), .array (skipSpace_skipSpace t ▸ item) more, ?_⟩
          rw [Tree.value?, same]
          rfl
    · rename_i t brace
      rw [brace]
      split at h
      · rename_i u close
        cases h
        exact ⟨.object [], .emptyObject close, rfl⟩
      · cases answer : readMembers (readValue d) (skipSpace t).length [] (skipSpace t) with
        | error f => simp [answer, Except.map] at h
        | ok pair =>
          obtain ⟨members, u⟩ := pair
          simp only [answer, Except.map] at h
          cases h
          obtain ⟨name, first, ms, w, values, member, more, same, rfl⟩ :=
            spells_of_readMembers ih answer
          refine ⟨.object ((name, first) :: ms), .object (skipSpace_skipSpace t ▸ member) more, ?_⟩
          rw [Tree.value?, same]
          rfl
    · exact spells_of_readScalar h

/-- Reading a document gives the value of the tree that it is written as, if there is one within the
limit. -/
theorem readDocument_eq_ok {s : Bytes} :
    readDocument s = .ok v ↔ ∃ t, Written depthLimit t s ∧ t.value? = some v := by
  constructor
  · intro h
    unfold readDocument at h
    cases answer : readValue depthLimit s with
    | error f => simp [answer, bind, Except.bind] at h
    | ok pair =>
      obtain ⟨w, rest⟩ := pair
      obtain ⟨t, spells, value⟩ := sound_readValue depthLimit s w rest answer
      simp only [answer, bind, Except.bind] at h
      split at h
      · rename_i ended
        cases h
        exact ⟨t, ⟨rest, spells, ended⟩, value⟩
      · cases h
  · rintro ⟨t, ⟨rest, spells, ended⟩, value⟩
    have delimited : Delimited rest := delimited_of_skipSpace (ended ▸ delimited_nil)
    have read : readValue depthLimit s = .ok (v, rest) := reads spells delimited v value s rfl
    simp [readDocument, read, bind, Except.bind, ended]

/-- A document can be read if and only if it is one of the grammar in which every number fits, every
text stands for one, and containers nest within the limit. -/
theorem readDocument_iff {s : Bytes} :
    (∃ v, readDocument s = .ok v) ↔ Document Literal.Fits Decodable depthLimit s := by
  simp only [readDocument_eq_ok]
  constructor
  · rintro ⟨v, t, ⟨rest, spells, ended⟩, value⟩
    have fits : ∀ l ∈ t.literals, l.Fits := t.fits_iff.mp (by simp [value])
    exact ⟨rest, spells.derives fits, ended⟩
  · rintro ⟨rest, derived, ended⟩
    obtain ⟨t, spells, fits⟩ := derived.spelled
    obtain ⟨v, value⟩ := Option.isSome_iff_exists.mp (t.fits_iff.mpr fits)
    exact ⟨v, t, ⟨rest, spells, ended⟩, value⟩

end TopicReader.Json
